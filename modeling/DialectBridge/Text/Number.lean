import DialectBridge.Text.Basic
/-!
# Numbers as texts

Reading a numeral in a base up to 16, and writing one in base ten. `readNat?_ofNat` says that a
written numeral is read back.
-/
namespace DialectBridge.Text

def ofNat (n : Nat) : Text := Nat.toDigits 10 n

/-- The value of a digit of the given base, which is at most 16. -/
def digitValue? (base : Nat) (c : Char) : Option Nat :=
  let v :=
    if '0' ≤ c ∧ c ≤ '9' then c.toNat - '0'.toNat
    else if 'a' ≤ c ∧ c ≤ 'f' then c.toNat - 'a'.toNat + 10
    else if 'A' ≤ c ∧ c ≤ 'F' then c.toNat - 'A'.toNat + 10
    else base
  if v < base then some v else none

/-- The number that continues `n` with the digits of `t`. -/
def readDigits (base : Nat) : Nat → Text → Option Nat
  | n, [] => some n
  | n, c :: t => do readDigits base (n * base + (← digitValue? base c)) t

def charOfCode? (n : Nat) : Option Char := if n.isValidChar then some (Char.ofNat n) else none

/-- The number written in `t` as ASCII digits of the given base, after an optional plus
sign, if it is less than `bound`. -/
def readNat? (base bound : Nat) (t : Text) : Option Nat := do
  let digits := match t with
    | '+' :: r => r
    | _ => t
  if digits.isEmpty then none
  let n ← readDigits base 0 digits
  if n < bound then some n else none

theorem readDigits_append (base n : Nat) (a b : Text) :
    readDigits base n (a ++ b) = (readDigits base n a).bind fun m => readDigits base m b := by
  induction a generalizing n with
  | nil => rfl
  | cons c a ih => cases h : digitValue? base c <;> simp [readDigits, h, ih]

theorem digitValue?_digitChar {n : Nat} (h : n < 10) :
    digitValue? 10 (Nat.digitChar n) = some n := by
  have key : ∀ m : Fin 10, digitValue? 10 (Nat.digitChar m) = some m.val := by decide
  exact key ⟨n, h⟩

theorem readDigits_ofNat (n : Nat) : readDigits 10 0 (ofNat n) = some n := by
  unfold ofNat
  induction n using Nat.strongRecOn with
  | _ n ih =>
    by_cases h : n < 10
    · simp [Nat.toDigits_of_lt_base h, readDigits, digitValue?_digitChar h]
    · rw [Nat.toDigits_of_base_le (by decide) (by omega), readDigits_append, ih _ (by omega)]
      simp [readDigits, digitValue?_digitChar (Nat.mod_lt n (by decide : 0 < 10))]
      omega

theorem isDigit_of_mem_ofNat {n : Nat} {c : Char} (h : c ∈ ofNat n) : c.isDigit = true :=
  Nat.isDigit_of_mem_toDigits (by decide) (by decide) h

/-- A numeral below the bound is read back. -/
theorem readNat?_ofNat {n bound : Nat} (h : n < bound) :
    readNat? 10 bound (ofNat n) = some n := by
  have hread := readDigits_ofNat n
  cases ht : ofNat n with
  | nil => exact absurd ht Nat.toDigits_ne_nil
  | cons c t =>
    have hc : c.isDigit = true := isDigit_of_mem_ofNat (n := n) (by simp [ht])
    have hplus : c ≠ '+' := by rintro rfl; exact absurd hc (by decide)
    rw [ht] at hread
    unfold readNat?
    split
    · simp_all
    · simp [hread, h]

end DialectBridge.Text
