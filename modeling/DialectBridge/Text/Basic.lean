/-!
# Texts and byte offsets

A text is a list of characters, and a place in it is the number of UTF-8 bytes that stand
before it. An offset can fall inside a character or past the end; cutting there has no
result, so every cut is an `Option`. `splitAt?_eq_some_iff` says exactly when a cut exists,
and the other cuts are built from it.
-/
namespace DialectBridge

/-- A text: its characters from left to right. -/
abbrev Text := List Char

/-- A string constant stands for its characters. -/
instance : Coe String Text := ⟨String.toList⟩

section
variable (t : Text) (o : Option Char) (p : Char → Prop) [DecidablePred p]

-- These look at the characters that are there, not at all the characters there can be.
instance decidableForallMemText : Decidable (∀ c ∈ t, p c) := List.decidableBAll p t

instance decidableExistsMemText : Decidable (∃ c ∈ t, p c) := List.decidableBEx p t

instance decidableForallMemOption : Decidable (∀ c ∈ o, p c) := Option.decidableForallMem o

instance decidableExistsMemOption : Decidable (∃ c ∈ o, p c) := Option.decidableExistsMem o

end

/-- What holds of the first 128 characters holds of every character of ASCII. -/
theorem of_ascii {p : Char → Prop} (h : ∀ n ∈ List.range 128, p (Char.ofNat n)) : ∀ c : Char, c.toNat < 128 → p c := by
  intro c hc
  have hp := h c.toNat (List.mem_range.2 hc)
  rwa [Char.ofNat_toNat] at hp

/-- The bytes from `start` up to `stop` of some text. -/
structure Span where
  start : Nat
  stop : Nat
  deriving DecidableEq, Repr

namespace Text

/-- What holds of its characters holds of a string constant: the kernel need not decode it. -/
theorem of_chars {p : Text → Prop} {l : List Char} (h : p l) : p (String.ofList l).toList := by
  rwa [String.toList_ofList]

/-- The number of bytes of a text in UTF-8. -/
def width : Text → Nat
  | [] => 0
  | c :: t => c.utf8Size + width t

@[simp] theorem width_nil : width [] = 0 := rfl

@[simp] theorem width_cons (c : Char) (t : Text) : width (c :: t) = c.utf8Size + width t := rfl

@[simp] theorem width_append (a b : Text) : width (a ++ b) = width a + width b := by
  induction a with
  | nil => simp
  | cons c a ih => simp [ih, Nat.add_assoc]

theorem width_pos {t : Text} (h : t ≠ []) : 0 < width t := by
  cases t with
  | nil => exact absurd rfl h
  | cons c t => have := c.utf8Size_pos; simp; omega

/-- The characters of a text that starts at offset `i`, each with its own offset. -/
def indexedFrom : Nat → Text → List (Nat × Char)
  | _, [] => []
  | i, c :: t => (i, c) :: indexedFrom (i + c.utf8Size) t

/-- The characters of a text, each with the offset at which it starts. -/
def indexed (t : Text) : List (Nat × Char) := indexedFrom 0 t

/-- The text before and the text after offset `n`; `none` when `n` is inside a character or
past the end. -/
def splitAt? : Text → Nat → Option (Text × Text)
  | [], n => if n = 0 then some ([], []) else none
  | c :: t, n =>
    if n = 0 then some ([], c :: t)
    else if n < c.utf8Size then none
    else (splitAt? t (n - c.utf8Size)).map fun (a, b) => (c :: a, b)

theorem splitAt?_append (a b : Text) : splitAt? (a ++ b) (width a) = some (a, b) := by
  induction a with
  | nil => cases b <;> simp [splitAt?]
  | cons c a ih =>
    have h0 : c.utf8Size ≠ 0 := Nat.ne_of_gt c.utf8Size_pos
    simp [splitAt?, h0, ih]

/-- A cut at `n` exists exactly where the text is two texts of which the first has `n`
bytes. -/
theorem splitAt?_eq_some_iff {t a b : Text} {n : Nat} :
    splitAt? t n = some (a, b) ↔ t = a ++ b ∧ width a = n := by
  constructor
  · intro h
    induction t generalizing n a b with
    | nil =>
      simp only [splitAt?] at h
      split at h <;> simp_all
    | cons c t ih =>
      simp only [splitAt?] at h
      split at h
      · simp_all
      · split at h
        · simp at h
        · obtain ⟨⟨a', b'⟩, h', he⟩ := Option.map_eq_some_iff.1 h
          obtain ⟨rfl, hw⟩ := ih h'
          simp only [Prod.mk.injEq] at he
          obtain ⟨rfl, rfl⟩ := he
          refine ⟨rfl, ?_⟩
          simp only [width_cons]
          omega
  · rintro ⟨rfl, rfl⟩
    exact splitAt?_append a b

/-- The text from offset `i` up to offset `j`. -/
def slice? (t : Text) (i j : Nat) : Option Text := do
  let (head, _) ← splitAt? t j
  let (_, middle) ← splitAt? head i
  return middle

def from? (t : Text) (i : Nat) : Option Text := (splitAt? t i).map Prod.snd

def upTo? (t : Text) (i : Nat) : Option Text := (splitAt? t i).map Prod.fst

/-- `t` with the bytes from `i` up to `j` replaced by `r`. -/
def splice? (t : Text) (i j : Nat) (r : Text) : Option Text := do
  let (head, after) ← splitAt? t j
  let (before, _) ← splitAt? head i
  return before ++ r ++ after

def insert? (t : Text) (i : Nat) (r : Text) : Option Text := splice? t i i r

theorem slice?_append (a b c : Text) :
    slice? (a ++ b ++ c) (width a) (width a + width b) = some b := by
  have h := splitAt?_append (a ++ b) c
  rw [width_append] at h
  unfold slice?
  rw [h]
  simp [splitAt?_append]

theorem splice?_append (a b c r : Text) :
    splice? (a ++ b ++ c) (width a) (width a + width b) r = some (a ++ r ++ c) := by
  have h := splitAt?_append (a ++ b) c
  rw [width_append] at h
  unfold splice?
  rw [h]
  simp [splitAt?_append]

theorem insert?_append (a b r : Text) : insert? (a ++ b) (width a) r = some (a ++ (r ++ b)) := by
  have h := splice?_append a [] b r
  simpa [insert?] using h

theorem upTo?_append (a b : Text) : upTo? (a ++ b) (width a) = some a := by
  simp [upTo?, splitAt?_append]

theorem from?_append (a b : Text) : from? (a ++ b) (width a) = some b := by
  simp [from?, splitAt?_append]

theorem slice?_between (a b c : Text) : slice? (a ++ (b ++ c)) (width a) (width (a ++ b)) = some b := by
  rw [← List.append_assoc, width_append, slice?_append]

end Text
end DialectBridge
