import DialectBridge.Text.Number
import DialectBridge.Text.Search
/-!
# Sets of code points as ranges

A set of characters is kept as ascending ranges of code points, both ends included.
`Ranges.has_eq_true_iff` says that the search, which stops at the first range beyond a code
point, misses none. The large tables are written as text, `41-5A 61`, and read by
`Ranges.ofText`.
-/
namespace DialectBridge.Unicode

/-- Ascending, disjoint ranges of code points. -/
abbrev Ranges := List (Nat × Nat)

namespace Ranges

def has : Ranges → Nat → Bool
  | [], _ => false
  | (lo, hi) :: more, n => if n < lo then false else n ≤ hi || has more n

theorem has_of_lt_first {lo hi n : Nat} {r : Ranges} (h : n < lo) :
    has ((lo, hi) :: r) n = false := by
  simp [has, h]

/-- Whether the ranges come in the order of their lower ends. -/
def Sorted (r : Ranges) : Prop := r.Pairwise (·.1 ≤ ·.1)

theorem has_eq_true_iff {r : Ranges} (hr : Sorted r) {n : Nat} :
    has r n = true ↔ ∃ s ∈ r, s.1 ≤ n ∧ n ≤ s.2 := by
  induction r with
  | nil => simp [has]
  | cons s r ih =>
    obtain ⟨lo, hi⟩ := s
    have ⟨hlo, hr⟩ := List.pairwise_cons.1 hr
    by_cases h : n < lo
    · simp only [has_of_lt_first h, Bool.false_eq_true, List.mem_cons, false_iff]
      rintro ⟨s, rfl | hs, h1, h2⟩
      · omega
      · have := hlo s hs
        simp only at this
        omega
    · simp only [has, if_neg h, Bool.or_eq_true, decide_eq_true_eq, ih hr, List.mem_cons,
        exists_eq_or_imp]
      constructor
      · rintro (h2 | h2)
        · exact .inl ⟨by omega, h2⟩
        · exact .inr h2
      · rintro (h2 | h2)
        · exact .inl h2.2
        · exact .inr h2

/-- Whether the character `c` is in one of the ranges. -/
def contain (r : Ranges) (c : Char) : Bool := has r c.toNat

/-! ## Operations

Characters leave out the code points from `D800` to `DFFF`, so `E000` follows on `D7FF`. Ranges
may reach over this hole. -/

def next (n : Nat) : Nat := if n = 0xD7FF then 0xE000 else n + 1

def previous (n : Nat) : Nat := if n = 0xE000 then 0xD7FF else n - 1

/-- Joins neighbouring ranges that touch; `r` stands before all others. -/
def joinFrom (r : Nat × Nat) : Ranges → Ranges
  | [] => [r]
  | s :: more =>
    if s.1 ≤ r.2 + 1 then joinFrom (r.1, max r.2 s.2) more else r :: joinFrom s more

/-- The given ranges in order, those that overlap or touch made one. -/
def ordered (rs : Ranges) : Ranges :=
  match rs.mergeSort (fun a b => a.1 ≤ b.1) with
  | [] => []
  | r :: more => joinFrom r more

def union (rs : List Ranges) : Ranges := ordered rs.flatten

/-- What lies between neighbouring ranges, and behind the last one, which ends at `n`. Where only
the hole lies between two ranges, the characters on its two sides stand for what is there. -/
def gapsAfter : Nat → Ranges → Ranges
  | n, [] => if n < 0x10FFFF then [(next n, 0x10FFFF)] else []
  | n, (lo, hi) :: more =>
    let (a, b) := (next n, previous lo)
    (if a ≤ b then (a, b) else (b, a)) :: gapsAfter hi more

/-- What is in none of the ranges. -/
def complement : Ranges → Ranges
  | [] => [(0, 0x10FFFF)]
  | (lo, hi) :: more =>
    if lo = 0 then gapsAfter hi more else (0, previous lo) :: gapsAfter hi more

def intersection : Ranges → Ranges → Ranges
  | [], _ => []
  | _, [] => []
  | a :: as, b :: bs =>
    let more := if a.2 < b.2 then intersection as (b :: bs) else intersection (a :: as) bs
    let both := (max a.1 b.1, min a.2 b.2)
    if both.1 ≤ both.2 then both :: more else more
termination_by a b => a.length + b.length

def difference : Ranges → Ranges → Ranges
  | [], _ => []
  | as, [] => as
  | a :: as, b :: bs =>
    if b.2 < a.1 then difference (a :: as) bs
    else if a.2 < b.1 then a :: difference as (b :: bs)
    else
      let more :=
        if b.2 < a.2 then difference ((next b.2, a.2) :: as) bs else difference as (b :: bs)
      if a.1 < b.1 then (a.1, previous b.1) :: more else more
termination_by a b => a.length + b.length

/-! ## Tables -/

/-- The range written as `lo-hi`, or as `lo` alone, in hexadecimal. -/
def readRange (t : Text) : Option (Nat × Nat) := do
  match Text.splitOn (· == '-') t with
  | [lo] => let n ← Text.readDigits 16 0 lo; return (n, n)
  | [lo, hi] => return (← Text.readDigits 16 0 lo, ← Text.readDigits 16 0 hi)
  | _ => none

/-- The ranges written in `s`, blanks or line feeds between neighbours. -/
def ofText (s : String) : Ranges :=
  let words := Text.splitOn (fun c => c == ' ' || c == '\n') s.toList
  (words.filter (!·.isEmpty)).filterMap readRange

end Ranges

/-- The first entry of a table that has the given name among its names. -/
def named? {α : Type} (table : List (List String × α)) (name : Text) : Option α :=
  (table.find? fun e => e.1.any (·.toList == name)).map Prod.snd

end DialectBridge.Unicode
