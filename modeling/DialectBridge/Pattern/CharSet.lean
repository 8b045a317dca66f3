import DialectBridge.Unicode.Blank
import DialectBridge.Unicode.Digit
import DialectBridge.Unicode.Fold
import DialectBridge.Unicode.Word
/-!
# Sets of characters

A `CharSet` is what one step of a pattern accepts. The sets that the dialect rules use are
constants here; the operations on sets serve the patterns that a user writes.
-/
namespace DialectBridge
open Unicode

/-- A set of characters, as ascending ranges of code points. -/
structure CharSet where
  ranges : Ranges
  deriving DecidableEq, Repr

namespace CharSet

def contains (s : CharSet) (c : Char) : Bool := s.ranges.contain c

def empty : CharSet := ⟨[]⟩

def all : CharSet := ⟨[(0, 0x10FFFF)]⟩

def single (c : Char) : CharSet := ⟨[(c.toNat, c.toNat)]⟩

theorem contains_empty (c : Char) : empty.contains c = false := rfl

theorem contains_single (a c : Char) : (single a).contains c = (c == a) := by
  rw [Bool.eq_iff_iff]
  simp only [contains, single, Ranges.contain, Ranges.has, beq_iff_eq]
  constructor
  · intro h
    split at h
    · simp at h
    · simp only [Bool.or_false, decide_eq_true_eq] at h
      exact Char.toNat_inj.1 (by omega)
  · rintro rfl
    simp

def blank : CharSet := ⟨blankRanges⟩

def digit : CharSet := ⟨digitRanges⟩

def word : CharSet := ⟨wordRanges⟩

/-! ## Operations -/

/-- Puts a range into ascending ranges. -/
def insertRange (r : Nat × Nat) : Ranges → Ranges
  | [] => [r]
  | s :: more => if r.1 ≤ s.1 then r :: s :: more else s :: insertRange r more

theorem mem_insertRange {r s : Nat × Nat} {rs : Ranges} :
    s ∈ insertRange r rs ↔ s = r ∨ s ∈ rs := by
  induction rs with
  | nil => simp [insertRange]
  | cons t rs ih =>
    unfold insertRange
    split
    · simp
    · simp only [List.mem_cons, ih]
      exact or_left_comm

theorem sorted_insertRange (r : Nat × Nat) {rs : Ranges} (h : rs.Sorted) :
    Ranges.Sorted (insertRange r rs) := by
  induction rs with
  | nil => simp [insertRange, Ranges.Sorted]
  | cons s rs ih =>
    have ⟨hs, hrs⟩ := List.pairwise_cons.1 h
    unfold insertRange
    split
    · rename_i hle
      refine List.pairwise_cons.2 ⟨fun t ht => ?_, h⟩
      rcases List.mem_cons.1 ht with rfl | ht
      · exact hle
      · exact Nat.le_trans hle (hs t ht)
    · rename_i hle
      refine List.pairwise_cons.2 ⟨fun t ht => ?_, ih hrs⟩
      rcases mem_insertRange.1 ht with rfl | ht
      · omega
      · exact hs t ht

/-- The set with the members of the given ranges, in whatever order they come. -/
def ofRanges (rs : Ranges) : CharSet := ⟨rs.ordered⟩

/-- The members of `a` or `b`. -/
def union (a b : CharSet) : CharSet := ⟨.union [a.ranges, b.ranges]⟩

def complement (s : CharSet) : CharSet := ⟨s.ranges.complement⟩

def intersection (a b : CharSet) : CharSet := ⟨a.ranges.intersection b.ranges⟩

def difference (a b : CharSet) : CharSet := ⟨a.ranges.difference b.ranges⟩

/-- The members of just one of `a` and `b`. -/
def symmetricDifference (a b : CharSet) : CharSet := difference (union a b) (intersection a b)

/-- The orbits of the case folding. -/
def foldOrbits : List (List Nat) :=
  foldRows.flatMap fun row =>
    (List.range ((row.last - row.first) / row.step + 1)).map fun k =>
      let n := row.first + k * row.step
      n :: foldPartners n

/-- `s` together with all that equals a member up to case. -/
def foldCase (s : CharSet) : CharSet :=
  let orbits := foldOrbits.filter fun orbit => orbit.any s.ranges.has
  ofRanges (s.ranges ++ orbits.flatten.map fun n => (n, n))

/-- The characters that equal `c` up to case. -/
def caseless (c : Char) : CharSet :=
  ⟨(caseVariants c).foldr (fun v rs => insertRange (v.toNat, v.toNat) rs) []⟩

/-- Just the characters that equal `c` up to case are in `caseless c`. -/
theorem contains_caseless {c d : Char} : (caseless c).contains d = true ↔ d ∈ caseVariants c := by
  have key : ∀ vs : List Char,
      let rs := vs.foldr (fun v rs => insertRange (v.toNat, v.toNat) rs) []
      Ranges.Sorted rs ∧ ∀ s, s ∈ rs ↔ ∃ v ∈ vs, s = (v.toNat, v.toNat) := by
    intro vs
    induction vs with
    | nil => simp [Ranges.Sorted]
    | cons v vs ih =>
      refine ⟨sorted_insertRange _ ih.1, fun s => ?_⟩
      simp only [List.foldr_cons, mem_insertRange, ih.2, List.mem_cons, exists_eq_or_imp]
  obtain ⟨hs, hm⟩ := key (caseVariants c)
  simp only [contains, caseless, Ranges.contain, Ranges.has_eq_true_iff hs, hm]
  constructor
  · rintro ⟨s, ⟨v, hv, rfl⟩, h1, h2⟩
    have : d = v := Char.toNat_inj.1 (Nat.le_antisymm h2 h1)
    exact this ▸ hv
  · intro hd
    exact ⟨_, ⟨d, hd, rfl⟩, Nat.le_refl _, Nat.le_refl _⟩

end CharSet
end DialectBridge
