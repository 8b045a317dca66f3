import DialectBridge.Checklist
import DialectBridge.Converter
import DialectBridge.Proofs.Finding
import DialectBridge.Proofs.Marks
import DialectBridge.Proofs.Masking
/-!
# The marks of a skeleton

The check of distinct aggregates finds a skeleton by its marks: a query whose code has them in order
fails the check (`checkStringAggDistinct_of_marked`).
-/
namespace DialectBridge
open Pattern LexState

/-- What is left of the skeleton of `LISTAGG(DISTINCT ...)` whatever is done to its arguments. -/
def skeletonMarks : List (List Text) :=
  [pieces "SELECT STRING_AGG(dv", pieces "FROM (SELECT DISTINCT", pieces "<source_table>"]

theorem isMark_skeletonMarks : ∀ m ∈ skeletonMarks, IsMark m := by
  have hall : ∀ m ∈ skeletonMarks, (∃ p ∈ m.head?, p ∈ markWords) ∧ (∃ p ∈ m.getLast?, p ∈ markWords) ∧
      ∀ p ∈ m, p ∈ markWords ∨ p ∈ markSeams := by
    decide
  exact fun m hm => ⟨(hall m hm).1, (hall m hm).2.1, (hall m hm).2.2⟩

theorem contains_all (c : Char) : CharSet.all.contains c = true := by
  have hc : c.toNat ≤ 0x10FFFF := by
    have h := c.valid
    simp only [UInt32.isValidChar, Nat.isValidChar] at h
    change c.val.toNat ≤ _
    omega
  simp [CharSet.contains, CharSet.all, Unicode.Ranges.contain, Unicode.Ranges.has, hc]

/-! ## What the mask shows -/

theorem prefix_of_mask_eq {sql w v : Text} (hw : ∀ c ∈ w, isFirm c = true) (h : mask sql = w ++ v) :
    w <+: sql := by
  induction w generalizing sql with
  | nil => exact List.nil_prefix
  | cons c w ih =>
    obtain ⟨a, b, rfl, ha, hb, -⟩ := exists_of_mask_eq (u := []) (hw c (by simp)) h
    have hnil : a = [] := by
      by_contra hne
      exact mask_ne_nil hne ha
    subst hnil
    exact List.cons_prefix_cons.2 ⟨rfl, ih (fun d hd => hw d (List.mem_cons_of_mem c hd)) hb⟩

/-- A text without blanks that the mask shows is in the query. -/
theorem infix_of_mask_eq {sql u w v : Text} (hw : ∀ c ∈ w, isFirm c = true) (h : mask sql = u ++ (w ++ v)) :
    w <:+: sql := by
  cases w with
  | nil => exact List.nil_infix
  | cons c w =>
    obtain ⟨a, b, rfl, -, hb, -⟩ := exists_of_mask_eq (hw c (by simp)) h
    obtain ⟨t, rfl⟩ := prefix_of_mask_eq (fun d hd => hw d (List.mem_cons_of_mem c hd)) hb
    exact ⟨a, t, by simp⟩

/-! ## The check -/

/-- Two matches one behind the other. -/
theorem Pattern.Matches.seq {p q : Pattern} {u a b v : Text} (hp : Matches p u a (b ++ v))
    (hq : Matches q (u ++ a) b v) : Matches (p ++ q) u (a ++ b) v :=
  matches_seq.2 ⟨a, b, rfl, hp, hq⟩

namespace Checklist

theorem stringAggCall_of_marked {t : Text} (h : Marked skeletonMarks (pieces t)) :
    stringAggCall.occursIn t = true := by
  obtain ⟨a, c, hsplit, -⟩ := h
  have ht : t = (a.flatten ++ "SELECT ".toList) ++ ("STRING_AGG(".toList ++ ("dv".toList ++ c.flatten)) := by
    rw [← flatten_pieces t, hsplit]
    simp
  have hmatch : Matches stringAggCall (a.flatten ++ "SELECT ".toList) "STRING_AGG(".toList
      ("dv".toList ++ c.flatten) := by
    refine matches_seq.2 ⟨"STRING_AGG".toList, ['('], rfl, matches_seq.2 ⟨"STRING_AGG".toList, [], rfl,
      matches_seq.2 ⟨[], "STRING_AGG".toList, rfl, matches_edge.2 ⟨rfl, ?_⟩, ?_⟩, ?_⟩, matches_sym.2 rfl⟩
    · rw [endsInWord_append (by decide), beginsInWord_append (by decide)]
      decide
    · exact matches_word.2 (spelled_self _)
    · exact matches_many_one.2 (by simp)
  rw [ht]
  exact occursIn_of_matches hmatch

theorem distinctDerivedSet_of_marked {t : Text} (h : Marked skeletonMarks (pieces t)) :
    distinctDerivedSet.occursIn t = true := by
  obtain ⟨a, c, hsplit, b, d, rfl, -⟩ := h
  have ht : t = a.flatten ++ ("SELECT".toList ++ [' '] ++ "STRING_AGG".toList ++ ("(dv".toList ++ b.flatten) ++
      "FROM".toList ++ [' '] ++ ['('] ++ [] ++ "SELECT".toList ++ [' '] ++ "DISTINCT".toList ++ [] ++ d.flatten) := by
    rw [← flatten_pieces t, hsplit]
    simp
  have hedge : beginsInWord d.flatten = false := by
    have hsplit' : pieces t = (a ++ (pieces "SELECT STRING_AGG(dv" ++ (b ++ pieces "FROM (SELECT DISTINCT"))) ++ d := by
      rw [hsplit]
      simp
    refine (pieces_eq_append hsplit').2.2 ?_
    rw [List.flatten_append, List.flatten_append, List.flatten_append, flatten_pieces, flatten_pieces,
      ← List.append_assoc, ← List.append_assoc, endsInWord_append (by decide)]
    decide
  have hword : ∀ {u w v : Text}, Matches (word w) u w v := fun {_ w _} =>
    matches_word.2 (spelled_self _)
  have hblanks1 : ∀ {u v : Text}, Matches blanks1 u [' '] v := matches_blanks1.2 (by decide)
  have hmatch : Matches distinctDerivedSet a.flatten ("SELECT".toList ++ [' '] ++ "STRING_AGG".toList ++
      ("(dv".toList ++ b.flatten) ++ "FROM".toList ++ [' '] ++ ['('] ++ [] ++ "SELECT".toList ++ [' '] ++
      "DISTINCT".toList ++ []) d.flatten := by
    refine .seq (.seq (.seq (.seq (.seq (.seq (.seq (.seq (.seq (.seq (.seq hword hblanks1) hword) ?_) hword) ?_)
      (matches_sym.2 rfl)) ?_) hword) hblanks1) hword) (matches_edge.2 ⟨rfl, ?_⟩)
    · exact ⟨[], [], takes_star_one.2 ⟨fun c _ => contains_all c, rfl⟩⟩
    · exact matches_many_one.2 (by decide)
    · exact matches_many_one.2 (by simp)
    · rw [hedge, ← List.append_assoc, endsInWord_append (by decide)]
      decide
  rw [ht]
  exact occursIn_of_matches hmatch

/-- A query whose code has the marks of a skeleton fails the check. -/
theorem checkStringAggDistinct_of_marked {sql : Text} (h : Marked skeletonMarks (pieces (mask sql))) :
    ∃ message action, checkStringAggDistinct sql (mask sql) defaultPlaceholder =
      .fail "string_agg_distinct" .warning message action := by
  have hplaceholder : Text.has defaultPlaceholder sql = true := by
    obtain ⟨a, _, hsplit, b, _, rfl, c, d, rfl, -⟩ := h
    have hshown : mask sql = (a ++ (pieces "SELECT STRING_AGG(dv" ++ (b ++
        (pieces "FROM (SELECT DISTINCT" ++ c)))).flatten ++ ("<source_table>".toList ++ d.flatten) := by
      rw [← flatten_pieces (mask sql), hsplit]
      simp
    exact Text.has_eq_true_iff.2 (infix_of_mask_eq (by decide) hshown)
  simp [checkStringAggDistinct, stringAggCall_of_marked h, distinctDerivedSet_of_marked h, hplaceholder]

end Checklist

end DialectBridge
