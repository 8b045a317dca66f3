import DialectBridge.Proofs.CastParts
/-!
# The value of a cast

`castTarget` cuts a cast at its last ` AS `. So the value is found even if such words stand in a literal in it
(`exists_find?_castTarget`).
-/
namespace DialectBridge.Pattern
open Cursor

variable {α : Type} {s : CharSet} {k : Cursor → Groups → Option α} {u v w : Text} {g : Groups} {r : α}

/-- Rounds of one character find nothing where nothing is found behind any of them. -/
theorem run_star_one_eq_none (hk : ∀ x y, v = x ++ y → k (between (u ++ x) y) g = none) :
    (star true (one s)).run k (between u v) g = none := by
  induction v generalizing u with
  | nil => simpa [run, rounds] using hk [] [] rfl
  | cons c v ih =>
    have hmore := ih (u := u ++ [c]) fun x y hv => by simpa using hk (c :: x) y (by simp [hv])
    have hstop := hk [] (c :: v) rfl
    rw [List.append_nil] at hstop
    have hagain : run (one s) (fun c' g' => rounds true (fun k' c' g' => run (one s) k' c' g') k v c' g')
        (between u (c :: v)) g = none := by
      rw [run_one_cons]
      split_ifs
      · exact hmore
      · rfl
    rw [run, right_between, rounds, if_pos rfl, hagain, hstop]
    rfl

/-- Rounds of one character go on to the last place behind which something is found. -/
theorem run_star_one_of_last (hw : ∀ c ∈ w, s.contains c = true) (hr : k (between (u ++ w) v) g = some r)
    (hk : ∀ x y, v = x ++ y → x ≠ [] → k (between (u ++ w ++ x) y) g = none) :
    (star true (one s)).run k (between u (w ++ v)) g = some r := by
  induction w generalizing u with
  | nil =>
    rw [List.append_nil] at hr
    cases v with
    | nil => simpa [run, rounds] using hr
    | cons c v =>
      have hmore : (star true (one s)).run k (between (u ++ [c]) v) g = none :=
        run_star_one_eq_none fun x y hv => by simpa using hk (c :: x) y (by simp [hv]) (by simp)
      have hagain : run (one s) (fun c' g' => rounds true (fun k' c' g' => run (one s) k' c' g') k v c' g')
          (between u (c :: v)) g = none := by
        rw [run_one_cons]
        split_ifs
        · exact hmore
        · rfl
      rw [List.nil_append, run, right_between, rounds, if_pos rfl, hagain, hr]
      rfl
  | cons c w ih =>
    have hmore := ih (u := u ++ [c]) (fun d hd => hw d (by simp [hd])) (by simpa using hr) (by simpa using hk)
    have hagain : run (one s) (fun c' g' => rounds true (fun k' c' g' => run (one s) k' c' g') k (w ++ v) c' g')
        (between u (c :: (w ++ v))) g = some r := by
      rw [run_one_cons, if_pos (hw c (by simp))]
      exact hmore
    rw [List.cons_append, run, right_between, rounds, if_pos rfl, hagain]
    rfl

end DialectBridge.Pattern

namespace DialectBridge
open Pattern Cursor

/-- A character is white space or not. -/
theorem contains_nonBlank {c : Char} : (CharSet.complement .blank).contains c = true ↔ Unicode.isBlank c = false := by
  have hranges : (CharSet.complement .blank).ranges = [(0, 0x8), (0xE, 0x1F), (0x21, 0x84), (0x86, 0x9F),
      (0xA1, 0x167F), (0x1681, 0x1FFF), (0x200B, 0x2027), (0x202A, 0x202E), (0x2030, 0x205E), (0x2060, 0x2FFF),
      (0x3001, 0x10FFFF)] := by decide
  have hlt : c.toNat < 0x110000 := by
    have := c.valid
    simp only [UInt32.isValidChar, Nat.isValidChar] at this
    show c.val.toNat < _
    omega
  have hsorted : (CharSet.complement .blank).ranges.Sorted ∧ Unicode.blankRanges.Sorted := by
    rw [hranges]
    unfold Unicode.Ranges.Sorted
    decide
  rw [← Bool.not_eq_true, CharSet.contains, Unicode.isBlank, Unicode.Ranges.contain, Unicode.Ranges.contain,
    Unicode.Ranges.has_eq_true_iff hsorted.1, Unicode.Ranges.has_eq_true_iff hsorted.2, hranges]
  simp only [Unicode.blankRanges, List.mem_cons, List.not_mem_nil, or_false, exists_eq_or_imp, exists_eq_left]
  constructor <;> intro h <;> omega

def castRest : Pattern := blanks1 ++ "AS" ++ blanks1 ++ .group 2 (many1 anyChar) ++ textEnd

variable {a t : Text}

/-- What stands behind the value takes two runs of white space and a word between them. -/
theorem exists_of_castRest {u w v : Text} {g g' : Groups} (h : Takes castRest u w v g g') :
    ∃ b k b' t, w = b ++ (k ++ (b' ++ t)) ∧ (b ≠ [] ∧ ∀ c ∈ b, Unicode.isBlank c = true) ∧ Spelled "AS".toList k ∧
      (b' ≠ [] ∧ ∀ c ∈ b', Unicode.isBlank c = true) ∧ v = [] ∧
        g' = (2, between (u ++ (b ++ (k ++ b'))) (t ++ v), between (u ++ w) v) :: g := by
  obtain ⟨w, e, g₁, rfl, hw, he⟩ := h
  obtain ⟨w, t, g₂, rfl, hw, g₃, ht, rfl⟩ := hw
  obtain ⟨w, b', g₄, rfl, hw, hb'⟩ := hw
  obtain ⟨b, k, g₅, rfl, hb, hk⟩ := hw
  obtain ⟨rfl, rfl⟩ := matches_textEnd.1 ⟨_, _, he⟩
  have hgroups := he.groups_eq rfl
  rw [ht.groups_eq rfl, hb'.groups_eq rfl, hk.groups_eq rfl, hb.groups_eq rfl] at hgroups
  exact ⟨b, k, b', t, by simp, (takes_blanks1 hb).1, (takes_word hk).1, (takes_blanks1 hb').1, rfl, by simp [hgroups]⟩

def typeLink : Text := " AS "

theorem matches_castRest (ht : t ≠ []) : Matches castRest a (typeLink ++ t) [] := by
  have hspace : [' '] ≠ [] ∧ ∀ c ∈ [' '], Unicode.isBlank c = true := by decide
  refine matches_seq.2 ⟨typeLink ++ t, [], by simp, matches_seq.2 ⟨typeLink, t, rfl, ?_, ?_⟩,
    matches_textEnd.2 ⟨rfl, rfl⟩⟩
  · refine matches_seq.2 ⟨[' '] ++ "AS".toList, [' '], rfl, ?_, matches_blanks1.2 hspace⟩
    exact matches_seq.2 ⟨[' '], "AS".toList, rfl, matches_blanks1.2 hspace, matches_word.2 (spelled_self _)⟩
  · exact matches_group.2 (matches_many1_one.2 ⟨ht, fun c _ => contains_all c⟩)

/-- A type is read as it is written. -/
theorem castRest_inj {b k b' t' : Text} (ht : ∀ c ∈ t, Unicode.isBlank c = false)
    (h : typeLink ++ t = b ++ (k ++ (b' ++ t'))) (hb : b ≠ [] ∧ ∀ c ∈ b, Unicode.isBlank c = true)
    (hk : Spelled "AS".toList k) (hb' : b' ≠ [] ∧ ∀ c ∈ b', Unicode.isBlank c = true) : t' = t := by
  have hlink : typeLink ++ t = ' ' :: (['A', 'S'] ++ ([' '] ++ t)) := rfl
  have hrest : ['A', 'S'] ++ ([' '] ++ t) = k ++ (b' ++ t') := by
    obtain ⟨c, b, rfl⟩ := List.exists_cons_of_ne_nil hb.1
    obtain ⟨rfl, hmore⟩ := List.cons.inj (hlink.symm.trans h)
    cases b with
    | nil => exact hmore
    | cons d b =>
      have hd : d = 'A' := (List.cons.inj hmore).1.symm
      exact absurd (hb.2 'A' (by simp [hd])) (by decide)
  have hlength : ['A', 'S'].length = k.length := List.Forall₂.length_eq hk
  obtain ⟨-, hrest⟩ := List.append_inj hrest hlength
  obtain ⟨c, b', rfl⟩ := List.exists_cons_of_ne_nil hb'.1
  obtain ⟨-, hrest⟩ := List.cons.inj hrest
  cases b' with
  | nil => exact hrest.symm
  | cons d b' =>
    have hd : d ∈ t := by
      rw [show t = d :: b' ++ t' from hrest]
      simp
    exact absurd (hb'.2 d (by simp)) (by simp [ht d hd])

/-- Behind the value no further ` AS ` is found. -/
theorem not_castRest {y b k b' t' : Text} {e : Char} (ht : ∀ c ∈ t, Unicode.isBlank c = false)
    (h : typeLink ++ t = y ++ e :: (b ++ (k ++ (b' ++ t')))) (he : Unicode.isBlank e = false)
    (hb : b ≠ [] ∧ ∀ c ∈ b, Unicode.isBlank c = true) (hb' : b' ≠ [] ∧ ∀ c ∈ b', Unicode.isBlank c = true) : False := by
  have hsome : ∀ {b : Text}, b ≠ [] ∧ (∀ c ∈ b, Unicode.isBlank c = true) → 0 < b.countP Unicode.isBlank := by
    intro b hb
    obtain ⟨c, hc⟩ := List.exists_mem_of_ne_nil b hb.1
    exact List.countP_pos_iff.2 ⟨c, hc, hb.2 c hc⟩
  have hcount := congrArg (List.countP Unicode.isBlank) h
  have hlink : typeLink.countP Unicode.isBlank = 2 := by decide
  have hnone : t.countP Unicode.isBlank = 0 := List.countP_eq_zero.2 fun c hc => by simp [ht c hc]
  simp only [List.countP_append, List.countP_cons, hlink, hnone] at hcount
  have hpos := hsome hb
  have hpos' := hsome hb'
  have hlink : typeLink = ' ' :: "AS ".toList := by decide
  cases y with
  | nil =>
    obtain rfl : ' ' = e := (List.cons.inj h).1
    exact absurd he (by decide)
  | cons c y =>
    obtain rfl : ' ' = c := (List.cons.inj h).1
    have hblank : Unicode.isBlank ' ' = true := by decide
    simp only [List.countP_cons, hblank, if_true] at hcount
    omega

/-- The value of a cast is found, and its type. -/
theorem exists_find?_castTarget (hne : a ≠ []) (hlast : ∀ c ∈ a.getLast?, Unicode.isBlank c = false) (htne : t ≠ [])
    (ht : ∀ c ∈ t, Unicode.isBlank c = false) :
    ∃ m, DataType.castTarget.find? (a ++ (typeLink ++ t)) = some m ∧ m.groupD 1 = a ∧ m.groupD 2 = t := by
  obtain ⟨a, d, rfl⟩ := (List.eq_nil_or_concat a).resolve_left hne
  rw [List.concat_eq_append] at hlast ⊢
  have hd : (CharSet.complement .blank).contains d = true := contains_nonBlank.2 (hlast d (by simp))
  generalize hx : a ++ [d] ++ (typeLink ++ t) = x
  let found : Cursor → Groups → Option Match := fun c g => some ⟨between [] x, c, g⟩
  let value : Cursor → Groups → Option Match := fun c g => castRest.run found c ((1, between [] x, c) :: g)
  have hmatch : DataType.castTarget.matchAt? (between [] x) =
      (star true anyChar).run (fun c g => nonBlank.run value c g) (between [] x) [] := rfl
  obtain ⟨m, hm⟩ : ∃ m, value (between (a ++ [d]) (typeLink ++ t)) [] = some m := by
    obtain ⟨g, g', htakes⟩ := matches_castRest (a := a ++ [d]) htne
    have hrun := run_ne_none castRest found htakes (fun _ => by simp [found])
      [(1, between [] x, between (a ++ [d]) (typeLink ++ t))]
    rw [List.append_nil] at hrun
    exact Option.ne_none_iff_exists'.1 hrun
  have hrun : (star true anyChar).run (fun c g => nonBlank.run value c g) (between [] (a ++ d :: (typeLink ++ t))) [] =
      some m := by
    refine run_star_one_of_last (fun c _ => contains_all c) ?_ fun y z hsplit hy => ?_
    · rw [List.nil_append, nonBlank, run_one_cons, if_pos hd]
      exact hm
    · by_contra hne
      obtain ⟨m', hm'⟩ := Option.ne_none_iff_exists'.1 hne
      obtain ⟨w, v, g, rfl, hw, hrest⟩ := run_eq_some _ hm'
      obtain ⟨⟨e, rfl, he⟩, rfl⟩ := hw
      obtain ⟨w, v', g', rfl, hw, -⟩ := run_eq_some _ hrest
      obtain ⟨b, k, b', t', rfl, hb, -, hb', rfl, -⟩ := exists_of_castRest hw
      obtain ⟨c, y, rfl⟩ := List.exists_cons_of_ne_nil hy
      have hsplit := (List.cons.inj hsplit).2
      exact not_castRest ht (by simpa using hsplit) (contains_nonBlank.1 he) hb hb'
  have hfind : DataType.castTarget.find? x = some m := find?_of_matchAt? <| by
    rw [hmatch, ← hrun, ← hx]
    simp
  obtain ⟨w, v, g, hsplit, hw, hfound⟩ := run_eq_some _ hm
  obtain ⟨b, k, b', t', rfl, hb, hk, hb', rfl, rfl⟩ := exists_of_castRest hw
  obtain rfl := castRest_inj ht (by simpa using hsplit) hb hk hb'
  obtain rfl : _ = m := Option.some.inj hfound
  refine ⟨_, hfind, Match.groupD_eq (u := []) (v := typeLink ++ t') (by decide) ?_,
    Match.groupD_eq (u := a ++ [d] ++ (b ++ (k ++ b'))) (v := []) (by decide) ?_⟩
  · rw [← hx]
    rfl
  · simp

end DialectBridge
