import DialectBridge.Proofs.Replacing
import DialectBridge.Proofs.Tokens
/-!
# Where a word occurs, and how often

A pattern that begins in no word is read from one word of a text to the next (`pieces_induction`). If all it
finds are words of their own, its matches are the pieces of the text that are such words
(`spans_findAll_of_words`), and there are as many of them (`length_findAll_of_words`).
-/
namespace DialectBridge
open Pattern Cursor

/-! ## Words that differ -/

/-- Whether there is a place at which two words differ in more than case. -/
def differ (s t : Text) : Bool :=
  s.length != t.length || (s.zip t).any fun (c, d) => (Unicode.caseVariants c).all (!(Unicode.caseVariants d).contains ·)

/-- A text spells one of two words that differ. -/
theorem Pattern.Spelled.not_of_differ {s t w : Text} (hs : Spelled s w) (h : differ s t = true) : ¬ Spelled t w := by
  intro ht
  have hlength : s.length = t.length := (List.Forall₂.length_eq hs).trans (List.Forall₂.length_eq ht).symm
  simp only [differ, hlength, bne_self_eq_false, Bool.false_or] at h
  clear hlength
  induction hs generalizing t with
  | nil => simp at h
  | @cons c e s w hc hs ih =>
    obtain ⟨d, t, hd, ht', rfl⟩ := List.forall₂_cons_right_iff.1 ht
    rw [List.zip_cons_cons, List.any_cons, Bool.or_eq_true] at h
    rcases h with h | h
    · have := List.all_eq_true.1 h e hc
      simp [hd] at this
    · exact ih ht' h

/-! ## Reading a text word by word -/

/-- Whether a pattern matches nothing that begins inside a word. -/
def BeginsOutside (p : Pattern) : Prop :=
  ∀ u w v, Matches p u w v → beginsInWord (w ++ v) = true → endsInWord u = false

/-- The bytes of the pieces that satisfy `P`, of which the first starts at offset `i`. -/
def spansWhere (P : Text → Bool) : Nat → List Text → List Span
  | _, [] => []
  | i, q :: qs =>
    if P q then ⟨i, i + Text.width q⟩ :: spansWhere P (i + Text.width q) qs
    else spansWhere P (i + Text.width q) qs

theorem spansWhere_cons_of_pos {P : Text → Bool} {q : Text} (h : P q = true) (i : Nat) (qs : List Text) :
    spansWhere P i (q :: qs) = ⟨i, i + Text.width q⟩ :: spansWhere P (i + Text.width q) qs := if_pos h

theorem spansWhere_cons_of_neg {P : Text → Bool} {q : Text} (h : P q = false) (i : Nat) (qs : List Text) :
    spansWhere P i (q :: qs) = spansWhere P (i + Text.width q) qs := if_neg (by simp [h])

theorem length_spansWhere (P : Text → Bool) (i : Nat) (qs : List Text) :
    (spansWhere P i qs).length = qs.countP P := by
  induction qs generalizing i with
  | nil => rfl
  | cons q qs ih =>
    cases h : P q with
    | true => rw [spansWhere_cons_of_pos h, List.length_cons, ih, List.countP_cons_of_pos h]
    | false => rw [spansWhere_cons_of_neg h, ih, List.countP_cons_of_neg (by simp [h])]

theorem spansWhere_append (P : Text → Bool) (i : Nat) (qs qs' : List Text) :
    spansWhere P i (qs ++ qs') = spansWhere P i qs ++ spansWhere P (i + Text.width qs.flatten) qs' := by
  induction qs generalizing i with
  | nil => rfl
  | cons q qs ih =>
    rw [List.cons_append, List.flatten_cons, Text.width_append, ← Nat.add_assoc]
    cases h : P q with
    | true => rw [spansWhere_cons_of_pos h, spansWhere_cons_of_pos h, ih, List.cons_append]
    | false => rw [spansWhere_cons_of_neg h, spansWhere_cons_of_neg h, ih]

theorem spansWhere_eq_nil {P : Text → Bool} {qs : List Text} (h : ∀ q ∈ qs, P q = false) (i : Nat) : spansWhere P i qs = [] := by
  have hcount : qs.countP P = 0 := List.countP_eq_zero.2 fun q hq => by simp [h q hq]
  rw [← List.length_eq_zero_iff, length_spansWhere, hcount]

/-- Pieces that start further to the right. -/
theorem spansWhere_add (P : Text → Bool) (i k : Nat) (qs : List Text) :
    spansWhere P (i + k) qs = (spansWhere P k qs).map fun span => ⟨i + span.start, i + span.stop⟩ := by
  induction qs generalizing k with
  | nil => rfl
  | cons q qs ih =>
    cases h : P q with
    | true => rw [spansWhere_cons_of_pos h, spansWhere_cons_of_pos h, Nat.add_assoc, ih, List.map_cons]
    | false => rw [spansWhere_cons_of_neg h, spansWhere_cons_of_neg h, Nat.add_assoc, ih]

variable {p : Pattern} {u w v y t name : Text}

/-- A word at which nothing matches is passed. -/
theorem matchesFrom_word (hp : BeginsOutside p) (hw : ∀ c ∈ w, Unicode.isWordChar c = true)
    (hnone : p.matchAt? (between u (w ++ y)) = none) : p.matchesFrom u (w ++ y) = p.matchesFrom (u ++ w) y := by
  -- what is left of the word stands behind a part of it
  suffices hpart : ∀ {k r : Text}, (∀ c ∈ r, Unicode.isWordChar c = true) →
      (p.matchAt? (between k (r ++ y)) = none ∨ endsInWord k = true) →
      p.matchesFrom k (r ++ y) = p.matchesFrom (k ++ r) y from hpart hw (.inl hnone)
  intro k r hr hk
  induction r generalizing k with
  | nil => simp
  | cons c r ih =>
    have hnone : p.matchAt? (between k (c :: (r ++ y))) = none := by
      refine hk.elim id fun hend => ?_
      by_contra hne
      obtain ⟨m, hm⟩ := Option.ne_none_iff_exists'.1 hne
      obtain ⟨w', v, hsplit, -, -, htakes⟩ := matchAt?_eq_some hm
      have hbegin : beginsInWord (w' ++ v) = true := by rw [← hsplit]; exact hr c (by simp)
      rw [hp _ _ _ ⟨_, _, htakes⟩ hbegin] at hend
      cases hend
    have hend : endsInWord (k ++ [c]) = true := by
      rw [endsInWord_append (by simp), endsInWord_singleton]
      exact hr c (by simp)
    rw [List.cons_append, matchesFrom_cons_of_none hnone, ih (fun d hd => hr d (by simp [hd])) (.inr hend)]
    simp

/-- A text is read from one match to the next, and past signs and words at which nothing matches. -/
@[elab_as_elim]
theorem pieces_induction (hp : p.Consuming) {motive : Text → Text → Prop} (nil : ∀ u, motive u [])
    (sign : ∀ u c t, p.matchAt? (between u (c :: t)) = none → Unicode.isWordChar c = false → motive (u ++ [c]) t →
      motive u (c :: t))
    (word : ∀ u w y, p.matchAt? (between u (w ++ y)) = none → w ≠ [] → (∀ c ∈ w, Unicode.isWordChar c = true) →
      beginsInWord y = false → motive (u ++ w) y → motive u (w ++ y))
    (found : ∀ u w v m, p.matchAt? (between u (w ++ v)) = some m → m.first = between u (w ++ v) →
      m.last = between (u ++ w) v → motive (u ++ w) v → motive u (w ++ v)) (u t : Text) : motive u t := by
  induction hlength : t.length using Nat.strongRecOn generalizing u t with
  | ind n ih =>
    subst hlength
    cases hm : p.matchAt? (between u t) with
    | some m =>
      obtain ⟨w, v, rfl, hfirst, hlast, htakes⟩ := matchAt?_eq_some hm
      have hpos := List.length_pos_iff.2 (hp _ _ _ ⟨_, _, htakes⟩)
      refine found u w v m hm hfirst hlast (ih _ ?_ _ v rfl)
      rw [List.length_append]
      omega
    | none =>
      cases ht : beginsInWord t with
      | false =>
        cases t with
        | nil => exact nil u
        | cons c t => exact sign u c t hm ht (ih _ (by simp) _ t rfl)
      | true =>
        obtain ⟨w, y, rfl, hne, hw, hy⟩ := exists_first_word ht
        refine word u w y hm hne hw hy (ih _ ?_ _ y rfl)
        have hpos := List.length_pos_iff.2 hne
        rw [List.length_append]
        omega

section
variable {P : Text → Bool} (hp : ∀ u w v, Matches p u w v ↔ P w = true ∧ endsInWord u = false ∧ beginsInWord v = false)
  (hP : ∀ w, P w = true → w ≠ [] ∧ ∀ c ∈ w, Unicode.isWordChar c = true)
include hp hP

/-- A pattern for words that stand alone finds each of them. -/
theorem spans_matchesFrom_of_words (u t : Text) (h : Apart u t) :
    (p.matchesFrom u t).map Match.span = spansWhere P (Text.width u) (pieces t) := by
  have hconsuming : p.Consuming := fun u w v hw => (hP w ((hp u w v).1 hw).1).1
  have houtside : BeginsOutside p := fun u w v hw _ => ((hp u w v).1 hw).2.1
  induction u, t using pieces_induction hconsuming with
  | nil u => rw [matchesFrom_nil hconsuming]; rfl
  | sign u c t hnone hc ih =>
    have hapart : Apart (u ++ [c]) t := .of_ends (by rw [endsInWord_append (by simp), endsInWord_singleton, hc]) t
    have hnot : P [c] = false := by
      by_contra hne
      have := (hP [c] (by simpa using hne)).2 c (by simp)
      rw [hc] at this
      cases this
    rw [matchesFrom_cons_of_none hnone, ih hapart, pieces_cons_of_not_word hc, spansWhere_cons_of_neg hnot,
      Text.width_append]
  | word u w y hnone hne hw hy ih =>
    have hu : endsInWord u = false := by
      refine h.endsInWord_eq_false ?_
      obtain ⟨c, w, rfl⟩ := List.exists_cons_of_ne_nil hne
      exact hw c (by simp)
    have hnot : P w = false := by
      by_contra hword
      obtain ⟨g, g', htakes⟩ := (hp u w y).2 ⟨by simpa using hword, hu, hy⟩
      have := isSome_matchAt?_iff.2 ⟨w, y, g, g', rfl, htakes⟩
      rw [hnone] at this
      cases this
    rw [matchesFrom_word houtside hw hnone, ih (.of_begins hy _), pieces_append (.of_begins hy w), pieces_word hne hw,
      List.singleton_append, spansWhere_cons_of_neg hnot, Text.width_append]
  | found u w v m hm hfirst hlast ih =>
    obtain ⟨w', v', hsplit, hfirst', hlast', htakes⟩ := matchAt?_eq_some hm
    obtain ⟨hw', rfl⟩ := between_inj.1 (hlast.symm.trans hlast')
    obtain rfl := List.append_cancel_left hw'
    obtain ⟨hword, -, hv⟩ := (hp _ _ _).1 ⟨_, _, htakes⟩
    obtain ⟨hne, hw⟩ := hP w hword
    have hspan : m.span = ⟨Text.width u, Text.width u + Text.width w⟩ := by
      rw [Match.span, Match.start, Match.stop, hfirst, hlast, offset_between, offset_between, Text.width_append]
    rw [matchesFrom_of_some hconsuming hm hlast, List.map_cons, ih (.of_begins hv _), pieces_append (.of_begins hv w),
      pieces_word hne hw, List.singleton_append, spansWhere_cons_of_pos hword, hspan, Text.width_append]

theorem spans_findAll_of_words (t : Text) : (p.findAll t).map Match.span = spansWhere P 0 (pieces t) :=
  spans_matchesFrom_of_words hp hP [] t (apart_nil_left t)

theorem length_findAll_of_words (t : Text) : (p.findAll t).length = (pieces t).countP P := by
  rw [← List.length_map Match.span, spans_findAll_of_words hp hP, length_spansWhere]

end

/-- The matches of a word are the pieces of the text that spell it. -/
theorem spans_findAll_keyword (hname : isName name = true) (t : Text) :
    ((keyword name).findAll t).map Match.span = spansWhere (decide <| Spelled name ·) 0 (pieces t) :=
  spans_findAll_of_words (fun u w v => by rw [matches_keyword hname, decide_eq_true_eq])
    (fun w hw => by
      have hspelled := of_decide_eq_true hw
      exact ⟨hspelled.ne_nil hname, hspelled.isWordChar hname⟩) t

/-- A word has as many matches as the text has pieces that spell it. -/
theorem length_findAll_keyword (hname : isName name = true) (t : Text) :
    ((keyword name).findAll t).length = (pieces t).countP (decide <| Spelled name ·) := by
  rw [← List.length_map Match.span, spans_findAll_keyword hname, length_spansWhere]

end DialectBridge
