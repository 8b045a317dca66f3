import DialectBridge.Proofs.Passes
import DialectBridge.Proofs.TopLimit
/-!
# Each step takes a `TOP` out

A step takes a `TOP` out of the code of a query, and the condition that it puts in holds none. The
comments in front of a clause are put in twice (`addBeforeClause?`), so a `TOP` in a comment can
become two: only those in code get fewer (`shrinks_topStep`).
-/
namespace DialectBridge.ToOracle
open Pattern LexState

def filterTokens (n : Text) : List Text :=
  limitTokens n ++ ["AND".toList, "WHERE".toList, ['('], [')'], [';']]

section
variable {n q c c' : Text} {place : FilterPlace} {P : Text → Bool}
  (hP : ∀ p ∈ filterTokens n, P p = false)
include hP

theorem countP_limitTokens : (limitTokens n).countP P = 0 :=
  List.countP_eq_zero.2 fun p hp => by simp [hP p (List.mem_append_left _ hp)]

theorem countP_cons_sign {p : Text}
    (hp : p ∈ ["AND".toList, "WHERE".toList, ['('], [')'], [';']]) (l : List Text) :
    (p :: l).countP P = l.countP P :=
  List.countP_cons_of_neg (by simp [hP p (List.mem_append_right _ hp)])

/-- The tokens that are not of the condition itself get no more. -/
theorem FilterAdded.countP_le (hn : IsNumeral n) (h : FilterAdded n q c place c') :
    (tokens (mask c')).countP P ≤ (tokens (mask c)).countP P := by
  have hlimit := countP_limitTokens hP
  have hand := countP_cons_sign hP (p := "AND".toList) (by simp)
  have hwhere := countP_cons_sign hP (p := "WHERE".toList) (by simp)
  have hopen := countP_cons_sign hP (p := ['(']) (by simp)
  have hclose := countP_cons_sign hP (p := [')']) (by simp)
  cases h with
  | @conditions p kept tail r ors h hkept htail hors =>
    split_ifs
    · obtain ⟨hold, hnew⟩ := tokens_mask_and hn h.behind h.right
      rw [hold, hnew]
      simp only [List.countP_append, List.countP_nil, hlimit, hand]
      omega
    rw [List.append_assoc]
    cases hlive : (code.after kept).live with
    | true =>
      obtain ⟨hold, hnew⟩ := tokens_mask_enclosed hn h.behind hlive h.right_kept
        (h.isPlain_rest htail) (h.apart_kept htail)
      rw [hold, hnew]
      simp only [List.countP_append, List.countP_nil, hlimit, hand, hopen, hclose]
      omega
    | false =>
      obtain ⟨ts, e, -, hold, hnew⟩ := tokens_mask_unclosed hn h.behind hlive h.right_kept
        (h.isPlain_rest htail) (h.beginsInWord_rest htail hlive)
      rw [hold, hnew]
      simp only [List.countP_append, List.countP_nil, hlimit, hand, hopen]
      omega
  | @clause p s s' r h hs hs' hne hlive =>
    obtain ⟨hold, hnew⟩ := tokens_mask_before hn h.live h.left hs hs' hne
      (joins_of_head?_isPlain hlive h.isPlain_head) h.isPlain_head
    rw [hold, hnew]
    simp only [List.countP_append, hlimit, hwhere]
    omega
  | @atEnd content tail d h hcontent htail =>
    rw [List.append_assoc]
    cases hlive : ((code.after content).after (separator content)).live with
    | true =>
      have hpass := (live_after_separator.1 hlive).imp id And.left
      obtain ⟨⟨e, -, hold⟩, hnew⟩ := tokens_mask_atEnd hn hpass (joins_separator hlive)
        (fun c hc => isBlank_of_mem_separator hc) (separator_ne_nil content) htail h.stop
        h.live_of_ne_nil
      have htail' : (tokens tail).countP P = 0 := by
        refine List.countP_eq_zero.2 fun p hp => ?_
        rw [eq_semicolon_of_mem_tokens htail hp, hP [';'] (List.mem_append_right _ (by simp))]
        exact Bool.false_ne_true
      rw [hold, hnew]
      simp only [List.countP_append, hlimit, hwhere, htail']
      omega
    | false =>
      have hdead : (code.after content).live = false := by
        by_contra hlive'
        rw [live_after_separator.2 (.inl (by simpa using hlive'))] at hlive
        exact absurd hlive (by decide)
      obtain ⟨e, -, hold⟩ := tokens_mask_atEnd_of_not_live hn hdead
        (fun c hc => isDull_of_mem_separator hlive hc) htail h.stop
      rw [hold, List.countP_append]
      omega

end

/-- No token of a condition is a `TOP`. -/
theorem isTopWord_of_mem_filterTokens {n p : Text} (hn : IsNumeral n) (hp : p ∈ filterTokens n) :
    isTopWord p = false := by
  have hsigns : ["ROWNUM".toList, ['<'], ['='], "AND".toList, "WHERE".toList, ['('], [')'],
      [';']].all (!isTopWord ·) = true := by decide
  by_cases h : p = n
  · obtain ⟨e, p', rfl⟩ := List.exists_cons_of_ne_nil hn.1
    have hkey : (Unicode.caseVariants 'T').all (!Unicode.isDigit ·) = true := by decide
    subst h
    refine isTopWord_cons_eq_false (fun he => ?_) p'
    have := List.all_eq_true.1 hkey e he
    rw [hn.head rfl] at this
    exact absurd this (by decide)
  · have hmem : p ∈ ["ROWNUM".toList, ['<'], ['='], "AND".toList, "WHERE".toList, ['('], [')'],
        [';']] := by
      simp only [filterTokens, limitTokens, List.mem_append, List.mem_cons] at hp ⊢
      tauto
    simpa using List.all_eq_true.1 hsigns p hmem

/-- A step takes a `TOP` out of the code. -/
theorem shrinks_topStep : Shrinks topStep topWords := by
  intro sql
  cases hnext : nextTop? sql with
  | none => exact ⟨none, topStep_of_none hnext ▸ gives_pure none, by simp⟩
  | some m =>
    obtain ⟨n, q, c, hnumber, hdropped⟩ := exists_topDropped (mem_of_nextTop? hnext)
    obtain ⟨place, c', -, hadd, hadded⟩ := exists_filterAdded n hdropped.behind hdropped.blank c
    refine ⟨some (q ++ c'), exists_run_topStep hnext hnumber hdropped hadd, ?_⟩
    rintro _ ⟨⟩
    have hjoins : ∀ t, (code.after q).joins t = true := fun t => by
      rw [hdropped.behind]
      exact joins_code t
    have hend : endsInWord (mask q) = false := by
      obtain ⟨q', rfl, -, hcode⟩ := hdropped.blank
      rw [endsInWord_mask (by rw [after_append, hcode]; rfl), endsInWord_append (by simp)]
      rfl
    calc topWords (q ++ c')
        = (tokens (mask q)).countP isTopWord + (tokens (mask c')).countP isTopWord := by
          rw [topWords, tokens_mask_append (hjoins c') (.of_ends hend _), List.countP_append]
      _ ≤ (tokens (mask q)).countP isTopWord + (tokens (mask c)).countP isTopWord :=
          Nat.add_le_add_left (hadded.countP_le
            (fun p hp => isTopWord_of_mem_filterTokens hdropped.number hp) hdropped.number) _
      _ = topWords (q ++ c) := by
          rw [topWords, tokens_mask_append (hjoins c) (.of_ends hend _), List.countP_append]
      _ < topWords sql := hdropped.fewer

end DialectBridge.ToOracle
