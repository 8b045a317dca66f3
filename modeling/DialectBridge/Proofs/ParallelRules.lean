import DialectBridge.Proofs.CallRules
import DialectBridge.Proofs.ParallelRuns
/-!
# Rules for calls, run side by side

What a rule puts in the place of a call is stitched together from the arguments, so queries that are alike
stay alike. The rules that look at what an argument says or at what stands behind a call look at plain text.
-/
namespace DialectBridge
open Pattern LexState

section
variable {σ : Type} {a b t t' : Text}

theorem parallel_none :
    Parallel (Option.Rel (Stitched false)) (pure none : Editing σ (Option Text)) (pure none) :=
  parallel_pure .none

theorem parallel_some (h : Stitched false t t') :
    Parallel (Option.Rel (Stitched false)) (pure (some t) : Editing σ (Option Text)) (pure (some t')) :=
  parallel_pure (.some h)

theorem parallel_renameCalls {old new : Text} (hold : isName old = true) (hnew : Seam (new ++ "(".toList))
    (h : Paired a b) : Parallel Paired (renameCalls a old new : Editing σ Text) (renameCalls b old new) := by
  refine parallel_replaceCalls hold (fun c c' hc => parallel_some ?_) h
  exact .around (.seam hnew) hc.inner (by decide)

end

namespace ToTsql
variable {a b : Text}

theorem parallel_nvl (h : Paired a b) : Parallel Paired (nvl a) (nvl b) :=
  parallel_renameCalls (by decide) (by decide) h

theorem parallel_nvl2 (h : Paired a b) : Parallel Paired (nvl2 a) (nvl2 b) := by
  refine parallel_replaceCalls (by decide) (fun ⟨_, _, _, args, _⟩ ⟨_, _, _, args', _⟩ hc => ?_) h
  rcases hc.args with _ | ⟨hvalue, _ | ⟨hset, _ | ⟨hnull, _ | _⟩⟩⟩
  · exact parallel_none
  · exact parallel_none
  · exact parallel_none
  · refine parallel_some (.around (.around (.around (.seam ?_) hvalue ?_) hset ?_) hnull ?_)
    all_goals decide
  · exact parallel_none

/-- A text that says `NULL` is plain. -/
theorem isPlain_of_sameLetters {search : Text} (h : Text.sameLetters search "NULL" = true) :
    ∀ c ∈ search, isPlain c = true := by
  intro c hc
  have hlower : Text.lower search = "null".toList := beq_iff_eq.1 h
  have hmem : c.toLower ∈ "null".toList := by
    rw [← hlower]
    exact List.mem_map_of_mem hc
  by_contra hplain
  have hmarks : c = '\'' ∨ c = '"' ∨ c = '-' ∨ c = '/' ∨ c = '*' := by
    by_contra hmark
    simp only [not_or] at hmark
    exact hplain (by simp [isPlain, hmark])
  rcases hmarks with rfl | rfl | rfl | rfl | rfl <;> exact absurd hmem (by decide)

/-- A literal is no search for `NULL`, whatever it says. -/
theorem sameLetters_eq {search search' : Text} (h : Twin search search') :
    Text.sameLetters search "NULL" = Text.sameLetters search' "NULL" := by
  rw [Bool.eq_iff_iff]
  refine ⟨fun hnull => ?_, fun hnull => ?_⟩
  · rwa [h.alike.eq_of_isPlain (isPlain_of_sameLetters hnull)]
  · rwa [h.alike.symm.eq_of_isPlain (isPlain_of_sameLetters hnull)]

theorem stitched_decodeBranches {expr expr' : Text} {l l' : List Text} {e : Bool} {t t' : Text}
    (hexpr : Twin expr expr') (hl : List.Forall₂ Twin l l') (h : Stitched e t t') :
    ∃ e', Stitched e' (t ++ decodeBranches expr l) (t' ++ decodeBranches expr' l') := by
  match l, l', hl with
  | [], [], .nil =>
    rw [decodeBranches_nil, decodeBranches_nil, List.append_nil, List.append_nil]
    exact ⟨e, h⟩
  | [otherwise], [otherwise'], .cons hotherwise .nil =>
    rw [decodeBranches_else, decodeBranches_else, ← List.append_assoc, ← List.append_assoc]
    exact ⟨true, .part (.sewn h (by decide)) hotherwise⟩
  | search :: result :: more, search' :: result' :: more', .cons hsearch (.cons hresult hmore) =>
    have hwhen : Stitched true (t ++ " WHEN ".toList ++ expr) (t' ++ " WHEN ".toList ++ expr') :=
      .part (.sewn h (by decide)) hexpr
    have htest : ∃ e, Stitched e
        (t ++ " WHEN ".toList ++ expr ++
          (if Text.sameLetters search "NULL" then " IS NULL".toList else " = " ++ search))
        (t' ++ " WHEN ".toList ++ expr' ++
          (if Text.sameLetters search' "NULL" then " IS NULL".toList else " = " ++ search')) := by
      rw [sameLetters_eq hsearch]
      split_ifs
      · exact ⟨false, .sewn hwhen (by decide)⟩
      · rw [← List.append_assoc, ← List.append_assoc]
        exact ⟨true, .part (.sewn hwhen (by decide)) hsearch⟩
    obtain ⟨_, htest⟩ := htest
    have hthen := Stitched.sewn htest (show Seam " THEN ".toList by decide)
    obtain ⟨e', hall⟩ := stitched_decodeBranches hexpr hmore (.part hthen hresult)
    rw [decodeBranches_branch, decodeBranches_branch]
    exact ⟨e', by simpa only [List.append_assoc] using hall⟩

theorem parallel_decode (h : Paired a b) : Parallel Paired (decode a) (decode b) := by
  refine parallel_replaceCalls (by decide) (fun ⟨_, _, _, args, _⟩ ⟨_, _, _, args', _⟩ hc => ?_) h
  rcases hc.args with _ | ⟨hexpr, _ | ⟨hsearch, _ | ⟨hresult, hmore⟩⟩⟩
  · exact parallel_none
  · exact parallel_none
  · exact parallel_none
  · obtain ⟨e, hbranches⟩ := stitched_decodeBranches hexpr (.cons hsearch (.cons hresult hmore))
      (.seam (show Seam "CASE".toList by decide))
    exact parallel_some (.sewn hbranches (by decide))

theorem parallel_dateFunctions (h : Paired a b) : Parallel Paired (dateFunctions a) (dateFunctions b) := by
  refine (parallel_replaceCalls (by decide) (fun ⟨_, _, _, args, _⟩ ⟨_, _, _, args', _⟩ hc => ?_) h).bind
    fun a b h => ?_
  · rcases hc.args with _ | ⟨hdate, _ | ⟨hmonths, _ | _⟩⟩
    · exact parallel_none
    · exact parallel_none
    · exact parallel_some (.around (.around (.seam (by decide)) hmonths (by decide)) hdate (by decide))
    · exact parallel_none
  refine (parallel_replaceCalls (by decide) (fun ⟨_, _, _, args, _⟩ ⟨_, _, _, args', _⟩ hc => ?_) h).bind
    fun a b h => ?_
  · rcases hc.args with _ | ⟨hlater, _ | ⟨hearlier, _ | _⟩⟩
    · exact parallel_none
    · exact parallel_none
    · exact (parallel_some
        (.around (.around (.seam (by decide)) hearlier (by decide)) hlater (by decide))).after_modify
    · exact parallel_none
  exact parallel_renameCalls (by decide) (by decide) h

theorem parallel_stringFunctions (h : Paired a b) : Parallel Paired (stringFunctions a) (stringFunctions b) := by
  refine (parallel_replaceCalls (by decide) (fun ⟨_, _, _, args, _⟩ ⟨_, _, _, args', _⟩ hc => ?_) h).bind
    fun a b h => ?_
  · rcases hc.args with _ | ⟨htext, _ | ⟨hstart, _ | ⟨-, _ | _⟩⟩⟩
    · exact parallel_none
    · exact parallel_none
    · refine parallel_some (.around (.around (.around (.seam ?_) htext ?_) hstart ?_) htext ?_)
      all_goals decide
    · exact parallel_some (.around (.seam (by decide)) hc.inner (by decide))
    · exact parallel_none
  refine (parallel_replaceCalls (by decide) (fun ⟨_, _, _, args, _⟩ ⟨_, _, _, args', _⟩ hc => ?_) h).bind
    fun a b h => ?_
  · rcases hc.args with _ | ⟨htext, _ | ⟨hneedle, _ | ⟨hstart, _ | _⟩⟩⟩
    · exact parallel_none
    · exact parallel_none
    · exact parallel_some (.around (.around (.seam (by decide)) hneedle (by decide)) htext (by decide))
    · refine parallel_some (.around (.around (.around (.seam ?_) hneedle ?_) htext ?_) hstart ?_)
      all_goals decide
    · exact parallel_none.after_modify
  refine (parallel_renameCalls (by decide) (by decide) h).bind fun a b h => ?_
  exact parallel_renameCalls (by decide) (by decide) h

/-! ## Aggregates -/

/-- The word `OVER` is plain, and where it ends the mask shows. -/
theorem occursIn_overAhead_of_alike {t t' : Text} (h : Alike t t') (ht : overAhead.occursIn t = true) :
    overAhead.occursIn t' = true := by
  obtain ⟨m, hm⟩ := Option.isSome_iff_exists.1 ht
  obtain ⟨u, x, rfl, hat⟩ := exists_of_find? hm
  obtain ⟨w, v, rfl, -, -, hw⟩ := matchAt?_eq_some hat
  have hmatch : Matches overAhead u w v := ⟨_, _, hw⟩
  obtain ⟨w, e, rfl, hmatch, he⟩ := matches_seq.1 hmatch
  obtain ⟨w, n, rfl, hmatch, hn⟩ := matches_seq.1 hmatch
  obtain ⟨s, c, rfl, hs, hblanks⟩ := matches_seq.1 hmatch
  obtain ⟨rfl, rfl⟩ := matches_textStart.1 hs
  obtain ⟨rfl, hedge⟩ := matches_edge.1 he
  have hspelled := matches_word.1 hn
  have hblank : ∀ d ∈ c, Unicode.isBlank d = true := matches_many_one.1 hblanks
  have hplain : ∀ d ∈ c ++ n, isPlain d = true := fun d hd => (List.mem_append.1 hd).elim
    (fun hd => isPlain_of_isBlank (hblank d hd)) fun hd => isPlain_of_isWordChar (hspelled.isWordChar (by decide) d hd)
  simp only [List.nil_append, List.append_nil] at h hedge
  obtain ⟨v', rfl, hv⟩ := h.drop_plain hplain
  have hstart : Matches (textStart ++ blanks) [] c (n ++ v') :=
    matches_seq.2 ⟨[], c, rfl, matches_textStart.2 ⟨rfl, rfl⟩, matches_many_one.2 hblank⟩
  have hover : Matches (textStart ++ blanks ++ word "OVER".toList) [] (c ++ n) v' :=
    matches_seq.2 ⟨c, n, rfl, hstart, matches_word.2 hspelled⟩
  have hmatch' : Matches overAhead [] (c ++ n) v' :=
    matches_seq.2 ⟨c ++ n, [], by simp, hover, matches_edge.2 ⟨rfl, by rwa [← hv.beginsInWord_eq]⟩⟩
  exact occursIn_of_matches hmatch'

theorem occursIn_overAhead_eq {t t' : Text} (h : Alike t t') : overAhead.occursIn t = overAhead.occursIn t' :=
  Bool.eq_iff_iff.2 ⟨occursIn_overAhead_of_alike h, occursIn_overAhead_of_alike h.symm⟩

theorem parallel_aggregates (h : Paired a b) : Parallel Paired (aggregates a) (aggregates b) := by
  refine (parallel_foldlM (fun names hnames a b h => ?_) h).bind fun a b h => ?_
  · have hall : ∀ names ∈ aggregateNames, isName names.1.toList = true ∧ Seam (names.2.toList ++ "(".toList) := by
      decide
    obtain ⟨hold, hnew⟩ := hall names hnames
    exact parallel_renameCalls hold hnew h
  refine parallel_replaceCalls (by decide) (fun ⟨_, _, _, args, tail⟩ ⟨_, _, _, args', tail'⟩ hc => ?_) h
  have hover : overAhead.occursIn tail = overAhead.occursIn tail' := occursIn_overAhead_eq hc.tail.alike
  rcases hc.args with _ | ⟨hvalue, _ | _⟩
  · exact parallel_none
  · refine (parallel_some ?_).after_modify
    have hsorted := Stitched.around (.seam (show Seam "PERCENTILE_CONT(0.5) WITHIN GROUP (ORDER BY ".toList by decide))
      hvalue (show Seam ")".toList by decide)
    rw [hover]
    split_ifs
    · simpa using hsorted
    · exact .sewn hsorted (by decide)
  · exact parallel_none

end ToTsql

end DialectBridge
