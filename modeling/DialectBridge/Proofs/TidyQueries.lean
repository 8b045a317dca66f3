import DialectBridge.Checklist
import DialectBridge.Proofs.Expressions
import DialectBridge.Proofs.FetchPasses
/-!
# Queries that pass the checks

A query is tidy if none of the names that the rules replace is left in its code, nor bars, if its
parentheses are closed and a `SELECT` is there. A tidy query passes all checks, whatever warnings came
with it (`Tidy.passed`).
-/
namespace DialectBridge.ToTsql
open Pattern LexState

/-- The names that do not stay in a query; `CAST` is a name of T-SQL, too. -/
def oracleNames : List String := reservedNames.erase "CAST"

theorem oracleNames_subset : oracleNames ⊆ reservedNames := List.erase_subset

/-- Nothing of Oracle is left in the query. -/
structure Tidy (sql : Text) : Prop where
  spares : Spares oracleNames (mask sql)
  unbarred : '|' ∉ mask sql
  unescaped : '&' ∉ sql
  nested : nest 0 (mask sql) = some 0
  selects : ∃ p ∈ pieces (mask sql), Spelled "SELECT".toList p

/-! ## The checks -/

section
variable {sql : Text}

theorem mem_maskComments {c : Char} (h : c ∈ maskComments sql) : c ∈ sql ∨ c = ' ' := by
  rw [maskComments, mapSegments, List.mem_flatMap] at h
  obtain ⟨s, hs, hc⟩ := h
  split at hc
  · exact .inr (List.eq_of_mem_replicate hc)
  · refine .inl ?_
    rw [← segments_flatten sql]
    exact List.mem_flatMap.2 ⟨s, hs, hc⟩

theorem has_eq_false_of_not_mem {e t : Text} {c : Char} (hc : c ∈ e) (h : c ∉ t) : Text.has e t = false := by
  rw [Bool.eq_false_iff, ne_eq, Text.has_eq_true_iff]
  exact fun hpart => h (hpart.subset hc)

theorem Tidy.html_passed (h : Tidy sql) :
    Checklist.checkHtmlEntities (maskComments sql) = .pass "html_entities" "No HTML entities remain" := by
  have hamp : '&' ∉ maskComments sql := fun hmem => (mem_maskComments hmem).elim h.unescaped (by decide)
  have hnone : Checklist.htmlEntities.filter (fun e => Text.has e.toList (maskComments sql)) = [] :=
    List.filter_eq_nil_iff.2 fun e he => by
      have he : '&' ∈ e.toList := (by decide : ∀ e ∈ Checklist.htmlEntities, '&' ∈ e.toList) e he
      rw [has_eq_false_of_not_mem he hamp]
      decide
  rw [Checklist.checkHtmlEntities, hnone]
  rfl

theorem Tidy.functions_passed (h : Tidy sql) :
    Checklist.checkOracleFunctions (mask sql) = .pass "oracle_functions" "All Oracle functions converted" := by
  have hcalls : Checklist.oracleCall.findAll (mask sql) = [] :=
    (Checklist.avoids_oracleCall (h.spares.mono (by decide))).findAll
  have hwords : Checklist.oracleKeyword.findAll (mask sql) = [] :=
    (Checklist.avoids_oracleKeyword (h.spares.mono (by decide))).findAll
  have hbars : Text.has "||".toList (mask sql) = false := has_eq_false_of_not_mem (c := '|') (by decide) h.unbarred
  have hnone : Checklist.oracleRemains (mask sql) = [] := by
    unfold Checklist.oracleRemains
    rw [hcalls, hwords, hbars]
    simp
  rw [Checklist.checkOracleFunctions, hnone]
  rfl

theorem Tidy.aggregates_passed (h : Tidy sql) (placeholder : Text) :
    Checklist.checkStringAggDistinct sql (mask sql) placeholder =
      .pass "string_agg_distinct" "No STRING_AGG in query (N/A)" := by
  have hnone : Checklist.stringAggCall.occursIn (mask sql) = false :=
    (Checklist.avoids_stringAggCall (h.spares.mono (by decide))).occursIn
  simp [Checklist.checkStringAggDistinct, hnone]

theorem Tidy.regexp_passed (h : Tidy sql) (raised : List Category) :
    Checklist.checkRegexp sql (mask sql) raised = .pass "regexp_like" "No REGEXP functions in query (N/A)" := by
  have hnone : Checklist.regexpCall.occursIn (mask sql) = false :=
    (Checklist.avoids_regexpCall (h.spares.mono (by decide))).occursIn
  simp [Checklist.checkRegexp, hnone]

theorem Tidy.syntax_passed (h : Tidy sql) :
    Checklist.checkSyntax (maskComments sql) (mask sql) = .pass "syntax" "Basic syntax checks passed" := by
  have hamp : '&' ∉ maskComments sql := fun hmem => (mem_maskComments hmem).elim h.unescaped (by decide)
  have hgt : Text.has "&gt;".toList (maskComments sql) = false := has_eq_false_of_not_mem (c := '&') (by decide) hamp
  have hlt : Text.has "&lt;".toList (maskComments sql) = false := has_eq_false_of_not_mem (c := '&') (by decide) hamp
  have hcount : (mask sql).count '(' = (mask sql).count ')' := by
    have hdepth := (nest_eq_some h.nested).1
    simp only [depth] at hdepth
    omega
  have hselect : (keyword "SELECT".toList).occursIn (mask sql) = true :=
    (occursIn_keyword_iff (by decide)).2 h.selects
  have hnone : Checklist.syntaxIssues (maskComments sql) (mask sql) = [] := by
    unfold Checklist.syntaxIssues
    rw [hgt, hlt, hselect]
    simp only [hcount, ne_eq, not_true_eq_false, Bool.or_self, Bool.false_eq_true, if_false, if_true,
      List.append_nil]
  rw [Checklist.checkSyntax, hnone]
  rfl

/-- A tidy query passes every check. -/
theorem Tidy.passed (h : Tidy sql) (raised : List Category) (placeholder : Text) :
    (∀ o ∈ (Checklist.run sql raised placeholder).outcomes, o.passed = true) ∧
      (Checklist.run sql raised placeholder).ready = true := by
  rw [Checklist.run, h.html_passed, h.functions_passed, h.aggregates_passed, h.regexp_passed, h.syntax_passed]
  exact ⟨by simp [Checklist.Outcome.pass], by simp [Checklist.Report.ready, Checklist.Report.failures, Checklist.Outcome.pass]⟩

/-! ## Lists and `TOP` -/

/-- A list of converted terms is tidy. -/
theorem tidy_selectText {ts : List Term} {gone : List String} {rest : Text}
    (hmissing : ∀ n ∈ oracleNames, Missing gone n) (hts : ∀ t ∈ ts, IsTerm false gone t) (hrest : IsRest rest)
    (hspares : Spares oracleNames rest) (hbar : '|' ∉ rest) (hamp : '&' ∉ rest) (hnest : nest 0 rest = some 0) :
    Tidy (selectText (ts.map Term.text) rest) := by
  have hlive := live_of_isTerm hts
  have hmask := mask_selectText hrest hlive
  refine ⟨spares_selectText oracleNames_subset hmissing hrest hspares hts, ?_, unescaped_selectText hts hamp, ?_,
    exists_select hrest hlive⟩
  · rw [hmask]
    intro hc
    rcases mem_selectText hc with ⟨u, hu, hc⟩ | hc | hc
    · simp only [List.map_map, List.mem_map, Function.comp_apply] at hu
      obtain ⟨t, ht, rfl⟩ := hu
      exact (hts t ht).unbarred (fun g hg => hg.resolve_right (by simp)) hc
    · exact hbar hc
    · exact absurd hc (by decide)
  · exact nest_selectText hrest (by simpa using fun t ht => (hts t ht).operand) hnest

theorem mem_topText {c : Char} {n : Nat} (hc : c ∈ topText n) : c.isDigit = true ∨ c ∈ " TOP ".toList := by
  rw [topText, List.mem_append] at hc
  exact hc.elim .inr fun hc => .inl (Text.isDigit_of_mem_ofNat hc)

theorem not_mem_topText {c : Char} (hc : c.isDigit = false) (hc' : c ∉ " TOP ".toList) (n : Nat) : c ∉ topText n :=
  fun hmem => (mem_topText hmem).elim (by simp [hc]) hc'

theorem spares_topText (n : Nat) : ∀ p ∈ [[' '], "TOP".toList, [' '], Text.ofNat n], ∀ name ∈ oracleNames,
    ¬ Spelled name.toList p := by
  intro p hp name hmem
  have hname := oracleNames_subset hmem
  simp only [List.mem_cons, List.not_mem_nil, or_false] at hp
  rcases hp with rfl | rfl | rfl | rfl
  · exact not_spelled_singleton (isName_reservedNames name hname) (by decide)
  · exact (by decide : ∀ name ∈ reservedNames, ¬ Spelled name.toList "TOP".toList) name hname
  · exact not_spelled_singleton (isName_reservedNames name hname) (by decide)
  · exact not_spelled_plainName (beginsInLetters_reservedNames name hname)
      ⟨_, fun c hc => Text.isDigit_of_mem_ofNat hc, .inl rfl⟩

/-- A `TOP` behind a heading keeps the query tidy. -/
theorem Tidy.insert_top {x s y : Text} (h : Tidy (x ++ (s ++ y))) (hs : IsHeadWord s)
    (hx : endsInWord x = false) (hy : beginsInWord y = false) (hlive : (code.after x).live = true) (n : Nat) :
    Tidy (x ++ s ++ (topText n ++ y)) := by
  obtain ⟨t, hname, hspelled⟩ := hs.exists_name
  have hne := hspelled.ne_nil hname
  have hplain : ∀ c ∈ s ++ topText n, isPlain c = true := List.forall_mem_append.2 ⟨hs.isPlain, isPlain_topText n⟩
  have hold : mask (x ++ (s ++ y)) = mask x ++ (s ++ mask y) := mask_plain_between hlive hs.isPlain hne
  have hnew : mask (x ++ s ++ (topText n ++ y)) = mask x ++ (s ++ (topText n ++ mask y)) := by
    have := mask_plain_between (b := y) hlive hplain (by simp [hne])
    simpa using this
  have hleft : endsInWord (mask x) = false := by rwa [endsInWord_mask hlive]
  have hright : beginsInWord (mask y) = false := by rwa [beginsInWord_mask]
  have hbegin : beginsInWord (topText n ++ mask y) = false := rfl
  have hpieces : pieces (mask (x ++ (s ++ y))) = pieces (mask x) ++ s :: pieces (mask y) := by
    rw [hold, pieces_append (.of_ends hleft _), pieces_append (.of_begins hright s),
      pieces_word hne (hspelled.isWordChar hname)]
    rfl
  have hpieces' : pieces (mask (x ++ s ++ (topText n ++ y))) = pieces (mask x) ++
      s :: ([[' '], "TOP".toList, [' '], Text.ofNat n] ++ pieces (mask y)) := by
    rw [hnew, pieces_append (.of_ends hleft _), pieces_append (.of_begins hbegin s),
      pieces_word hne (hspelled.isWordChar hname), pieces_topText_append n hright]
    rfl
  obtain ⟨hspares, hbar, hamp, hnest, p, hp, hselect⟩ := h
  rw [hold] at hbar hnest
  rw [Spares, hpieces] at hspares
  rw [hpieces] at hp
  have htop : ∀ d, nest d (topText n) = some d :=
    nest_of_not_mem (not_mem_topText (by decide) (by decide) n) (not_mem_topText (by decide) (by decide) n)
  refine ⟨?_, ?_, ?_, ?_, p, ?_, hselect⟩
  · intro q hq name hmem
    rw [hpieces', List.mem_append, List.mem_cons, List.mem_append] at hq
    rcases hq with hq | rfl | hq | hq
    · exact hspares q (by simp [hq]) name hmem
    · exact hspares q (by simp) name hmem
    · exact spares_topText n q hq name hmem
    · exact hspares q (by simp [hq]) name hmem
  · have := not_mem_topText (c := '|') (by decide) (by decide) n
    simp only [List.mem_append] at hbar
    simp only [hnew, List.mem_append]
    tauto
  · have := not_mem_topText (c := '&') (by decide) (by decide) n
    simp only [List.mem_append] at hamp ⊢
    tauto
  · rw [nest_append] at hnest
    rw [hnew, nest_append, ← hnest]
    refine congrArg _ (funext fun d => ?_)
    rw [nest_append, nest_append]
    refine congrArg _ (funext fun k => ?_)
    exact nest_append_of_neutral htop k _
  · rw [hpieces', List.mem_append, List.mem_cons, List.mem_append]
    rw [List.mem_append, List.mem_cons] at hp
    tauto

end

end DialectBridge.ToTsql
