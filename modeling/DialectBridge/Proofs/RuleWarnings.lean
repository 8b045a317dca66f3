import DialectBridge.CommandLine.Run
import DialectBridge.Proofs.Logs
import DialectBridge.Proofs.Totality
/-!
# The warnings of a conversion

The list of hidden categories is read after a query is converted, so it changes neither the query nor
the warnings that are raised (`exists_convert_suppressing`). Of the checks one reads the warnings that are
shown, and of these only whether `REGEXP_LIKE` is among them (`run_eq_run_iff`). The report on a
conversion can tell two lists apart exactly there (`reportOn_suppressing_eq_iff`).

Each rule raises warnings of some categories and is silent in all others; `raisable` collects the categories of
a direction (`silent_of_mem_rules`). No rule raises the warning on a text that is not a query: a conversion raises
it just where it objects to the text, and then raises nothing else (`invalidInput_raised_iff`,
`mem_raisable_of_raised`).
-/
namespace DialectBridge
open CommandLine Pattern

/-! ## What the checklist reads of the warnings -/

namespace Checklist

/-- The check of regular expression functions, by what it reads of the warnings. -/
theorem checkRegexp_eq_iff {converted masked : Text} {raised raised' : List Category} :
    checkRegexp converted masked raised = checkRegexp converted masked raised' ↔
      (regexpCall.occursIn masked = true → (.regexpLike ∈ raised ↔ .regexpLike ∈ raised')) := by
  by_cases hcall : regexpCall.occursIn masked = true
  · -- the outcome without the warning is unlike both outcomes with it
    have hne : ∀ marked : Bool, (if marked then
        Outcome.pass "regexp_like" "REGEXP functions carry the version warning"
        else .fail "regexp_like" .warning
          "REGEXP functions found but the version comment is missing" none) ≠
        .fail "regexp_like" .warning "REGEXP functions found but missing version warning" none := by
      decide
    obtain ⟨x, y, hxy, hread⟩ : ∃ x y, x ≠ y ∧ ∀ raised,
        checkRegexp converted masked raised = if .regexpLike ∈ raised then x else y := by
      refine ⟨_, _, hne (Text.has ToTsql.regexpMarker converted), fun raised => ?_⟩
      by_cases h : .regexpLike ∈ raised <;>
        simp only [checkRegexp, hcall, List.contains_iff_mem.2, List.contains_eq_mem, h,
          decide_false, Bool.not_true, Bool.not_false, Bool.false_eq_true, if_true, if_false]
    rw [hread, hread]
    by_cases h : .regexpLike ∈ raised <;> by_cases h' : .regexpLike ∈ raised' <;>
      simp [hcall, h, h', hxy, hxy.symm]
  · simp [checkRegexp, hcall]

/-- Two lists of warnings give the same report unless a regular expression function is called and
one of them lacks its warning. -/
theorem run_eq_run_iff {converted placeholder : Text} {raised raised' : List Category} :
    run converted raised placeholder = run converted raised' placeholder ↔
      (regexpCall.occursIn (mask converted) = true →
        (.regexpLike ∈ raised ↔ .regexpLike ∈ raised')) := by
  simp [run, checkRegexp_eq_iff]

end Checklist

/-! ## What hiding changes of a conversion -/

namespace Converter

/-- The converter with another list of hidden categories. -/
def suppressing (c : Converter) (hidden : List Category) : Converter := { c with suppressed := hidden }

/-- Hidden categories only choose among the warnings of a conversion. -/
theorem exists_convert_suppressing (c : Converter) (d : Direction) (query : Text) :
    ∃ raised : List Warning, ∀ hidden, ((c.suppressing hidden).convert d query).query = (c.convert d query).query ∧
      ((c.suppressing hidden).convert d query).warnings =
        raised.filter fun w => !hidden.contains w.category := by
  obtain ⟨⟨sql, changes⟩, hout⟩ := total_apply c d query
  obtain ⟨raised, hrun⟩ := hout []
  refine ⟨raised, fun hidden => ?_⟩
  have hrun' : ((c.suppressing hidden).apply d query).run [] = some ((sql, changes), raised) := hrun
  simp only [convert, convert?, hrun, hrun']
  exact ⟨rfl, rfl⟩

end Converter

/-- The categories of the warnings that a conversion raises, shown or not. -/
def raisedCategories (c : Converter) (d : Direction) (query : Text) : List Category :=
  ((c.suppressing []).convert d query).warnings.map Warning.category

theorem mem_categories_suppressing {c : Converter} {d : Direction} {query : Text} {hidden : List Category}
    {k : Category} : k ∈ ((c.suppressing hidden).convert d query).warnings.map Warning.category ↔
      k ∈ raisedCategories c d query ∧ k ∉ hidden := by
  obtain ⟨raised, h⟩ := c.exists_convert_suppressing d query
  rw [raisedCategories, (h hidden).2, (h []).2]
  simp only [List.mem_map, List.mem_filter, List.contains_eq_mem, Bool.not_eq_true',
    decide_eq_false_iff_not]
  constructor
  · rintro ⟨w, ⟨hw, hk⟩, rfl⟩
    exact ⟨⟨w, ⟨hw, by simp⟩, rfl⟩, hk⟩
  · rintro ⟨⟨w, ⟨hw, -⟩, rfl⟩, hk⟩
    exact ⟨w, ⟨hw, hk⟩, rfl⟩

/-- Two lists of hidden categories give the same report on a query unless the result calls a regular
expression function, the warning for it was raised, and one list hides it while the other does not. -/
theorem reportOn_suppressing_eq_iff (c : Converter) (d : Direction) (query : Text)
    (hidden hidden' : List Category) :
    reportOn (c.suppressing hidden) ((c.suppressing hidden).convert d query) =
        reportOn (c.suppressing hidden') ((c.suppressing hidden').convert d query) ↔
      (Checklist.regexpCall.occursIn (mask (c.convert d query).query) = true →
        .regexpLike ∈ raisedCategories c d query → (.regexpLike ∈ hidden ↔ .regexpLike ∈ hidden')) := by
  obtain ⟨raised, h⟩ := c.exists_convert_suppressing d query
  have hplaceholder : ∀ l, (c.suppressing l).placeholder = c.placeholder := fun _ => rfl
  simp only [reportOn, hplaceholder]
  rw [(h hidden).1, (h hidden').1, Checklist.run_eq_run_iff, mem_categories_suppressing, mem_categories_suppressing]
  refine imp_congr_right fun _ => ?_
  constructor
  · intro heq hraised
    simpa [hraised, not_iff_not] using heq
  · intro heq
    exact and_congr_right fun hraised => not_congr (heq hraised)

/-- Hiding `REGEXP_LIKE` makes the check that asks for its warning fail. -/
theorem reportOn_suppressing_regexpLike :
    (reportOn (Converter.builtin.suppressing [])
        ((Converter.builtin.suppressing []).convert .oracleToTsql
          "SELECT a FROM t WHERE REGEXP_LIKE(a, '^x')")).ready = true ∧
      (reportOn (Converter.builtin.suppressing [.regexpLike])
        ((Converter.builtin.suppressing [.regexpLike]).convert .oracleToTsql
          "SELECT a FROM t WHERE REGEXP_LIKE(a, '^x')")).ready = false := by
  rw [String.toList_ofList]
  decide +kernel

/-! ## Detection -/

variable {k : Category}

namespace Detection

theorem silent_runChecks {checks : List Check} (hk : ∀ check ∈ checks, check.category ≠ k) (masked : Text) :
    Silent k (runChecks masked checks) :=
  silent_forM fun check hcheck => silent_ite (silent_warnOnce (hk check hcheck) _) (silent_pure ())

theorem silent_detectOracle (hchecks : ∀ check ∈ oracleChecks, check.category ≠ k) (hlimit : .rowLimit ≠ k)
    (hsubquery : .correlatedSubquery ≠ k) (htuple : .tupleMembership ≠ k) (sql : Text) : Silent k (detectOracle sql) := by
  refine (silent_runChecks hchecks _).bind fun _ => silent_report_then (silent_warnOnce hlimit _) ?_
  refine (silent_lift _).bind fun _ => silent_report_then (silent_warnOnce hsubquery _) ?_
  exact silent_report_then (silent_warnOnce htuple _) (silent_pure sql)

theorem silent_detectTsql (hchecks : ∀ check ∈ tsqlChecks, check.category ≠ k) (sql : Text) :
    Silent k (detectTsql sql) :=
  (silent_runChecks hchecks _).bind fun _ => silent_pure sql

end Detection

/-! ## From Oracle to T-SQL -/

namespace ToTsql

theorem silent_nvl (sql : Text) : Silent k (nvl sql) := silent_renameCalls sql _ _

theorem silent_nvl2 (sql : Text) : Silent k (nvl2 sql) := by
  refine silent_replaceCalls (fun call => ?_) sql _
  split <;> exact silent_pure _

theorem silent_decode (sql : Text) : Silent k (decode sql) := by
  refine silent_replaceCalls (fun call => ?_) sql _
  split <;> exact silent_pure _

theorem silent_castTypes (sql : Text) : Silent k (castTypes sql) := by
  refine silent_replaceCalls (fun call => ?_) sql _
  split <;> exact silent_pure _

theorem silent_trunc (hk : .dateFormat ≠ k) (sql : Text) : Silent k (trunc sql) := by
  refine silent_replaceCalls (fun call => ?_) sql _
  split
  · exact silent_pure _
  · refine silent_ite (silent_pure _) ?_
    split
    · exact silent_warn_then hk _ (silent_pure _)
    · split
      · exact silent_pure _
      · exact silent_warn_then hk _ (silent_pure _)
  · exact silent_pure _

theorem silent_dateFunctions (hk : .dateArithmetic ≠ k) (sql : Text) : Silent k (dateFunctions sql) := by
  refine .bind ?_ fun sql => .bind ?_ fun sql => silent_renameCalls sql _ _
  · refine silent_replaceCalls (fun call => ?_) sql _
    split <;> exact silent_pure _
  · refine silent_replaceCalls (fun call => ?_) sql _
    split
    · exact silent_warnOnce_then hk _ (silent_pure _)
    · exact silent_pure _

theorem silent_toChar (hk : .dateFormat ≠ k) (sql : Text) : Silent k (toChar sql) := by
  refine silent_replaceCalls (fun call => ?_) sql _
  split
  · exact silent_pure _
  · split
    · exact silent_warn_then hk _ (silent_pure _)
    · exact silent_ite (silent_warn_then hk _ (silent_pure _)) (silent_pure _)
  · exact silent_warn_then hk _ (silent_pure _)

theorem silent_toDate (hk : .dateFormat ≠ k) (sql : Text) : Silent k (toDate sql) := by
  refine silent_replaceCalls (fun call => ?_) sql _
  split
  · exact silent_pure _
  · split
    · exact silent_pure _
    · exact silent_warn_then hk _ (silent_pure _)
  · exact silent_pure _

theorem silent_toNumber (hk : .dateFormat ≠ k) (sql : Text) : Silent k (toNumber sql) := by
  refine silent_replaceCalls (fun call => ?_) sql _
  split
  · exact silent_pure _
  · exact silent_warn_then hk _ (silent_pure _)
  · exact silent_pure _

theorem silent_conversionFunctions (hk : .dateFormat ≠ k) (sql : Text) : Silent k (conversionFunctions sql) :=
  (silent_toChar hk sql).bind fun sql => (silent_toDate hk sql).bind fun sql => silent_toNumber hk sql

theorem silent_stringFunctions (hk : .unsupported ≠ k) (sql : Text) : Silent k (stringFunctions sql) := by
  refine .bind ?_ fun sql => .bind ?_ fun sql =>
    (silent_renameCalls sql _ _).bind fun sql => silent_renameCalls sql _ _
  · refine silent_replaceCalls (fun call => ?_) sql _
    split <;> exact silent_pure _
  · refine silent_replaceCalls (fun call => ?_) sql _
    split
    · exact silent_pure _
    · exact silent_pure _
    · exact silent_warn_then hk _ (silent_pure _)
    · exact silent_pure _

theorem silent_listagg (hk : .listaggDistinct ≠ k) (placeholder sql : Text) : Silent k (listagg placeholder sql) := by
  refine silent_replaceCallsBefore (fun call => ?_) _ _ sql
  split
  case h_3 => exact silent_pure _
  all_goals
    refine (silent_lift _).bind fun clause => ?_
    split
    · exact silent_pure _
    · exact silent_warn_then hk _ (silent_pure _)

theorem silent_aggregates (hk : .aggregation ≠ k) (sql : Text) : Silent k (aggregates sql) := by
  refine (silent_foldlM (fun names sql => silent_renameCalls sql _ _) _ sql).bind fun sql => ?_
  refine silent_replaceCalls (fun call => ?_) sql _
  split
  · exact silent_warnOnce_then hk _ (silent_pure _)
  · exact silent_pure _

theorem silent_regexpFunctions (hk : .regexpLike ≠ k) (sql : Text) : Silent k (regexpFunctions sql) := by
  refine (silent_replaceSpans (fun m => ?_) sql _).bind fun out => ?_
  · exact (silent_lift _).bind fun before =>
      silent_ite (silent_pure none) ((silent_lift _).bind fun _ => silent_pure _)
  · exact silent_report_then (silent_warnOnce hk _) (silent_pure out)

theorem silent_fromDual (sql : Text) : Silent k (fromDual sql) := silent_replaceSpans (fun _ => silent_pure _) sql _

theorem silent_moveRownum (hk : .rowLimit ≠ k) (sql masked : Text) (form : RownumForm) (m : Match) :
    Silent k (moveRownum sql masked form m) := by
  refine silent_ite (silent_pure none) ((silent_lift _).bind fun ors => silent_ite (silent_pure none) ?_)
  split
  · exact silent_pure none
  · refine (silent_lift _).bind fun next => (silent_lift _).bind fun done => ?_
    cases done with
    | some done => exact silent_pure _
    | none => exact silent_warnOnce_then hk _ (silent_pure none)

theorem silent_rownumLimit (hk : .rowLimit ≠ k) (sql : Text) : Silent k (rownumLimit sql) := by
  have hstep : ∀ sql, Silent k (rownumStep sql) := fun sql =>
    silent_findSomeM? (fun form => silent_findSomeM? (fun m => silent_moveRownum hk _ _ _ m) _) _
  refine (silent_fixpoint hstep sql).bind fun out => ?_
  exact silent_ite (silent_warn_then hk _ (silent_pure _)) (silent_pure out)

theorem silent_moveFetch (hk : .rowLimit ≠ k) (sql masked : Text) (m : Match) : Silent k (moveFetch sql masked m) := by
  unfold moveFetch
  split
  · refine (silent_lift _).bind fun before => silent_ite (silent_pure none) ?_
    refine (silent_lift _).bind fun orders => silent_ite ((silent_lift _).bind fun _ => silent_pure _) ?_
    refine (silent_lift _).bind fun next => (silent_lift _).bind fun done => ?_
    cases done with
    | some done => exact silent_pure _
    | none => exact silent_warnOnce_then hk _ (silent_pure none)
  · exact silent_pure none

theorem silent_fetchFirst (hk : .rowLimit ≠ k) (sql : Text) : Silent k (fetchFirst sql) :=
  silent_fixpoint (fun _ => silent_findSomeM? (fun m => silent_moveFetch hk _ _ m) _) sql

end ToTsql

/-! ## From T-SQL to Oracle -/

namespace ToOracle

theorem silent_topToRownum (hk : .rowLimit ≠ k) (sql : Text) : Silent k (topToRownum sql) := by
  refine silent_fixpoint (fun sql => silent_findSomeM? (fun m => ?_) _) sql
  split
  · rename_i limit _
    rw [map_eq_pure_bind]
    refine .bind ((silent_lift _).bind fun dropped => (silent_lift _).bind fun orders => ?_) fun _ => silent_pure _
    exact silent_report_then (silent_warnOnce hk _) (silent_lift _)
  · exact silent_pure none

theorem silent_nullFunctions (sql : Text) : Silent k (nullFunctions sql) := by
  refine (silent_renameCalls sql _ _).bind fun sql => silent_replaceCalls (fun call => ?_) sql _
  split <;> exact silent_pure _

theorem silent_concatenation (hk : .concatenation ≠ k) (sql : Text) : Silent k (concatenation sql) := by
  refine .bind ?_ fun sql => (silent_replaceSpans (fun m => ?_) sql _).bind fun out => ?_
  · exact silent_replaceCalls (fun call => silent_ite (silent_pure _) (silent_pure _)) sql _
  · exact (silent_lift _).bind fun _ => silent_pure _
  · exact silent_report_then (silent_warn hk _) (silent_pure out)

theorem silent_castTypes (sql : Text) : Silent k (castTypes sql) := by
  refine silent_replaceCalls (fun call => ?_) sql _
  split <;> exact silent_pure _

theorem silent_dateAdd (hk : .dateArithmetic ≠ k) (sql : Text) : Silent k (dateAdd sql) := by
  refine silent_replaceCalls (fun call => ?_) sql _
  split
  · split
    · exact silent_pure _
    · exact silent_warn_then hk _ (silent_pure _)
  · exact silent_pure _

theorem silent_dateDiff (hk : .dateArithmetic ≠ k) (sql : Text) : Silent k (dateDiff sql) := by
  refine silent_replaceCalls (fun call => ?_) sql _
  split
  · refine silent_ite (silent_warnOnce_then hk _ (silent_pure _)) ?_
    exact silent_ite (silent_pure _) (silent_warn_then hk _ (silent_pure _))
  · exact silent_pure _

theorem silent_dateFunctions (hk : .dateArithmetic ≠ k) (sql : Text) : Silent k (dateFunctions sql) := by
  refine (silent_castTypes sql).bind fun sql => .bind ?_ fun sql =>
    (silent_dateAdd hk sql).bind fun sql => (silent_dateDiff hk sql).bind fun sql => ?_
  · refine silent_replaceCalls (fun call => ?_) sql _
    split <;> exact silent_pure _
  · refine silent_replaceCalls (fun call => ?_) sql _
    split <;> exact silent_pure _

theorem silent_convertCall (hformat : .dateFormat ≠ k) (htype : .unsupported ≠ k) (type value : Text)
    (style : Option Text) : Silent k (convertCall type value style) := by
  unfold convertCall
  lift_lets
  intro mask
  clear_value mask
  cases converterFor? type with
  | none =>
    rcases style with _ | style <;> rcases mask with _ | _ | mask <;>
      first
      | exact silent_warn_then hformat _ (silent_pure none)
      | exact silent_warn_then htype _ (silent_pure none)
  | some function =>
    rcases style with _ | style <;> rcases mask with _ | _ | mask <;>
      first
      | exact silent_pure _
      | exact silent_warn_then hformat _ (silent_pure none)

theorem silent_conversionFunctions (hformat : .dateFormat ≠ k) (htype : .unsupported ≠ k) (sql : Text) :
    Silent k (conversionFunctions sql) := by
  refine .bind ?_ fun sql => ?_
  · refine silent_replaceCalls (fun call => ?_) sql _
    split
    · exact silent_convertCall hformat htype _ _ _
    · exact silent_convertCall hformat htype _ _ _
    · exact silent_pure _
  · refine silent_replaceCalls (fun call => ?_) sql _
    split
    · split
      · exact silent_warn_then hformat _ (silent_pure _)
      · exact silent_pure _
    · exact silent_warn_then hformat _ (silent_pure _)

theorem silent_stringFunctions (sql : Text) : Silent k (stringFunctions sql) := by
  refine (silent_renameCalls sql _ _).bind fun sql => .bind ?_ fun sql =>
    (silent_renameCalls sql _ _).bind fun sql => silent_renameCalls sql _ _
  refine silent_replaceCalls (fun call => ?_) sql _
  split <;> exact silent_pure _

theorem silent_stringAgg (sql : Text) : Silent k (stringAgg sql) := by
  refine silent_replaceCallsBefore (fun call => ?_) _ _ sql
  split
  · exact (silent_lift _).bind fun _ => silent_pure _
  · exact silent_pure _

theorem silent_aggregates (sql : Text) : Silent k (aggregates sql) := by
  refine (silent_foldlM (fun names sql => silent_renameCalls sql _ _) _ sql).bind fun sql => ?_
  refine silent_replaceCallsBefore (fun call => silent_ite (silent_pure none) ?_) _ _ sql
  refine (silent_lift _).bind fun clause => ?_
  split
  · exact silent_pure _
  · refine (silent_lift _).bind fun behind => ?_
    split
    · exact silent_pure _
    · exact silent_ite (silent_pure none) (silent_pure _)

theorem silent_offsetFetch (sql : Text) : Silent k (offsetFetch sql) := by
  refine silent_replaceSpans (fun m => ?_) sql _
  split
  · exact (silent_lift _).bind fun _ => silent_pure _
  · exact silent_pure _

theorem silent_bracketIdentifiers (hk : .identifier ≠ k) (sql : Text) : Silent k (bracketIdentifiers sql) := by
  refine (silent_replaceSpans (fun m => ?_) sql _).bind fun out => ?_
  · split
    · exact (silent_lift _).bind fun _ => silent_pure _
    · exact silent_pure _
  · exact silent_report_then (silent_warnOnce hk _) (silent_pure out)

theorem silent_tableHints (hk : .tableHint ≠ k) (sql : Text) : Silent k (tableHints sql) := by
  refine (silent_replaceSpans (fun _ => silent_pure _) sql _).bind fun once => ?_
  refine (silent_replaceSpans (fun _ => silent_pure _) once _).bind fun out => ?_
  exact silent_report_then (silent_warnOnce hk _) (silent_pure out)

theorem silent_fromDual (sql : Text) : Silent k (fromDual sql) :=
  (silent_mapM (fun _ => silent_lift _) _).bind fun _ => silent_foldlM (fun _ _ => silent_lift _) _ sql

end ToOracle

/-! ## Conversions -/

/-- The categories of the warnings that the rules of a direction raise. -/
def raisable : Direction → List Category
  | .oracleToTsql => [.hierarchical, .rowLimit, .dateArithmetic, .dateFormat, .correlatedSubquery, .tupleMembership,
      .outerJoin, .listaggDistinct, .regexpLike, .aggregation, .pseudocolumn, .sequence, .unsupported]
  | .tsqlToOracle => [.rowLimit, .dateArithmetic, .dateFormat, .concatenation, .identifier, .tableHint, .tsqlOnly,
      .unsupported]

/-- The rules of a direction raise no warnings of other categories. -/
theorem silent_of_mem_rules {d : Direction} {r : Rule} (hr : r ∈ d.rules) (hk : k ∉ raisable d)
    (placeholder sql : Text) : Silent k (r.apply placeholder sql) := by
  have hne : ∀ c ∈ raisable d, c ≠ k := fun c hc heq => hk (heq ▸ hc)
  cases d with
  | oracleToTsql =>
    have hchecks : ∀ check ∈ Detection.oracleChecks, check.category ∈ raisable .oracleToTsql := by decide
    simp only [Direction.rules, ToTsql.rules, List.mem_cons, List.not_mem_nil, or_false] at hr
    rcases hr with rfl | rfl | rfl | rfl | rfl | rfl | rfl | rfl | rfl | rfl | rfl | rfl | rfl | rfl |
      rfl | rfl | rfl | rfl | rfl
    · exact silent_pure _
    · exact Detection.silent_detectOracle (fun check hcheck => hne _ (hchecks check hcheck)) (hne _ (by simp [raisable]))
        (hne _ (by simp [raisable])) (hne _ (by simp [raisable])) sql
    · exact ToTsql.silent_nvl sql
    · exact ToTsql.silent_nvl2 sql
    · exact ToTsql.silent_decode sql
    · exact silent_pure _
    · exact silent_pure _
    · exact ToTsql.silent_castTypes sql
    · exact ToTsql.silent_trunc (hne _ (by simp [raisable])) sql
    · exact ToTsql.silent_dateFunctions (hne _ (by simp [raisable])) sql
    · exact ToTsql.silent_conversionFunctions (hne _ (by simp [raisable])) sql
    · exact ToTsql.silent_stringFunctions (hne _ (by simp [raisable])) sql
    · exact ToTsql.silent_listagg (hne _ (by simp [raisable])) placeholder sql
    · exact ToTsql.silent_aggregates (hne _ (by simp [raisable])) sql
    · exact ToTsql.silent_regexpFunctions (hne _ (by simp [raisable])) sql
    · exact silent_pure _
    · exact ToTsql.silent_fromDual sql
    · exact ToTsql.silent_rownumLimit (hne _ (by simp [raisable])) sql
    · exact ToTsql.silent_fetchFirst (hne _ (by simp [raisable])) sql
  | tsqlToOracle =>
    have hchecks : ∀ check ∈ Detection.tsqlChecks, check.category ∈ raisable .tsqlToOracle := by decide
    simp only [Direction.rules, ToOracle.rules, List.mem_cons, List.not_mem_nil, or_false] at hr
    rcases hr with rfl | rfl | rfl | rfl | rfl | rfl | rfl | rfl | rfl | rfl | rfl | rfl | rfl | rfl |
      rfl | rfl
    · exact silent_pure _
    · exact Detection.silent_detectTsql (fun check hcheck => hne _ (hchecks check hcheck)) sql
    · exact ToOracle.silent_topToRownum (hne _ (by simp [raisable])) sql
    · exact silent_pure _
    · exact ToOracle.silent_nullFunctions sql
    · exact ToOracle.silent_concatenation (hne _ (by simp [raisable])) sql
    · exact ToOracle.silent_dateFunctions (hne _ (by simp [raisable])) sql
    · exact ToOracle.silent_conversionFunctions (hne _ (by simp [raisable])) (hne _ (by simp [raisable])) sql
    · exact ToOracle.silent_stringFunctions sql
    · exact ToOracle.silent_stringAgg sql
    · exact ToOracle.silent_aggregates sql
    · exact silent_pure _
    · exact ToOracle.silent_offsetFetch sql
    · exact ToOracle.silent_bracketIdentifiers (hne _ (by simp [raisable])) sql
    · exact ToOracle.silent_tableHints (hne _ (by simp [raisable])) sql
    · exact ToOracle.silent_fromDual sql

/-- A rule of the user raises warnings of its own category only. -/
theorem silent_customRule (hk : .custom ≠ k) (r : CompiledRule) (sql : Text) : Silent k (r.apply sql) := by
  unfold CompiledRule.apply
  split
  · exact silent_pure _
  · exact silent_report_then (silent_warnOnce hk _) (silent_pure sql)

namespace Converter

theorem silent_runSteps {steps : List (Change × (Text → Reporting Text))} (h : ∀ s ∈ steps, ∀ sql, Silent k (s.2 sql))
    (sql : Text) : Silent k (runSteps steps sql) := by
  induction steps generalizing sql with
  | nil => exact silent_pure _
  | cons s steps ih =>
    refine (h s (by simp) sql).bind fun next => ?_
    exact (ih (fun s' hs' => h s' (by simp [hs'])) next).bind fun _ => silent_pure _

/-- The steps of a converter raise what the rules of the direction and those of the user can raise. -/
theorem silent_steps (c : Converter) {d : Direction} (hk : k ∉ raisable d) (hcustom : .custom ≠ k) (sql : Text) :
    Silent k (runSteps (c.steps d) sql) := by
  refine silent_runSteps (fun s hs sql => ?_) sql
  rcases List.mem_append.1 hs with hs | hs
  · obtain ⟨r, hr, rfl⟩ := List.mem_map.1 hs
    exact silent_of_mem_rules hr hk _ sql
  · obtain ⟨r, -, rfl⟩ := List.mem_map.1 hs
    exact silent_customRule hcustom r sql

end Converter

section
variable {c : Converter} {d : Direction} {query : Text}

/-- The categories are those of the log that is left. -/
theorem raisedCategories_eq {out : Text × List Change} {raised : List Warning}
    (h : (c.apply d query).run [] = some (out, raised)) : raisedCategories c d query = raised.map Warning.category := by
  have h' : ((c.suppressing []).apply d query).run [] = some (out, raised) := h
  rw [raisedCategories, Converter.convert, Converter.convert?, h']
  exact congrArg (List.map Warning.category) (List.filter_eq_self.2 fun _ _ => rfl)

/-- A text that is objected to raises the one warning that says so. -/
theorem raisedCategories_of_objection {message : Text} (h : Converter.objection? query = some message) :
    raisedCategories c d query = [.invalidInput] := by
  have hrun : (c.apply d query).run [] = some ((query, []), [⟨.invalidInput, message⟩]) := by
    rw [Converter.apply, h]
    rfl
  rw [raisedCategories_eq hrun]
  rfl

/-- A query raises what the rules of the direction and those of the user can raise. -/
theorem mem_raisable_of_raised (hquery : Converter.objection? query = none) (h : k ∈ raisedCategories c d query) :
    k ∈ raisable d ∨ k = .custom := by
  by_contra hnot
  obtain ⟨hraisable, hcustom⟩ := not_or.1 hnot
  obtain ⟨out, hout⟩ := Converter.total_apply c d query
  obtain ⟨raised, hrun⟩ := hout []
  rw [raisedCategories_eq hrun] at h
  rw [Converter.apply, hquery] at hrun
  exact (Converter.silent_steps c hraisable (Ne.symm hcustom) query).not_mem List.not_mem_nil _ _ hrun h

/-- The warning on a text that is no query is raised just where a converter objects to the text. -/
theorem invalidInput_raised_iff : .invalidInput ∈ raisedCategories c d query ↔ Converter.objection? query ≠ none := by
  constructor
  · intro h hquery
    rcases mem_raisable_of_raised hquery h with h | h
    · cases d <;> simp [raisable] at h
    · cases h
  · intro h
    obtain ⟨message, hmessage⟩ := Option.ne_none_iff_exists'.1 h
    rw [raisedCategories_of_objection hmessage]
    exact List.mem_singleton_self _

end

end DialectBridge
