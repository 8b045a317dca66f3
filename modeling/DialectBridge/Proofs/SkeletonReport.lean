import DialectBridge.Proofs.CommentOrigins
import DialectBridge.Proofs.RuleWarnings
import DialectBridge.Proofs.SaneWords
import DialectBridge.Proofs.SkeletonWords
/-!
# The report on a skeleton
-/
namespace DialectBridge
open Pattern LexState

/-! ## Queries without comments -/

/-- A query without comments and without the words for tables and row limits. -/
structure Bare (sql : Text) : Prop where
  comments : comments sql = []
  spares : Spares limitWords (mask sql)

instance (sql : Text) : Decidable (Bare sql) :=
  decidable_of_iff (comments sql = [] ∧ Spares limitWords (mask sql)) ⟨fun ⟨h, h'⟩ => ⟨h, h'⟩, fun ⟨h, h'⟩ => ⟨h, h'⟩⟩

theorem bare_iff {sql : Text} : Bare sql ↔ Sane [] limitWords sql := by
  rw [sane_nil_iff, ← comments_eq_nil_iff]
  exact ⟨fun h => ⟨h.comments, h.spares⟩, fun h => ⟨h.1, h.2⟩⟩

/-! ## Runs -/

namespace Converter
variable {I P : Text → List Warning → Prop} {change : Change} {step : Text → Reporting Text}
  {steps before more : List (Change × (Text → Reporting Text))} {sql : Text} {raised : List Warning}

theorem leads_runSteps_nil (h : P sql raised) : Leads (runSteps [] sql) raised fun r log => P r.1 log :=
  leads_pure h

theorem leads_runSteps_cons (hstep : Leads (step sql) raised I)
    (hmore : ∀ next raised, I next raised → Leads (runSteps more next) raised fun r log => P r.1 log) :
    Leads (runSteps ((change, step) :: more) sql) raised fun r log => P r.1 log := by
  refine .bind (hstep.mono fun next raised' hnext => .bind ((hmore next raised' hnext).mono fun r log hr => ?_))
  exact leads_pure hr

/-- Steps run one after the other. -/
theorem runSteps_append (before more : List (Change × (Text → Reporting Text))) (sql : Text) :
    runSteps (before ++ more) sql = do
      let (next, changes) ← runSteps before sql
      let (last, changes') ← runSteps more next
      return (last, changes ++ changes') := by
  induction before generalizing sql with
  | nil => simp [runSteps]
  | cons step before ih =>
    simp only [List.cons_append, runSteps, ih, bind_assoc, pure_bind]
    refine bind_congr fun next => bind_congr fun r => bind_congr fun r' => ?_
    split_ifs <;> rfl

end Converter

/-- A query that has no comment and none of the words, and for which no skeleton was reported. -/
def Clear (sql : Text) (raised : List Warning) : Prop :=
  Sane [] limitWords sql ∧ .listaggDistinct ∉ raised.map Warning.category

theorem Keeps.clear {rule : Text → Reporting Text} (h : Keeps [] limitWords rule) (hsilent : ∀ sql, Silent .listaggDistinct (rule sql))
    {sql : Text} {raised : List Warning} (hclear : Clear sql raised) : Leads (rule sql) raised Clear :=
  (h sql raised hclear.1).and ((hsilent sql).not_mem hclear.2)

theorem Clear.found {sql : Text} {raised : List Warning} (h : Clear sql raised) : Found sql raised :=
  ⟨⟨⟨h.1.clean.unlined, fun c hc => by simpa using h.1.clean.comments c hc⟩, h.1.spares⟩, fun hmem => absurd hmem h.2⟩

namespace ToTsql

/-- The rules in front of the one that rewrites formats. -/
def beforeFormats : List (Change × (Text → Reporting Text)) :=
  (Converter.builtin.steps .oracleToTsql).takeWhile fun step => step.1 ≠ .builtin "conversion_functions"

theorem steps_eq : Converter.builtin.steps .oracleToTsql = beforeFormats ++ [
    (.builtin "conversion_functions", conversionFunctions), (.builtin "string_functions", stringFunctions),
    (.builtin "listagg", listagg defaultPlaceholder), (.builtin "aggregates", aggregates),
    (.builtin "regexp_functions", regexpFunctions), (.builtin "set_operators", fun sql => return setOperators sql),
    (.builtin "from_dual", fromDual), (.builtin "rownum_limit", rownumLimit), (.builtin "fetch_first", fetchFirst)] :=
  rfl

/-- What the conversion of `TO_CHAR` reads of a query, and what it writes. -/
def formatTexts? (query : Text) : Option (Text × Text) := do
  let ((sql, _), _) ← (Converter.runSteps beforeFormats query).run []
  let (out, _) ← (toChar sql).run []
  return (sql, out)

theorem keeps_detectOracle : Keeps [] limitWords Detection.detectOracle := fun sql _ hsane =>
  (Detection.gives_detectOracle sql).leads fun _ => hsane

theorem silent_detection (sql : Text) : Silent .listaggDistinct (Detection.detectOracle sql) :=
  Detection.silent_detectOracle (by decide) (by decide) (by decide) (by decide) sql

theorem leads_beforeFormats {query : Text} (hquery : Bare (Entity.decode query)) :
    Leads (Converter.runSteps beforeFormats query) [] fun r log => Clear r.1 log := by
  refine Converter.leads_runSteps_cons (I := Clear) (leads_pure ⟨bare_iff.1 hquery, by simp⟩) fun _ _ h => ?_
  refine Converter.leads_runSteps_cons (keeps_detectOracle.clear silent_detection h) fun _ _ h => ?_
  refine Converter.leads_runSteps_cons ((keeps_nvl (List.Subset.refl _)).clear silent_nvl h) fun _ _ h => ?_
  refine Converter.leads_runSteps_cons ((keeps_nvl2 (List.Subset.refl _)).clear silent_nvl2 h) fun _ _ h => ?_
  refine Converter.leads_runSteps_cons ((keeps_decode (List.Subset.refl _)).clear silent_decode h) fun _ _ h => ?_
  refine Converter.leads_runSteps_cons (keeps_currentDatetime.clear (fun _ => silent_pure _) h) fun _ _ h => ?_
  refine Converter.leads_runSteps_cons (keeps_concatenation.clear (fun _ => silent_pure _) h) fun _ _ h => ?_
  refine Converter.leads_runSteps_cons (keeps_castTypes.clear silent_castTypes h) fun _ _ h => ?_
  refine Converter.leads_runSteps_cons ((keeps_trunc (List.Subset.refl _)).clear (silent_trunc (by decide)) h) fun _ _ h => ?_
  refine Converter.leads_runSteps_cons ((keeps_dateFunctions (List.Subset.refl _)).clear (silent_dateFunctions (by decide)) h) fun _ _ h => ?_
  exact Converter.leads_runSteps_nil h

theorem leads_conversionFunctions {sql : Text} {raised : List Warning} (hclear : Clear sql raised)
    (hformats : ∀ out, Gives (toChar sql) out → Bare out) : Leads (conversionFunctions sql) raised Clear := by
  obtain ⟨out, hout⟩ := total_toChar sql
  have hchar : Leads (toChar sql) raised Clear :=
    (hout.leads fun _ => bare_iff.1 (hformats out hout)).and ((silent_toChar (by decide) sql).not_mem hclear.2)
  exact .bind (hchar.mono fun _ _ h => .bind (((keeps_toDate (List.Subset.refl _)).clear (silent_toDate (by decide)) h).mono fun _ _ h =>
    (keeps_toNumber (List.Subset.refl _)).clear (silent_toNumber (by decide)) h))

/-- The rules behind the aggregates. -/
theorem carries_afterAggregates {sql : Text} {raised : List Warning} (h : Carries sql raised) :
    Leads (Converter.runSteps [(.builtin "regexp_functions", regexpFunctions),
      (.builtin "set_operators", fun sql => return setOperators sql), (.builtin "from_dual", fromDual),
      (.builtin "rownum_limit", rownumLimit), (.builtin "fetch_first", fetchFirst)] sql) raised
        fun r log => Carries r.1 log := by
  refine Converter.leads_runSteps_cons (carries_regexpFunctions h) fun _ _ h => ?_
  refine Converter.leads_runSteps_cons (I := Carries) (leads_pure (carries_setOperators h)) fun _ _ h => ?_
  have hspares : ∀ {sql raised}, Carries sql raised → ∀ n ∈ limitWords, Spares [n] (mask sql) := fun h n hn =>
    h.spares.mono (by simpa using hn)
  refine Converter.leads_runSteps_cons (I := Carries) ?_ fun _ _ h => ?_
  · rw [fromDual_of_spares (hspares h "DUAL" (by decide))]
    exact leads_pure h
  refine Converter.leads_runSteps_cons (I := Carries) ?_ fun _ _ h => ?_
  · rw [rownumLimit_of_spares (hspares h "ROWNUM" (by decide))]
    exact leads_pure h
  refine Converter.leads_runSteps_cons (I := Carries) ?_ fun _ _ h => Converter.leads_runSteps_nil h
  rw [fetchFirst_of_spares (hspares h "FETCH" (by decide))]
  exact leads_pure h

/-- Formats that are one literal each bring neither a comment nor one of the words into a query. -/
theorem bare_of_literalFormats {query : Text}
    (hformats : ∀ p ∈ formatTexts? query, ∀ call ∈ toCharRule.calls p.1, LiteralFormat call) :
    ∀ p ∈ formatTexts? query, Bare p.1 → Bare p.2 := by
  rintro ⟨sql, out⟩ hp hbare
  obtain ⟨⟨⟨_, changes⟩, raised⟩, -, hp'⟩ := Option.bind_eq_some_iff.1 hp
  obtain ⟨⟨_, raised'⟩, hrun, hp'⟩ := Option.bind_eq_some_iff.1 hp'
  obtain ⟨rfl, rfl⟩ := Prod.mk.inj (Option.some.inj hp')
  exact bare_iff.2 (leads_toChar (List.Subset.refl _) (hformats _ hp) (bare_iff.1 hbare) _ _ hrun)

/-- The result of a conversion has the marks of a skeleton if the warning on skeletons was raised. -/
theorem carries_runSteps {query : Text} (hquery : Bare (Entity.decode query))
    (hformats : ∀ p ∈ formatTexts? query, Bare p.1 → Bare p.2) :
    Leads (Converter.runSteps (Converter.builtin.steps .oracleToTsql) query) [] fun r log => Carries r.1 log := by
  rw [steps_eq, Converter.runSteps_append]
  refine .bind fun r log hrun => ?_
  have hclear := leads_beforeFormats hquery r log hrun
  refine .bind (.mono (P := fun r log => Carries r.1 log) ?_ fun _ _ h => leads_pure h)
  refine Converter.leads_runSteps_cons (leads_conversionFunctions hclear fun out hout => ?_) fun _ _ h => ?_
  · obtain ⟨log', hchar⟩ := hout []
    refine hformats (r.1, out) ?_ (bare_iff.2 hclear.1)
    simp [formatTexts?, hrun, hchar]
  refine Converter.leads_runSteps_cons ((keeps_stringFunctions (List.Subset.refl _)).clear (silent_stringFunctions (by decide)) h) fun _ _ h => ?_
  refine Converter.leads_runSteps_cons (found_listagg h.found) fun _ _ h => ?_
  refine Converter.leads_runSteps_cons (found_aggregates h) fun _ _ h => ?_
  exact carries_afterAggregates ⟨h.sane.spares, h.marked⟩

end ToTsql

namespace Checklist

/-- A report in which a check failed with a warning is not ready. -/
theorem Report.ready_of_fail_mem {report : Report} {name : String} {message : Text} {action : Option Text}
    (h : Outcome.fail name .warning message action ∈ report.outcomes) : report.ready = false := by
  have hpos : 0 < report.failures .warning := List.countP_pos_iff.2 ⟨_, h, rfl⟩
  rw [Report.ready, Bool.and_eq_false_iff]
  exact .inr (by simpa using Nat.ne_of_gt hpos)

end Checklist

/-- A query for which a skeleton was reported fails the check for skeletons, so it is not ready: if the query
is without comments and without the words for tables and row limits, and stays so when the formats of
`TO_CHAR` are rewritten. -/
theorem skeleton_fails_check {query : Text} (hquery : Bare (Entity.decode query))
    (hformats : ∀ p ∈ ToTsql.formatTexts? query, Bare p.1 → Bare p.2)
    (hraised : .listaggDistinct ∈ (Converter.builtin.convert .oracleToTsql query).warnings.map Warning.category) :
    let result := Converter.builtin.convert .oracleToTsql query
    let report := Checklist.run result.query (result.warnings.map Warning.category) defaultPlaceholder
    (∃ message action, .fail "string_agg_distinct" .warning message action ∈ report.outcomes) ∧
      report.ready = false := by
  intro result report
  have hmarked : Marked skeletonMarks (codePieces result.query) := by
    cases hconvert : Converter.builtin.convert? .oracleToTsql query with
    | none =>
      rw [Converter.convert, hconvert] at hraised
      simp at hraised
    | some conversion =>
    have hresult : result = conversion := by
      simp only [result, Converter.convert, hconvert, Option.getD_some]
    change .listaggDistinct ∈ result.warnings.map Warning.category at hraised
    rw [hresult] at hraised ⊢
    rw [Converter.convert?, Option.bind_eq_bind, Option.bind_eq_some_iff] at hconvert
    obtain ⟨⟨⟨sql, changes⟩, raised⟩, happly, hconvert⟩ := hconvert
    obtain rfl := Option.some.inj hconvert
    have hraised : .listaggDistinct ∈ raised.map Warning.category := by
      obtain ⟨w, hw, hk⟩ := List.mem_map.1 hraised
      exact List.mem_map.2 ⟨w, (List.mem_filter.1 hw).1, hk⟩
    rw [Converter.apply] at happly
    split at happly
    · obtain ⟨-, rfl⟩ := Prod.mk.inj (Option.some.inj happly)
      simp at hraised
    · exact (ToTsql.carries_runSteps hquery hformats _ _ happly).marked hraised
  obtain ⟨message, action, hfail⟩ := Checklist.checkStringAggDistinct_of_marked hmarked
  have hmem : .fail "string_agg_distinct" .warning message action ∈ report.outcomes := by
    rw [← hfail]
    simp [report, Checklist.run]
  exact ⟨⟨message, action, hmem⟩, Checklist.Report.ready_of_fail_mem hmem⟩

/-- A skeleton with a format in it. -/
theorem skeleton_fails_check_toChar :
    let query : Text := "SELECT LISTAGG(DISTINCT TO_CHAR(d, 'YYYY'), ',') FROM t"
    let result := Converter.builtin.convert .oracleToTsql query
    Bare (Entity.decode query) ∧ (∀ p ∈ ToTsql.formatTexts? query, Bare p.1 → Bare p.2) ∧
      .listaggDistinct ∈ result.warnings.map Warning.category ∧
      (Checklist.run result.query (result.warnings.map Warning.category) defaultPlaceholder).ready = false := by
  have hquery : Bare (Entity.decode "SELECT LISTAGG(DISTINCT TO_CHAR(d, 'YYYY'), ',') FROM t") := by decide +kernel
  have hformats : ∀ p ∈ ToTsql.formatTexts? "SELECT LISTAGG(DISTINCT TO_CHAR(d, 'YYYY'), ',') FROM t",
      Bare p.1 → Bare p.2 := by
    decide +kernel
  have hraised : .listaggDistinct ∈ (Converter.builtin.convert .oracleToTsql
      "SELECT LISTAGG(DISTINCT TO_CHAR(d, 'YYYY'), ',') FROM t").warnings.map Warning.category := by
    decide +kernel
  exact ⟨hquery, hformats, hraised, (skeleton_fails_check hquery hformats hraised).2⟩

/-- Two literals with code between them are taken for one format. Without `FM` the code begins comments, and
the one that runs to the end of its line hides the table of the skeleton: the report calls the query ready. -/
theorem skeleton_passes_check :
    let query : Text :=
      "SELECT TO_CHAR(e, 'x' /FM* (( *FM/ )) 'y'), LISTAGG(DISTINCT a, TO_CHAR(d, 'x' /FM* ( *FM/ ) -FM- 'y')\n) FROM t"
    let result := Converter.builtin.convert .oracleToTsql query
    Bare (Entity.decode query) ∧ .listaggDistinct ∈ result.warnings.map Warning.category ∧
      (Checklist.run result.query (result.warnings.map Warning.category) defaultPlaceholder).ready = true := by
  rw [String.toList_ofList]
  decide +kernel

end DialectBridge
