import DialectBridge.Converter
import DialectBridge.Proofs.DualCompletion
import DialectBridge.Proofs.FetchClause
import DialectBridge.Proofs.TopInsertion
import DialectBridge.Proofs.TopLimit
/-!
# Conversion never fails

Every rule has a result for every query: what it cuts it finds in the mask, at offsets at which the
query can be cut too. So a conversion always has a result (`isSome_convert?`).
-/
namespace DialectBridge
open Pattern Text Cursor

/-! ## Clauses and names -/

/-- Every match of these in a masked query begins and ends in the query itself. -/
theorem framed_clauses : ∀ p ∈ [ToTsql.dualClause, ToTsql.regexpWord, ToTsql.fetchFirstClause, ToOracle.plusByLiteral,
    ToOracle.offsetZeroFetch, ToOracle.bracketed, ToOracle.tableHint, ToOracle.queryOption], p.framed = true := by
  decide

/-! ## Reports -/

section
variable {α : Type} {x : Reporting α}

theorem total_warn_then (category : Category) (message : Text) (hx : Total x) :
    Total (warn category message >>= fun _ => x) :=
  (gives_warn category message).total.bind fun _ => hx

theorem total_warnOnce_then (category : Category) (message : Text) (hx : Total x) :
    Total (warnOnce category message >>= fun _ => x) :=
  (gives_warnOnce category message).total.bind fun _ => hx

/-- A report that is made only in some cases. -/
theorem total_report_then {p : Prop} [Decidable p] {report : Reporting Unit}
    (hreport : Total report) {f : Unit → Reporting α} (hf : Total (f ())) :
    Total (if p then report >>= f else f ()) :=
  total_ite (hreport.bind fun _ => hf) hf

theorem gives_report_then {p : Prop} [Decidable p] {report : Reporting Unit} {a : α}
    (hreport : Gives report ()) {f : Unit → Reporting α} (hf : Gives (f ()) a) :
    Gives (if p then report >>= f else f ()) a := by
  split_ifs
  · exact hreport.bind hf
  · exact hf

end

namespace Detection

theorem total_runChecks (masked : Text) (checks : List Check) : Total (runChecks masked checks) :=
  total_forM (fun _ => total_ite (gives_warnOnce _ _).total (total_pure ())) checks

theorem exists_anyM {α : Type} {f : α → Option Bool} {l : List α} (h : ∀ a ∈ l, ∃ b, f a = some b) :
    ∃ b, l.anyM f = some b := by
  induction l with
  | nil => exact ⟨false, rfl⟩
  | cons a l ih =>
    obtain ⟨b, hb⟩ := h a (by simp)
    obtain ⟨b', hb'⟩ := ih fun a' ha' => h a' (by simp [ha'])
    rw [List.anyM, hb]
    cases b with
    | true => exact ⟨true, rfl⟩
    | false => exact ⟨b', hb'⟩

theorem exists_hasSubqueryWithWhere? (masked : Text) : ∃ b, hasSubqueryWithWhere? masked = some b := by
  refine exists_anyM fun m hm => ?_
  obtain ⟨u, x, rfl, hat⟩ := exists_of_mem_findAll hm
  obtain ⟨w, v, rfl, hfirst, -, w, e, g, rfl, hw, -⟩ := matchAt?_eq_some hat
  obtain ⟨w, s, g, rfl, hw, -⟩ := hw
  obtain ⟨p, b, g, rfl, hp, -⟩ := hw
  obtain ⟨rfl, -⟩ := takes_sym hp
  have hstart : m.start = width u := by simp [Match.start, hfirst]
  split
  · exact ⟨false, rfl⟩
  rename_i closing hclosing
  rw [hstart] at hclosing ⊢
  obtain ⟨i, r, hsplit, rfl, -⟩ := exists_nest_of_matchingParen? (b := b ++ s ++ e ++ v) hclosing
  obtain ⟨block, hblock⟩ := exists_slice? (isBoundary_append u (['('] ++ b ++ s ++ e ++ v))
    (j := width (u ++ '(' :: i)) ⟨u ++ '(' :: i, ')' :: r, by simpa using hsplit, rfl⟩ (by simp)
  exact ⟨_, by rw [hblock]; rfl⟩

/-- Detection reports, and does not edit. -/
theorem gives_detectOracle (sql : Text) : Gives (detectOracle sql) sql := by
  obtain ⟨⟨⟩, hchecks⟩ := total_runChecks (mask sql) oracleChecks
  obtain ⟨b, hb⟩ := exists_hasSubqueryWithWhere? (mask sql)
  refine hchecks.bind (gives_report_then (gives_warnOnce _ _) ?_)
  refine (gives_lift hb).bind (gives_report_then (gives_warnOnce _ _) ?_)
  exact gives_report_then (gives_warnOnce _ _) (gives_pure sql)

theorem total_detectOracle (sql : Text) : Total (detectOracle sql) := (gives_detectOracle sql).total

theorem total_detectTsql (sql : Text) : Total (detectTsql sql) :=
  (total_runChecks _ _).bind fun _ => total_pure sql

end Detection

/-! ## From Oracle to T-SQL -/

namespace ToTsql
variable (sql : Text)

theorem total_nvl : Total (nvl sql) := total_renameCalls (by decide) sql _

theorem total_nvl2 : Total (nvl2 sql) := by
  refine total_replaceCalls (by decide) (fun call => ?_) sql
  split <;> exact total_pure _

theorem total_decode : Total (decode sql) := by
  refine total_replaceCalls (by decide) (fun call => ?_) sql
  split <;> exact total_pure _

theorem total_castTypes : Total (castTypes sql) := by
  refine total_replaceCalls (by decide) (fun call => ?_) sql
  split <;> exact total_pure _

theorem total_trunc : Total (trunc sql) := by
  refine total_replaceCalls (by decide) (fun call => ?_) sql
  split
  · exact total_pure _
  · refine total_ite (total_pure _) ?_
    split
    · exact total_warn_then _ _ (total_pure _)
    · split
      · exact total_pure _
      · exact total_warn_then _ _ (total_pure _)
  · exact total_pure _

theorem total_dateFunctions : Total (dateFunctions sql) := by
  refine Total.bind ?_ fun sql => Total.bind ?_ fun sql => total_renameCalls (by decide) sql _
  · refine total_replaceCalls (by decide) (fun call => ?_) sql
    split <;> exact total_pure _
  · refine total_replaceCalls (by decide) (fun call => ?_) sql
    split
    · exact total_warnOnce_then _ _ (total_pure _)
    · exact total_pure _

theorem total_toChar : Total (toChar sql) := by
  refine total_replaceCalls (by decide) (fun call => ?_) sql
  split
  · exact total_pure _
  · split
    · exact total_warn_then _ _ (total_pure _)
    · exact total_ite (total_warn_then _ _ (total_pure _)) (total_pure _)
  · exact total_warn_then _ _ (total_pure _)

theorem total_toDate : Total (toDate sql) := by
  refine total_replaceCalls (by decide) (fun call => ?_) sql
  split
  · exact total_pure _
  · split
    · exact total_pure _
    · exact total_warn_then _ _ (total_pure _)
  · exact total_pure _

theorem total_toNumber : Total (toNumber sql) := by
  refine total_replaceCalls (by decide) (fun call => ?_) sql
  split
  · exact total_pure _
  · exact total_warn_then _ _ (total_pure _)
  · exact total_pure _

theorem total_conversionFunctions : Total (conversionFunctions sql) :=
  (total_toChar sql).bind fun sql => (total_toDate sql).bind fun sql => total_toNumber sql

theorem total_stringFunctions : Total (stringFunctions sql) := by
  refine Total.bind ?_ fun sql => Total.bind ?_ fun sql =>
    (total_renameCalls (by decide) sql _).bind fun sql =>
      total_renameCalls (by decide) sql _
  · refine total_replaceCalls (by decide) (fun call => ?_) sql
    split <;> exact total_pure _
  · refine total_replaceCalls (by decide) (fun call => ?_) sql
    split
    · exact total_pure _
    · exact total_pure _
    · exact total_warn_then _ _ (total_pure _)
    · exact total_pure _

theorem total_listagg (placeholder : Text) : Total (listagg placeholder sql) := by
  refine total_replaceCallsBefore (by decide) (fun call => ?_) _ sql
  obtain ⟨clause, hclause, hcut⟩ := exists_withinGroup? call.tail
  have hconsumed : IsBoundary call.tail ((clause.map Prod.snd).getD 0) := by
    cases clause with
    | none => exact isBoundary_zero _
    | some order => exact hcut order rfl
  split
  case h_3 => exact yields_pure (by simp)
  all_goals
    refine (gives_lift hclause).yields_bind ?_
    split
    · exact yields_pure (by rintro _ ⟨⟩; exact hconsumed)
    · exact (gives_warn _ _).yields_bind (yields_pure (by rintro _ ⟨⟩; exact hconsumed))

theorem total_aggregates : Total (aggregates sql) := by
  refine Total.bind ?_ fun sql => ?_
  · have hnames : ∀ names ∈ aggregateNames, isName names.1.toList = true := by decide
    exact total_foldlM (fun names hmem sql => total_renameCalls (hnames names hmem) sql _) sql
  · refine total_replaceCalls (by decide) (fun call => ?_) sql
    split
    · exact total_warnOnce_then _ _ (total_pure _)
    · exact total_pure _

theorem total_regexpFunctions : Total (regexpFunctions sql) := by
  have hframed : regexpWord.framed = true := framed_clauses _ (by simp)
  refine Total.bind (total_replaceSpans hframed fun m hm => ?_) fun out => ?_
  · obtain ⟨hstart, hstop, hlt⟩ := isBoundary_of_mem_findAll hframed hm
    refine (total_lift (exists_upTo? hstart)).bind fun before => total_ite (total_pure none) ?_
    exact (total_lift (exists_slice? hstart hstop (Nat.le_of_lt hlt))).bind fun _ => total_pure _
  · exact total_report_then (gives_warnOnce _ _).total (total_pure out)

theorem total_fromDual : Total (fromDual sql) :=
  total_replaceSpans (framed_clauses _ (by simp)) fun _ _ => total_pure _

theorem total_rownumStep : Total (rownumStep sql) :=
  total_findSomeM? fun _ hform => total_findSomeM? fun _ hm => (exists_moveRownum hform hm).total

theorem total_rownumLimit : Total (rownumLimit sql) := by
  refine (total_fixpoint total_rownumStep sql).bind fun out => ?_
  exact total_ite (total_warn_then _ _ (total_pure _)) (total_pure _)

theorem total_fetchStep : Total (fetchStep sql) :=
  total_findSomeM? fun _ hm => (exists_moveFetch hm).total

theorem total_fetchFirst : Total (fetchFirst sql) := total_fixpoint total_fetchStep sql

end ToTsql

/-! ## From T-SQL to Oracle -/

namespace ToOracle
variable (sql : Text)

theorem total_topStep : Total (topStep sql) := by
  cases hnext : nextTop? sql with
  | none =>
    rw [topStep_of_none hnext]
    exact total_pure none
  | some m =>
    obtain ⟨n, q, c, hnumber, hdropped⟩ := exists_topDropped (mem_of_nextTop? hnext)
    obtain ⟨-, c', -, hadd, -⟩ := exists_filterAdded n hdropped.behind hdropped.blank c
    exact ⟨_, exists_run_topStep hnext hnumber hdropped hadd⟩

theorem total_topToRownum : Total (topToRownum sql) := total_fixpoint total_topStep sql

theorem total_nullFunctions : Total (nullFunctions sql) := by
  refine (total_renameCalls (by decide) sql _).bind fun sql => ?_
  refine total_replaceCalls (by decide) (fun call => ?_) sql
  split <;> exact total_pure _

theorem total_concatenation : Total (concatenation sql) := by
  have hframed : plusByLiteral.framed = true := framed_clauses _ (by simp)
  refine Total.bind ?_ fun sql => Total.bind (total_replaceSpans hframed fun m hm => ?_) fun out => ?_
  · refine total_replaceCalls (by decide) (fun call => ?_) sql
    exact total_ite (total_pure _) (total_pure _)
  · obtain ⟨hstart, hstop, hlt⟩ := isBoundary_of_mem_findAll hframed hm
    exact (total_lift (exists_slice? hstart hstop (Nat.le_of_lt hlt))).bind fun _ => total_pure _
  · exact total_report_then (gives_warn _ _).total (total_pure out)

theorem total_castTypes : Total (castTypes sql) := by
  refine total_replaceCalls (by decide) (fun call => ?_) sql
  split <;> exact total_pure _

theorem total_dateAdd : Total (dateAdd sql) := by
  refine total_replaceCalls (by decide) (fun call => ?_) sql
  split
  · split
    · exact total_pure _
    · exact total_warn_then _ _ (total_pure _)
  · exact total_pure _

theorem total_dateDiff : Total (dateDiff sql) := by
  refine total_replaceCalls (by decide) (fun call => ?_) sql
  split
  · refine total_ite (total_warnOnce_then _ _ (total_pure _)) ?_
    exact total_ite (total_pure _) (total_warn_then _ _ (total_pure _))
  · exact total_pure _

theorem total_dateFunctions : Total (dateFunctions sql) := by
  refine (total_castTypes sql).bind fun sql => Total.bind ?_ fun sql =>
    (total_dateAdd sql).bind fun sql => (total_dateDiff sql).bind fun sql => ?_
  · refine total_replaceCalls (by decide) (fun call => ?_) sql
    split <;> exact total_pure _
  · refine total_replaceCalls (by decide) (fun call => ?_) sql
    split <;> exact total_pure _

theorem total_convertCall (type value : Text) (style : Option Text) :
    Total (convertCall type value style) := by
  unfold convertCall
  lift_lets
  intro mask
  clear_value mask
  cases converterFor? type with
  | none =>
    rcases style with _ | style <;> rcases mask with _ | _ | mask <;>
      exact total_warn_then _ _ (total_pure _)
  | some function =>
    rcases style with _ | style <;> rcases mask with _ | _ | mask <;>
      first
      | exact total_pure _
      | exact total_warn_then _ _ (total_pure _)

theorem total_conversionFunctions : Total (conversionFunctions sql) := by
  refine Total.bind ?_ fun sql => ?_
  · refine total_replaceCalls (by decide) (fun call => ?_) sql
    split
    · exact total_convertCall _ _ _
    · exact total_convertCall _ _ _
    · exact total_pure _
  · refine total_replaceCalls (by decide) (fun call => ?_) sql
    split
    · split
      · exact total_warn_then _ _ (total_pure _)
      · exact total_pure _
    · exact total_warn_then _ _ (total_pure _)

theorem total_stringFunctions : Total (stringFunctions sql) := by
  refine (total_renameCalls (by decide) sql _).bind fun sql => Total.bind ?_ fun sql =>
    (total_renameCalls (by decide) sql _).bind fun sql =>
      total_renameCalls (by decide) sql _
  refine total_replaceCalls (by decide) (fun call => ?_) sql
  split <;> exact total_pure _

theorem total_stringAgg : Total (stringAgg sql) := by
  refine total_replaceCallsBefore (by decide) (fun call => ?_) _ sql
  obtain ⟨clause, hclause, hcut⟩ := exists_withinGroup? call.tail
  split
  · refine (gives_lift hclause).yields_bind (yields_pure ?_)
    rintro _ ⟨⟩
    cases clause with
    | none => exact isBoundary_zero _
    | some order => exact hcut order rfl
  · exact yields_pure (by simp)

theorem total_aggregates : Total (aggregates sql) := by
  refine Total.bind ?_ fun sql => ?_
  · have hnames : ∀ names ∈ aggregateNames, isName names.1.toList = true := by decide
    exact total_foldlM (fun names hmem sql => total_renameCalls (hnames names hmem) sql _) sql
  · refine total_replaceCallsBefore (by decide) (fun call => ?_) _ sql
    obtain ⟨clause, hclause, hcut⟩ := exists_withinGroup? call.tail
    split
    · exact yields_pure (by simp)
    refine (gives_lift hclause).yields_bind ?_
    cases clause with
    | none => exact yields_pure (by simp)
    | some clause =>
    obtain ⟨order, consumed⟩ := clause
    have hconsumed := hcut _ rfl
    obtain ⟨rest, hrest⟩ := exists_from? hconsumed
    refine (gives_lift hrest).yields_bind ?_
    split
    · exact yields_pure (by simp)
    rename_i window hwindow
    split
    · exact yields_pure (by simp)
    · refine yields_pure ?_
      rintro _ ⟨⟩
      exact (isBoundary_of_find? hwindow).add hrest

/-- The number of rows behind an `OFFSET 0` can be cut out. -/
theorem exists_offsetCount {m : Match} (hm : m ∈ offsetZeroFetch.findAll (mask sql)) :
    ∃ span n, m.groupSpan? 1 = some span ∧ slice? sql span.start span.stop = some n ∧
      ∀ c ∈ n, Unicode.isWordChar c = true := by
  obtain ⟨u, x, hmask, hat⟩ := exists_of_mem_findAll hm
  obtain ⟨w, v, rfl, -, -, hw⟩ := matchAt?_eq_some hat
  obtain ⟨w, e, g₁, rfl, hw, he⟩ := hw
  obtain ⟨w, o, g₂, rfl, hw, ho⟩ := hw
  obtain ⟨w, b, g₃, rfl, hw, hb⟩ := hw
  obtain ⟨w, s, g₄, rfl, hw, hs⟩ := hw
  obtain ⟨w, r, g₅, rfl, hw, hr⟩ := hw
  obtain ⟨w, b', g₆, rfl, hw, hb'⟩ := hw
  obtain ⟨w, n, g₇, rfl, hw, g₈, hn, rfl⟩ := hw
  have hgroups : m.groups = (1, between (u ++ w) (n ++ (b' ++ (r ++ (s ++ (b ++ (o ++ (e ++ v))))))),
      between (u ++ w ++ n) (b' ++ (r ++ (s ++ (b ++ (o ++ (e ++ v))))))) :: g₈ := by
    rw [he.groups_eq (by decide), ho.groups_eq (by decide), hb.groups_eq (by decide),
      hs.groups_eq (by decide), hr.groups_eq (by decide), hb'.groups_eq (by decide)]
  have hspan : m.groupSpan? 1 = some ⟨width (u ++ w), width (u ++ w ++ n)⟩ := by
    rw [Match.groupSpan?, if_neg (by decide), hgroups]
    rfl
  obtain ⟨⟨hne, hdigits⟩, -⟩ := takes_digits1 hn
  have hword : ∀ c ∈ n, Unicode.isWordChar c = true := fun c hc => isWordChar_of_isDigit (hdigits c hc)
  have hmask' : mask sql = u ++ w ++ (n ++ (b' ++ (r ++ (s ++ (b ++ (o ++ (e ++ v))))))) := by
    rw [hmask]
    simp
  obtain ⟨y, z, rfl, hy, -, -, -⟩ := exists_cut_word hne hword hmask'
  have hwidth : width (u ++ w) = width y := by rw [← hy, width_mask]
  refine ⟨⟨width y, width y + width n⟩, n, ?_, ?_, hword⟩
  · rw [hspan, width_append _ n, hwidth]
  · rw [← List.append_assoc]
    exact slice?_append y n z

theorem total_offsetFetch : Total (offsetFetch sql) := by
  have hframed : offsetZeroFetch.framed = true := framed_clauses _ (by simp)
  refine total_replaceSpans hframed fun m hm => ?_
  obtain ⟨span, n, hspan, hslice, -⟩ := exists_offsetCount sql hm
  rw [hspan]
  exact (total_lift ⟨n, hslice⟩).bind fun _ => total_pure _

/-- The name between brackets can be cut out. -/
theorem exists_bracketed {m : Match} {span : Span} (hm : m ∈ bracketed.findAll (mask sql))
    (hspan : m.groupSpan? 1 = some span) : ∃ name, slice? sql span.start span.stop = some name := by
  obtain ⟨u, x, hmask, hat⟩ := exists_of_mem_findAll hm
  obtain ⟨w, v, rfl, -, -, w, r, g₁, rfl, ⟨l, n, g₂, rfl, hl, g₃, hn, rfl⟩, hr⟩ := matchAt?_eq_some hat
  obtain ⟨rfl, rfl⟩ := takes_sym hl
  obtain ⟨rfl, hgroups⟩ := takes_sym hr
  have hspan' : span = ⟨width (u ++ ['[']), width (u ++ ['['] ++ n)⟩ := by
    simpa [Match.groupSpan?, hgroups, List.lookup_cons] using hspan.symm
  rw [hspan']
  refine exists_slice? (isBoundary_after (x := '[') (v := n ++ ']' :: v) (by decide) ?_)
    (isBoundary_before (x := ']') (v := v) (by decide) ?_) (by simp)
  · rw [hmask]
    simp
  · rw [hmask]
    simp

theorem total_bracketIdentifiers : Total (bracketIdentifiers sql) := by
  have hframed : bracketed.framed = true := framed_clauses _ (by simp)
  refine Total.bind (total_replaceSpans hframed fun m hm => ?_) fun out => ?_
  · split
    · rename_i span hspan
      exact (total_lift (exists_bracketed sql hm hspan)).bind fun _ => total_pure _
    · exact total_pure _
  · exact total_report_then (gives_warnOnce _ _).total (total_pure out)

theorem total_tableHints : Total (tableHints sql) := by
  refine (total_replaceSpans (framed_clauses _ (by simp)) fun _ _ => total_pure _).bind fun once => ?_
  refine (total_replaceSpans (framed_clauses _ (by simp)) fun _ _ => total_pure _).bind fun out => ?_
  exact total_report_then (gives_warnOnce _ _).total (total_pure out)

theorem total_fromDual : Total (fromDual sql) := by
  obtain ⟨is, hready, hrun, -⟩ := exists_insertions sql
  have hlift : ∀ raised, (insertAll sql is).run raised =
      (is.foldlM (fun out i => insert? out i.place i.text) sql).map (·, raised) := fun raised =>
    Editing.run_foldlM_lift _ is sql raised
  obtain ⟨out, hout, -⟩ := complete_insertAll_iff hready []
  refine ⟨out, fun raised => ⟨raised, ?_⟩⟩
  rw [hlift] at hout
  obtain ⟨out', hout', heq⟩ := Option.map_eq_some_iff.1 hout
  obtain ⟨rfl, -⟩ := Prod.mk.inj heq
  rw [hrun, hlift, hout']
  rfl

end ToOracle

/-! ## Conversions -/

/-- Every rule of a direction has a result for every query. -/
theorem total_of_mem_rules {d : Direction} {r : Rule} (hr : r ∈ d.rules) (placeholder sql : Text) :
    Total (r.apply placeholder sql) := by
  cases d with
  | oracleToTsql =>
    simp only [Direction.rules, ToTsql.rules, List.mem_cons, List.not_mem_nil, or_false] at hr
    rcases hr with rfl | rfl | rfl | rfl | rfl | rfl | rfl | rfl | rfl | rfl | rfl | rfl | rfl | rfl |
      rfl | rfl | rfl | rfl | rfl
    · exact total_pure _
    · exact Detection.total_detectOracle sql
    · exact ToTsql.total_nvl sql
    · exact ToTsql.total_nvl2 sql
    · exact ToTsql.total_decode sql
    · exact total_pure _
    · exact total_pure _
    · exact ToTsql.total_castTypes sql
    · exact ToTsql.total_trunc sql
    · exact ToTsql.total_dateFunctions sql
    · exact ToTsql.total_conversionFunctions sql
    · exact ToTsql.total_stringFunctions sql
    · exact ToTsql.total_listagg sql placeholder
    · exact ToTsql.total_aggregates sql
    · exact ToTsql.total_regexpFunctions sql
    · exact total_pure _
    · exact ToTsql.total_fromDual sql
    · exact ToTsql.total_rownumLimit sql
    · exact ToTsql.total_fetchFirst sql
  | tsqlToOracle =>
    simp only [Direction.rules, ToOracle.rules, List.mem_cons, List.not_mem_nil, or_false] at hr
    rcases hr with rfl | rfl | rfl | rfl | rfl | rfl | rfl | rfl | rfl | rfl | rfl | rfl | rfl | rfl |
      rfl | rfl
    · exact total_pure _
    · exact Detection.total_detectTsql sql
    · exact ToOracle.total_topToRownum sql
    · exact total_pure _
    · exact ToOracle.total_nullFunctions sql
    · exact ToOracle.total_concatenation sql
    · exact ToOracle.total_dateFunctions sql
    · exact ToOracle.total_conversionFunctions sql
    · exact ToOracle.total_stringFunctions sql
    · exact ToOracle.total_stringAgg sql
    · exact ToOracle.total_aggregates sql
    · exact total_pure _
    · exact ToOracle.total_offsetFetch sql
    · exact ToOracle.total_bracketIdentifiers sql
    · exact ToOracle.total_tableHints sql
    · exact ToOracle.total_fromDual sql

def calledNames : List String :=
  ["NVL", "NVL2", "DECODE", "CAST", "TRUNC", "ADD_MONTHS", "MONTHS_BETWEEN", "LAST_DAY", "TO_CHAR",
    "TO_DATE", "TO_NUMBER", "SUBSTR", "INSTR", "LENGTHB", "LENGTH", "LISTAGG", "MEDIAN", "ISNULL",
    "IIF", "DATEFROMPARTS", "DATEADD", "DATEDIFF", "EOMONTH", "CONVERT", "FORMAT", "SUBSTRING",
    "CHARINDEX", "DATALENGTH", "LEN", "STRING_AGG", "PERCENTILE_CONT", "CONCAT"] ++
    ToTsql.aggregateNames.map Prod.fst ++ ToOracle.aggregateNames.map Prod.fst

/-- The patterns whose matches in the masked query are cut out of the query. -/
def cutPatterns : List Pattern :=
  ToOracle.topClause ::
    ([ToTsql.dualClause, ToTsql.regexpWord, ToTsql.fetchFirstClause, ToOracle.plusByLiteral,
        ToOracle.offsetZeroFetch, ToOracle.bracketed, ToOracle.tableHint, ToOracle.queryOption] ++
      ToTsql.rownumForms.map ToTsql.RownumForm.pattern ++
      calledNames.map fun name => Call.head name.toList)

theorem isBoundary_of_mem_cutPatterns {p : Pattern} (hp : p ∈ cutPatterns) {sql : Text} {m : Match}
    (hm : m ∈ p.findAll (mask sql)) :
    IsBoundary sql m.start ∧ IsBoundary sql m.stop ∧ m.start ≤ m.stop := by
  rcases List.mem_cons.1 hp with rfl | hp
  · obtain ⟨n, q, c, -, hdropped⟩ := ToOracle.exists_topDropped hm
    obtain ⟨head, out, hout⟩ := ToOracle.exists_splice?_of_dropTop? hdropped.drop
    exact isBoundary_of_splice? hout
  have hframed : p.framed = true := by
    rcases List.mem_append.1 hp with hp | hp
    · rcases List.mem_append.1 hp with hp | hp
      · exact framed_clauses p hp
      · obtain ⟨form, hform, rfl⟩ := List.mem_map.1 hp
        exact ToTsql.framed_of_mem_rownumForms form hform
    · obtain ⟨name, hname, rfl⟩ := List.mem_map.1 hp
      have hall : ∀ name ∈ calledNames, isName name.toList = true := by decide
      exact framed_head (hall name hname)
  obtain ⟨hstart, hstop, hlt⟩ := isBoundary_of_mem_findAll hframed hm
  exact ⟨hstart, hstop, Nat.le_of_lt hlt⟩

namespace Converter

theorem total_runSteps {steps : List (Change × (Text → Reporting Text))}
    (h : ∀ s ∈ steps, ∀ sql, Total (s.2 sql)) (sql : Text) : Total (runSteps steps sql) := by
  induction steps generalizing sql with
  | nil => exact total_pure _
  | cons s steps ih =>
    refine (h s (by simp) sql).bind fun next => ?_
    exact (ih (fun s' hs' => h s' (by simp [hs'])) next).bind fun _ => total_pure _

theorem total_customRule (r : CompiledRule) (sql : Text) : Total (r.apply sql) := by
  unfold CompiledRule.apply
  split
  · exact total_pure _
  · exact total_report_then (gives_warnOnce _ _).total (total_pure sql)

theorem total_apply (c : Converter) (d : Direction) (query : Text) : Total (c.apply d query) := by
  unfold Converter.apply
  split
  · exact total_warn_then _ _ (total_pure _)
  · refine total_runSteps (fun s hs sql => ?_) query
    rcases List.mem_append.1 hs with hs | hs
    · obtain ⟨r, hr, rfl⟩ := List.mem_map.1 hs
      exact total_of_mem_rules hr _ sql
    · obtain ⟨r, -, rfl⟩ := List.mem_map.1 hs
      exact total_customRule r sql

/-- Every rule has a result for every query, and so has every conversion; and the query can be cut
wherever the mask is searched for something to cut. -/
theorem isSome_convert? (d : Direction) :
    (∀ r ∈ d.rules, ∀ placeholder sql raised, ((r.apply placeholder sql).run raised).isSome = true) ∧
      (∀ (c : Converter) query, (c.convert? d query).isSome = true) ∧
      ∀ p ∈ cutPatterns, ∀ sql, ∀ m ∈ p.findAll (mask sql),
        IsBoundary sql m.start ∧ IsBoundary sql m.stop ∧ m.start ≤ m.stop := by
  refine ⟨fun r hr placeholder sql raised => ?_, fun c query => ?_, fun p hp sql m hm => ?_⟩
  · obtain ⟨out, hout⟩ := total_of_mem_rules hr placeholder sql
    obtain ⟨raised', hrun⟩ := hout raised
    rw [hrun]
    rfl
  · obtain ⟨⟨sql, changes⟩, hout⟩ := total_apply c d query
    obtain ⟨raised, hrun⟩ := hout []
    rw [convert?, hrun]
    rfl
  · exact isBoundary_of_mem_cutPatterns hp hm

end Converter

end DialectBridge
