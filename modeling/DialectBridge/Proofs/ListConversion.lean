import DialectBridge.Proofs.ListRowLimit
import DialectBridge.Proofs.Totality
/-!
# Converting a list of expressions

The rules from Oracle to T-SQL, one after the other, on a query that lists expressions. The rules for
calls and words take the names of Oracle away, other rules find nothing, and the limit for the rows goes
last; what comes out is tidy (`yields_rules`). So the query passes the checklist
(`expressionQuery_passes`).
-/
namespace DialectBridge
open Pattern Cursor LexState

/-! ## Entities -/

/-- Without an ampersand there is nothing to decode. -/
theorem Entity.decode_eq_self {sql : Text} (h : '&' ∉ sql) : Entity.decode sql = sql := by
  have hsegment : ∀ s ∈ segments sql, pattern.replaceAllBy decodeMatch s.text = s.text := fun s hs => by
    have hamp : '&' ∉ s.text := fun hc => h <| by
      rw [← segments_flatten sql]
      exact List.mem_flatMap.2 ⟨s, hs, hc⟩
    have hnone : Avoids pattern s.text := by
      refine Avoids.seq (Avoids.seq ?_ _) _
      intro u w v hsplit hw
      obtain rfl := matches_sym.1 hw
      exact hamp (by rw [hsplit]; simp)
    rw [replaceAllBy, hnone.findAll]
    rfl
  rw [decode, mapOutsideComments, mapSegments]
  conv_rhs => rw [← segments_flatten sql]
  refine List.flatMap_congr fun s hs => ?_
  rw [hsegment s hs, ite_self]

namespace ToTsql

section
variable {bars : Bool} {gone gone' : List String} {rest sql : Text} {name : String}

/-! ## Rules that find nothing -/

theorem HasName.mono {n : Text} {k : Nat} (h : HasName gone n k) (hsub : gone' ⊆ gone) : HasName gone' n k :=
  h.imp_right fun ⟨e, he, hn, hk, hleft⟩ => ⟨e, he, hn, hk, fun hmem => hleft (hsub hmem)⟩

theorem Lists.mono (h : Lists bars gone rest sql) (hsub : gone' ⊆ gone) : Lists bars gone' rest sql := by
  obtain ⟨ts, hts, rfl⟩ := h
  exact ⟨ts, fun t ht => (hts t ht).mono (fun _ _ hk => hk.mono hsub) fun _ => id, rfl⟩

theorem Lists.decode_entities (hrest : IsTail rest) (h : Lists bars gone rest sql) : Entity.decode sql = sql := by
  obtain ⟨ts, hts, rfl⟩ := h
  exact Entity.decode_eq_self (unescaped_selectText hts hrest.unescaped)

theorem foldlM_eq_self {σ α : Type} {f : Text → α → Editing σ Text} {l : List α} (h : ∀ a ∈ l, f sql a = pure sql) :
    l.foldlM f sql = pure sql := by
  induction l with
  | nil => rfl
  | cons a l ih =>
    rw [List.foldlM_cons, h a (by simp), pure_bind]
    exact ih fun b hb => h b (List.mem_cons_of_mem a hb)

theorem Lists.castTypes (hrest : IsTail rest) (hcast : "CAST" ∈ gone) (h : Lists bars gone rest sql) :
    castTypes sql = pure sql := replaceCalls_of_spares (by decide) (h.spares (by decide) (.inl hcast) hrest)

theorem Lists.conversionFunctions (hrest : IsTail rest)
    (hleft : ∀ n ∈ ["CAST", "VARCHAR", "DATETIME", "DECIMAL"], n ∉ gone) (h : Lists bars gone rest sql) :
    Yields (conversionFunctions sql) (Lists bars ("TO_NUMBER" :: "TO_DATE" :: "TO_CHAR" :: gone) rest) := by
  simp only [List.mem_cons, List.not_mem_nil, or_false, forall_eq_or_imp, forall_eq] at hleft
  obtain ⟨hcast, hvarchar, hdatetime, hdecimal⟩ := hleft
  refine (h.toChar hrest hcast hvarchar).bind fun sql h => ?_
  refine (h.toDate hrest (by simpa using hcast) (by simpa using hdatetime)).bind fun sql h => ?_
  exact h.toNumber hrest (by simpa using hcast) (by simpa using hdecimal)

theorem Lists.listagg (hrest : IsTail rest) (placeholder : Text) (h : Lists bars gone rest sql) :
    listagg placeholder sql = pure sql :=
  replaceCallsWithTail_of_spares (by decide) (h.spares (by decide) (.inr (by decide)) hrest)

theorem Lists.aggregates (hrest : IsTail rest) (h : Lists bars gone rest sql) : aggregates sql = pure sql := by
  have hnames : ∀ names ∈ aggregateNames, DialectBridge.renameCalls sql names.1 names.2 = (pure sql : Reporting Text) := by
    intro names hmem
    obtain ⟨hname, hlist, hmissing⟩ : isName names.1.toList = true ∧ names.1 ∈ listNames ∧
        ∀ e ∈ signatures, e.1 ≠ names.1 :=
      (by decide : ∀ names ∈ aggregateNames, isName names.1.toList = true ∧ names.1 ∈ listNames ∧
        ∀ e ∈ signatures, e.1 ≠ names.1) names hmem
    exact replaceCalls_of_spares hname (h.spares hlist (.inr hmissing) hrest)
  have hmedian : Spares ["MEDIAN"] (mask sql) := h.spares (by decide) (.inr (by decide)) hrest
  rw [ToTsql.aggregates, foldlM_eq_self hnames, pure_bind]
  exact replaceCalls_of_spares (by decide) hmedian

theorem Lists.regexpFunctions (hrest : IsTail rest) (h : Lists bars gone rest sql) :
    regexpFunctions sql = pure sql := by
  have hnone : Avoids regexpWord (mask sql) := avoids_regexpWord fun p hp n hn => by
    obtain ⟨hlist, hmissing⟩ : n ∈ listNames ∧ ∀ e ∈ signatures, e.1 ≠ n :=
      (by decide : ∀ n ∈ regexpFunctionNames, n ∈ listNames ∧ ∀ e ∈ signatures, e.1 ≠ n) n hn
    exact h.spares hlist (.inr hmissing) hrest p hp n (by simp)
  rw [ToTsql.regexpFunctions, hnone.replaceSpans, pure_bind, hnone.occursIn]
  rfl

theorem Lists.setOperators (hrest : IsTail rest) (h : Lists bars gone rest sql) : setOperators sql = sql :=
  have hminus : Spares ["MINUS"] (mask sql) := h.spares (by decide) (.inr (by decide)) hrest
  replaceCode_eq_self (by decide) (by decide) fun q hq => hminus q hq _ (by simp)

theorem Lists.fromDual (hrest : IsTail rest) (h : Lists bars gone rest sql) : fromDual sql = pure sql :=
  fromDual_of_spares (h.spares (by decide) (.inr (by decide)) hrest)

end

/-! ## From lists to tidy queries -/

/-- The names of Oracle that the rules for calls and words take away. -/
def convertedNames : List String := ["LENGTH", "INSTR", "SUBSTR", "TO_NUMBER", "TO_DATE", "TO_CHAR", "LAST_DAY",
  "ADD_MONTHS", "TRUNC", "SYSTIMESTAMP", "SYSDATE", "DECODE", "NVL2", "NVL"]

section
variable {ts : List Term} {table number sql x : Text} {limit : Option Text}

/-- A list of converted terms is tidy, with its table and more behind it. -/
theorem tidy_behindTable (hts : ∀ t ∈ ts, IsTerm false convertedNames t) (htable : IsDigits table)
    (hchars : ∀ c ∈ x, isPlain c = true ∧ c ≠ '|' ∧ c ≠ '&') (hspares : Spares oracleNames x)
    (hbegins : beginsInWord x = false) (hnest : nest 0 x = some 0) :
    Tidy (selectText (ts.map Term.text) (tableText table ++ x)) := by
  have hmissing : ∀ n ∈ oracleNames, n ∈ convertedNames ∨ ∀ e ∈ signatures, e.1 ≠ n := by decide
  have htail := isTail_tableText htable
  refine tidy_selectText hmissing hts ⟨by simp [tableText, tableHead], fun c hc => ?_, ?_⟩ ?_ ?_ ?_ ?_
  · rcases List.mem_append.1 hc with hc | hc
    · exact htail.plain c hc
    · exact (hchars c hc).1
  · rw [List.head?_append_of_ne_nil _ htail.ne_nil]
    exact htail.begins
  · exact spares_append (spares_tableText oracleNames_subset (by decide) htable) hspares
      (.of_begins hbegins _)
  · rw [List.mem_append]
    exact fun hc => hc.elim htail.unbarred fun hc => (hchars _ hc).2.1 rfl
  · rw [List.mem_append]
    exact fun hc => hc.elim htail.unescaped fun hc => (hchars _ hc).2.2 rfl
  · rw [nest_append, nest_tableText htable, Option.bind_some, hnest]

/-- The list with its table, and with a row number in the place of its limit, is tidy. -/
theorem limited_selectText (hts : ∀ t ∈ ts, IsTerm false convertedNames t) (htable : IsDigits table)
    (hnumber : IsDigits number) :
    Limited (selectText (ts.map Term.text) (tableText table)) number
        (selectText (ts.map Term.text) (tableText table ++ (limitHead ++ number))) ∧
      Tidy (selectText (ts.map Term.text) (tableText table) ++ whereHead ++
        (rowNumber ++ (boundHead ++ number))) := by
  have htidy : Tidy (selectText (ts.map Term.text) (tableText table ++ [])) :=
    tidy_behindTable hts htable (by simp) (by decide) rfl rfl
  rw [List.append_nil] at htidy
  have hsplit : ∀ x, selectText (ts.map Term.text) (tableText table ++ x) =
      selectText (ts.map Term.text) (tableText table) ++ x := fun x => by
    simp only [selectText, List.append_assoc]
  have hlive := live_selectText (isTail_tableText htable).toIsRest (live_of_isTerm hts)
  have hends : endsInWord (selectText (ts.map Term.text) (tableText table)) = true := by
    rw [selectText, ← List.append_assoc]
    exact endsInWord_tableText htable _
  refine ⟨⟨htidy, hlive, hends, hnumber, hsplit _⟩, ?_⟩
  · have htext : Tidy (selectText (ts.map Term.text)
        (tableText table ++ (whereHead ++ (rowNumber ++ boundHead) ++ number))) := by
      have hhead : ∀ c ∈ whereHead ++ (rowNumber ++ boundHead), isPlain c = true ∧ c ≠ '|' ∧ c ≠ '&' := by decide
      have hnumber' : ∀ c ∈ number, isPlain c = true ∧ c ≠ '|' ∧ c ≠ '&' ∧ c ≠ '(' ∧ c ≠ ')' := fun c hc => by
        refine ⟨isPlain_of_isWordChar (isWordChar_of_isDigits hnumber c hc), ?_⟩
        have hdigit := hnumber c hc
        refine ⟨?_, ?_, ?_, ?_⟩ <;> rintro rfl <;> exact absurd hdigit (by decide)
      refine tidy_behindTable hts htable (fun c hc => ?_) ?_ ?_ ?_
      · exact (List.mem_append.1 hc).elim (hhead c) fun hc => ⟨(hnumber' c hc).1, (hnumber' c hc).2.1, (hnumber' c hc).2.2.1⟩
      · exact spares_append (by decide) (spares_plainName oracleNames_subset (isWordChar_of_isDigits hnumber)
          ⟨number, hnumber, .inl rfl⟩) (.of_ends (by decide) _)
      · rw [beginsInWord_append (by decide)]
        decide
      · rw [nest_append, (by decide : nest 0 (whereHead ++ (rowNumber ++ boundHead)) = some 0), Option.bind_some]
        exact nest_of_not_mem (fun hc => (hnumber' _ hc).2.2.2.1 rfl) (fun hc => (hnumber' _ hc).2.2.2.2 rfl) 0
    rw [hsplit] at htext
    simpa only [List.append_assoc] using htext

/-- The row limit of a converted list goes, and leaves a tidy query. -/
theorem Lists.yields_rownumLimit (htable : IsDigits table) (hlimit : ∀ n ∈ limit, IsDigits n)
    (h : Lists false convertedNames (tableText table ++ limitText limit) sql) : Yields (rownumLimit sql) Tidy := by
  obtain ⟨ts, hts, rfl⟩ := h
  cases limit with
  | none =>
    have htidy : Tidy (selectText (ts.map Term.text) (tableText table ++ [])) :=
      tidy_behindTable hts htable (by simp) (by decide) rfl rfl
    rw [limitText, rownumLimit_of_spares htidy.sparesRownum]
    exact yields_pure htidy
  | some n =>
    obtain ⟨hlimited, hnumbered⟩ := limited_selectText hts htable (hlimit n rfl)
    exact hlimited.yields_rownumLimit hnumbered

end

end ToTsql

/-! ## The conversion -/

namespace Converter

variable {change : Change} {step : Text → Reporting Text} {more : List (Change × (Text → Reporting Text))}
  {sql : Text} {P Q : Text → Prop}

theorem yields_runSteps_cons (hstep : Yields (step sql) P)
    (hmore : ∀ next, P next → Yields (runSteps more next) fun out => Q out.1) :
    Yields (runSteps ((change, step) :: more) sql) fun out => Q out.1 :=
  hstep.bind fun next hnext => (hmore next hnext).bind fun _ hout => yields_pure hout

/-- A step that finds nothing. -/
theorem yields_runSteps_same (hstep : step sql = pure sql)
    (hmore : Yields (runSteps more sql) fun out => Q out.1) :
    Yields (runSteps ((change, step) :: more) sql) fun out => Q out.1 :=
  yields_runSteps_cons (P := (· = sql)) (by rw [hstep]; exact yields_pure rfl) fun _ heq => heq ▸ hmore

/-- A list of expressions is a query. -/
theorem objection?_selectText (items : List Text) (rest : Text) : objection? (selectText items rest) = none := by
  have hmask : mask (selectText items rest) = "SELECT".toList ++ ' ' :: mask (Text.join [',', ' '] items ++ rest) :=
    mask_plain_append (by decide) _
  have hhead : (mask (selectText items rest)).dropWhile isLead = mask (selectText items rest) := by
    rw [hmask]
    rfl
  have hfound : queryHead.occursIn (mask (selectText items rest)) = true := by
    have hword : Matches (oneOf ["SELECT", "WITH"]) [] "SELECT".toList (' ' :: mask (Text.join [',', ' '] items ++ rest)) :=
      matches_oneOf.2 ⟨word "SELECT".toList, by simp, matches_word.2 (spelled_self _)⟩
    have hstart : Matches (textStart ++ oneOf ["SELECT", "WITH"]) [] "SELECT".toList
        (' ' :: mask (Text.join [',', ' '] items ++ rest)) :=
      matches_seq.2 ⟨[], "SELECT".toList, rfl, matches_check.2 ⟨rfl, rfl⟩, hword⟩
    rw [hmask]
    exact occursIn_of_matches (u := []) (matches_seq.2 ⟨"SELECT".toList, [], rfl, hstart,
      matches_edge.2 ⟨rfl, by rw [beginsInWord_cons]; decide⟩⟩)
  have hshown : (Text.trim (mask (selectText items rest))).isEmpty = false := by
    rw [hmask, List.isEmpty_eq_false_iff]
    exact ToOracle.trimEnd_append_ne_nil (u := "SELECT".toList) (by decide) _
  simp only [objection?, hhead, hshown, hfound]
  rfl

end Converter

namespace ToTsql

section
variable {es : List Text} {table : Text} {limit : Option Text}

/-- A query for expressions is tidy when it is through the rules. -/
theorem yields_rules (hes : ∀ e ∈ es, Expression e) (htable : IsDigits table) (hlimit : ∀ n ∈ limit, IsDigits n)
    (placeholder : Text) :
    Yields (Converter.runSteps (rules.map fun r => (.builtin r.name, r.apply placeholder))
      (expressionQuery es table limit)) fun out => Tidy out.1 := by
  have hrest := isTail_behindList htable hlimit
  have h : Lists true ["CAST"] (tableText table ++ limitText limit) (expressionQuery es table limit) := by
    obtain ⟨ts, hts, rfl⟩ := exists_terms fun e he => (hes e he).exists_term
    exact ⟨ts, hts, rfl⟩
  have hdecode := h.decode_entities hrest
  refine Converter.yields_runSteps_same (congrArg pure hdecode) ?_
  refine Converter.yields_runSteps_cons ⟨_, Detection.gives_detectOracle _, h⟩ fun sql h => ?_
  refine Converter.yields_runSteps_cons (h.nvl hrest (by decide)) fun sql h => ?_
  refine Converter.yields_runSteps_cons (h.nvl2 hrest (by decide) (by decide)) fun sql h => ?_
  refine Converter.yields_runSteps_cons (h.decode hrest (by decide) (by decide)) fun sql h => ?_
  refine Converter.yields_runSteps_cons (yields_pure (h.currentDatetime hrest)) fun sql h => ?_
  refine Converter.yields_runSteps_cons (yields_pure (h.concatenation hrest)) fun sql h => ?_
  refine Converter.yields_runSteps_same (h.castTypes hrest (by decide)) ?_
  have h := h.mono (show convertedNames.drop 9 ⊆ _ from by decide)
  refine Converter.yields_runSteps_cons (h.trunc hrest (by decide) (by decide)) fun sql h => ?_
  refine Converter.yields_runSteps_cons (h.dateFunctions hrest (by decide) (by decide) (by decide)) fun sql h => ?_
  refine Converter.yields_runSteps_cons (h.conversionFunctions hrest (by decide)) fun sql h => ?_
  refine Converter.yields_runSteps_cons (h.stringFunctions hrest (by decide) (by decide) (by decide)) fun sql h => ?_
  refine Converter.yields_runSteps_same (h.listagg hrest placeholder) ?_
  refine Converter.yields_runSteps_same (h.aggregates hrest) ?_
  refine Converter.yields_runSteps_same (h.regexpFunctions hrest) ?_
  refine Converter.yields_runSteps_same (congrArg pure (h.setOperators hrest)) ?_
  refine Converter.yields_runSteps_same (h.fromDual hrest) ?_
  refine Converter.yields_runSteps_cons (h.yields_rownumLimit htable hlimit) fun sql h => ?_
  refine Converter.yields_runSteps_same (fetchFirst_of_spares (h.spares.mono (by decide))) ?_
  exact yields_pure h

/-- A query for expressions, with a limit for its rows or without, is converted to a query that passes
every check. -/
theorem expressionQuery_passes (hes : ∀ e ∈ es, Expression e) (htable : IsDigits table)
    (hlimit : ∀ n ∈ limit, IsDigits n) :
    ∃ c, Converter.builtin.convert? .oracleToTsql (expressionQuery es table limit) = some c ∧
      (∀ o ∈ (Checklist.run c.query (c.warnings.map Warning.category) defaultPlaceholder).outcomes,
        o.passed = true) ∧
      (Checklist.run c.query (c.warnings.map Warning.category) defaultPlaceholder).ready = true := by
  obtain ⟨⟨sql, changes⟩, hgives, htidy⟩ := yields_rules hes htable hlimit defaultPlaceholder
  have hsteps : Converter.builtin.apply .oracleToTsql (expressionQuery es table limit) = Converter.runSteps
      (rules.map fun r => (.builtin r.name, r.apply defaultPlaceholder)) (expressionQuery es table limit) := by
    have hobjection : Converter.objection? (expressionQuery es table limit) = none :=
      Converter.objection?_selectText _ _
    rw [Converter.apply, hobjection]
    rfl
  obtain ⟨raised, hrun⟩ := hgives []
  rw [← hsteps] at hrun
  refine ⟨_, by rw [Converter.convert?, hrun]; rfl, ?_⟩
  exact Tidy.passed htidy _ defaultPlaceholder

end

/-- A call in a call, a literal with bars in it, and a limit. -/
theorem expressionQuery_passes_nested :
    (∀ e ∈ ["NVL(SUBSTR(c1, 2), 'a || b') || SYSDATE".toList], Expression e) ∧ IsDigits "7" ∧
      (∀ n ∈ some "10".toList, IsDigits n) ∧
      ∃ c, Converter.builtin.convert? .oracleToTsql
          (expressionQuery ["NVL(SUBSTR(c1, 2), 'a || b') || SYSDATE".toList] "7" (some "10".toList)) = some c ∧
        (∀ o ∈ (Checklist.run c.query (c.warnings.map Warning.category) defaultPlaceholder).outcomes,
          o.passed = true) ∧
        (Checklist.run c.query (c.warnings.map Warning.category) defaultPlaceholder).ready = true := by
  have hcolumn : Expression "c1".toList := .column (d := "1".toList) (by decide) (by decide)
  have hnumber : Expression "2".toList := .number (by decide) (by decide)
  have hsubstr : Expression (callText "SUBSTR".toList ["c1".toList, "2".toList]) :=
    .call (by decide) (by decide) (by simpa using ⟨hcolumn, hnumber⟩)
  have hliteral : Expression "'a || b'".toList := .literal (t := "a || b".toList) (by decide) (by decide)
  have hnvl : Expression (callText "NVL".toList ["SUBSTR(c1, 2)".toList, "'a || b'".toList]) :=
    .call (by decide) (by decide) (by simpa using ⟨hsubstr, hliteral⟩)
  have hexpression : ∀ e ∈ ["NVL(SUBSTR(c1, 2), 'a || b') || SYSDATE".toList], Expression e :=
    List.forall_mem_singleton.2 (hnvl.concat .sysdate)
  have hlimit : ∀ n ∈ some "10".toList, IsDigits n := by simp [IsDigits]
  have htable : IsDigits "7" := (by decide : ∀ c ∈ "7".toList, c.isDigit = true)
  exact ⟨hexpression, htable, hlimit, expressionQuery_passes hexpression htable hlimit⟩

end ToTsql

end DialectBridge
