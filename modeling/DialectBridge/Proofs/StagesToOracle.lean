import DialectBridge.Proofs.WordRules
import DialectBridge.Proofs.DualCompletion
import DialectBridge.Proofs.MissingSigns
import DialectBridge.Proofs.StagesToTsql
/-!
# Expressions on the way to Oracle

Each rule from T-SQL to Oracle brings a function of a query for expressions of both dialects back, or leaves the
query alone.
-/
namespace DialectBridge.ToOracle
open Pattern LexState ToTsql

section
variable {fs : List (List String → Text)} {rest : Text}

/-! ## Calls -/

theorem nullFunctions_stageText (h : Stages fs rest) :
    nullFunctions (stageText fs rest (sharedNames.drop 1)) = pure (stageText fs rest (sharedNames.drop 2)) := by
  refine (pure_bind_of_eq (h.renameCalls (c := .nvl) (sharedNames.drop 2) (by decide) (by decide) (by decide)
    rfl rfl rfl)).trans ?_
  exact h.replaceCalls_other (by decide) _

theorem castTypes_stageText (h : Stages fs rest) :
    castTypes (stageText fs rest (sharedNames.drop 2)) = pure (stageText fs rest (sharedNames.drop 3)) := by
  refine h.replaceCalls (c := .trunc) _ (by decide) (by decide) fun args hargs hlength call _ hcall => ?_
  obtain ⟨a, rfl⟩ := List.length_eq_one_iff.1 hlength
  have ha : Operand a := hargs a (by simp)
  have hcall : call.args = [a ++ (typeLink ++ "DATE".toList)] := hcall
  have htext : Counterpart.trunc.text (sharedNames.drop 3) [a] = callText "TRUNC".toList [a] := rfl
  obtain ⟨m, hfind, hvalue, htype⟩ := exists_find?_castTarget (t := "DATE".toList) ha.ne_nil ha.last (by decide)
    (by decide)
  have hdate : Text.sameLetters (Text.trim "DATE".toList) "DATE" = true := by decide
  simp only [hcall, hfind, Option.bind_eq_bind, Option.bind_some, htype, hvalue, hdate, if_true, htext]
  simp [callText, Text.join, List.intercalate]

theorem dateAdd_stageText (h : Stages fs rest) :
    dateAdd (stageText fs rest (sharedNames.drop 3)) = pure (stageText fs rest (sharedNames.drop 4)) := by
  refine h.replaceCalls (c := .addMonths) _ (by decide) (by decide) fun args _ hlength call _ hcall => ?_
  obtain ⟨a, b, rfl⟩ := List.length_eq_two.1 hlength
  have hcall : call.args = ["MONTH".toList, b ++ [], a ++ []] := hcall
  rw [List.append_nil, List.append_nil] at hcall
  have htext : Counterpart.addMonths.text (sharedNames.drop 4) [a, b] = callText "ADD_MONTHS".toList [a, b] := rfl
  have hmonth : dateAdd? "MONTH" b a = some ("ADD_MONTHS(" ++ a ++ ", " ++ b ++ ")") := rfl
  simp only [hcall, hmonth, htext]
  simp [callText, Text.join, List.intercalate]

theorem dateFunctions_stageText (h : Stages fs rest) :
    dateFunctions (stageText fs rest (sharedNames.drop 2)) = pure (stageText fs rest (sharedNames.drop 5)) := by
  refine (pure_bind_of_eq (castTypes_stageText h)).trans ?_
  refine (pure_bind_of_eq (h.replaceCalls_other (by decide) _)).trans ?_
  refine (pure_bind_of_eq (dateAdd_stageText h)).trans ?_
  refine (pure_bind_of_eq (h.replaceCalls_other (by decide) _)).trans ?_
  refine h.replaceCalls (c := .lastDay) _ (by decide) (by decide) fun args _ hlength call _ hcall => ?_
  obtain ⟨a, rfl⟩ := List.length_eq_one_iff.1 hlength
  have hcall : call.args = [a ++ []] := hcall
  have htext : Counterpart.lastDay.text (sharedNames.drop 5) [a] = callText "LAST_DAY".toList [a] := rfl
  simp [hcall, htext, callText, Text.join, List.intercalate]

theorem conversionFunctions_stageText (h : Stages fs rest) :
    conversionFunctions (stageText fs rest (sharedNames.drop 5)) = pure (stageText fs rest (sharedNames.drop 5)) :=
  (pure_bind_of_eq (h.replaceCalls_other (by decide) _)).trans (h.replaceCalls_other (by decide) _)

theorem stringFunctions_stageText (h : Stages fs rest) :
    stringFunctions (stageText fs rest (sharedNames.drop 5)) = pure (stageText fs rest []) := by
  refine (pure_bind_of_eq (h.renameCalls (c := .substr) (sharedNames.drop 6) (by decide) (by decide)
    (by decide) rfl rfl rfl)).trans ?_
  refine (pure_bind_of_eq (h.replaceCalls (c := .instr) (sharedNames.drop 7) (by decide) (by decide)
    ?_)).trans ?_
  · intro args _ hlength call _ hcall
    obtain ⟨a, b, rfl⟩ := List.length_eq_two.1 hlength
    have hcall : call.args = [b ++ [], a ++ []] := hcall
    have htext : Counterpart.instr.text (sharedNames.drop 7) [a, b] = callText "INSTR".toList [a, b] := rfl
    simp [hcall, htext, callText, Text.join, List.intercalate]
  refine (pure_bind_of_eq (h.renameCalls_other (by decide) _)).trans ?_
  exact h.renameCalls (c := .length) _ (by decide) (by decide) (by decide) rfl rfl rfl

/-! ## Words -/

/-- The word for the current time has its usual spelling. -/
theorem eq_sysdate_of_spelled (h : Stages fs rest) : ∀ q ∈ pieces (mask (stageText fs rest (sharedNames.drop 1))),
    Spelled "SYSDATE".toList q → q = "SYSDATE".toList := by
  have hsigns : ∀ c ∈ signs, Unicode.isWordChar c = false := by decide
  have hwords : ∀ w ∈ queryWords (sharedNames.drop 1),
      Spelled "SYSDATE".toList w.toList → w.toList = "SYSDATE".toList := by decide
  intro q hq hspelled
  rcases h.worded _ q hq with ⟨c, hc, rfl⟩ | hplain | ⟨w, hw, rfl⟩
  · exact absurd hspelled (not_spelled_singleton (by decide) (hsigns c hc))
  · exact absurd hspelled (not_spelled_plainName (by decide) hplain)
  · exact hwords w hw hspelled

/-- Without the call for the current time, a query has none of the calls of T-SQL. -/
theorem not_spelled_wordRules (h : Stages fs rest) :
    ∀ e ∈ wordRules, ∀ q ∈ pieces (mask (stageText fs rest (sharedNames.drop 1))), ¬ Spelled e.name q := by
  have hnames : ∀ e ∈ wordRules, ∃ name ∈ ["GETDATE", "SYSDATETIME", "GETUTCDATE", "NEWID"], name.toList = e.name := by
    decide
  have hspares : Spares ["GETDATE", "SYSDATETIME", "GETUTCDATE", "NEWID"]
      (mask (stageText fs rest (sharedNames.drop 1))) := h.spares (by decide)
  intro e he q hq
  obtain ⟨name, hname, heq⟩ := hnames e he
  exact heq ▸ hspares q hq name hname

/-- The word for the current time comes back. -/
theorem currentDatetime_stageText (h : Stages fs rest) :
    currentDatetime (stageText fs rest sharedNames) = stageText fs rest (sharedNames.drop 1) := by
  have hundone : WordRule.Undone (ToTsql.dateRule :: wordRules) ToTsql.dateRule :=
    ⟨[], [], dateRule, [timestampRule, utcRule, guidRule], rfl, ⟨rfl, rfl, by decide⟩, by decide, by decide⟩
  have hthere : WordRule.edit [ToTsql.dateRule] (stageText fs rest (sharedNames.drop 1)) = stageText fs rest sharedNames :=
    h.spellNow (by decide)
  have hall : ∀ e ∈ ToTsql.dateRule :: wordRules, ∀ q ∈ pieces (mask (stageText fs rest (sharedNames.drop 1))),
      Spelled e.name q → WordRule.Undone (ToTsql.dateRule :: wordRules) e ∧ e.call = false ∧ q = e.name :=
    List.forall_mem_cons.2 ⟨fun q hq hspelled => ⟨hundone, rfl, eq_sysdate_of_spelled h q hq hspelled⟩,
      fun e he q hq hspelled => absurd hspelled (not_spelled_wordRules h e he q hq)⟩
  rw [← hthere, currentDatetime_eq_edit, ← WordRule.edit_append, List.singleton_append]
  exact WordRule.edit_eq_self_of_pieces hall

theorem concatenation_stageText (h : Stages fs rest) :
    concatenation (stageText fs rest (sharedNames.drop 2)) = pure (stageText fs rest (sharedNames.drop 2)) := by
  have hplus : '+' ∉ mask (stageText fs rest (sharedNames.drop 2)) := h.not_mem (by decide) (by decide) (by decide)
  have hnone : Avoids plusByLiteral (mask (stageText fs rest (sharedNames.drop 2))) := by
    refine avoids_oneOf fun p hp => ?_
    simp only [List.mem_cons, List.not_mem_nil, or_false] at hp
    rcases hp with rfl | rfl
    · exact (avoids_sym hplus).behind _
    · exact ((avoids_sym hplus).seq _).seq _
  refine (pure_bind_of_eq (h.replaceCalls_other (by decide) _)).trans ?_
  refine (pure_bind_of_eq hnone.replaceSpans).trans ?_
  simp [hplus]

theorem setOperators_stageText (h : Stages fs rest) : setOperators (stageText fs rest []) = stageText fs rest [] := by
  have hexcept : Spares ["EXCEPT"] (mask (stageText fs rest [])) := h.spares (by decide)
  exact replaceCode_eq_self (by decide) (by decide) fun q hq => hexcept q hq _ (by simp)

/-! ## The table -/

/-- Without set operators a nested text does not end its block. -/
theorem walk_of_nest {ps : List Text} {t : Text} (hps : ps ⊆ pieces t) (hset : ∀ p ∈ ps, isSetOperator p = false)
    {d k : Nat} (h : nest d ps.flatten = some k) : walk d ps = some k := by
  induction ps generalizing d with
  | nil => exact h
  | cons p ps ih =>
    have hmem : p ∈ pieces t := hps List.mem_cons_self
    have hmore := fun {j} => ih (fun q hq => hps (List.mem_cons_of_mem p hq))
      (fun q hq => hset q (List.mem_cons_of_mem p hq)) (d := j)
    rw [List.flatten_cons, nest_append] at h
    obtain ⟨j, hj, hrest⟩ := Option.bind_eq_some_iff.1 h
    have hthrough : through d p = some j := by
      have hno : isSetOperator p = false := hset p (by simp)
      by_cases h1 : p = ['(']
      · subst h1
        simpa [through, nest] using hj
      · by_cases h2 : p = [')']
        · subst h2
          simpa [through, nest] using hj
        · have hneutral : nest d p = some d := by
            rcases mem_pieces hmem with ⟨c, rfl⟩ | hword
            · exact nest_of_not_mem (fun hm => h1 (by rw [List.mem_singleton.1 hm]))
                (fun hm => h2 (by rw [List.mem_singleton.1 hm])) d
            · exact nest_of_isWordChar_or_isBlank (fun c hc => .inl (hword c hc)) d
          rw [(isOther_of_ne h1 h2 hno) d, ← hneutral, hj]
    rw [walk, hthrough, Option.bind_some]
    exact hmore hrest

/-- The list does not end the block of its heading. -/
theorem walk_list (h : Stages fs rest) :
    walk 0 (tokens (Text.join [',', ' '] ((fs.map fun f => f []).map mask))) = some 0 := by
  have hnest : nest 0 (Text.join [',', ' '] ((fs.map fun f => f []).map mask)) = some 0 :=
    nest_join <| by simpa using fun f hf => ((h.staged f hf).operand []).nested
  have hspares : Spares ["UNION", "INTERSECT", "EXCEPT", "MINUS"]
      (Text.join [',', ' '] ((fs.map fun f => f []).map mask)) :=
    (worded_list h.staged (List.Subset.refl _)).spares (by decide)
  rw [walk_tokens]
  refine walk_of_nest (List.Subset.refl _) (fun p hp => ?_) (by rwa [flatten_pieces])
  rw [Bool.eq_false_iff]
  intro hset
  obtain ⟨n, hn, hspelled⟩ := List.any_eq_true.1 hset
  exact hspares p hp n hn (of_decide_eq_true hspelled)

/-- The list of a query names its table. -/
theorem complete_stageText (h : Stages fs rest) (hfrom : ∃ x, rest = ToTsql.tableHead ++ x) :
    Complete (stageText fs rest []) := by
  obtain ⟨x, rfl⟩ := hfrom
  have hitems : Spares ["SELECT"] (Text.join [',', ' '] ((fs.map fun f => f []).map mask)) :=
    (worded_list h.staged (List.Subset.refl _)).spares (by decide)
  have hclauses : Spares ["SELECT"] (ToTsql.tableHead ++ x) := h.clauses.spares (by decide)
  have hnone : ∀ s ∈ tokens (Text.join [',', ' '] ((fs.map fun f => f []).map mask)) ++ tokens (ToTsql.tableHead ++ x),
      ¬ IsSelect s := by
    intro s hs
    rcases List.mem_append.1 hs with hs | hs
    · exact hitems s (tokens_subset_pieces _ hs) _ (by simp)
    · exact hclauses s (tokens_subset_pieces _ hs) _ (by simp)
  have hhead : tokens listHead = ["SELECT".toList] := by decide
  have hfrom : tokens ToTsql.tableHead = ["FROM".toList] := by decide
  have hbegins : beginsInWord (ToTsql.tableHead ++ x) = false := by
    rw [beginsInWord_append (by decide)]
    decide
  rw [Complete, h.mask_eq, selectText, tokens_append (.of_ends (by decide) _), tokens_append (.of_begins hbegins _),
    hhead, List.singleton_append]
  intro ps s qs hsplit hs
  cases ps with
  | nil =>
    rw [List.nil_append, List.cons.injEq] at hsplit
    rw [← hsplit.2, hasFrom_append_of_walk (walk_list h), tokens_append (.of_ends (by decide) _), hfrom,
      List.singleton_append]
    refine .inr ⟨"FROM".toList, ?_, spelled_self _⟩
    rw [surface_other isOther_from, if_pos rfl]
    exact List.mem_cons_self
  | cons p ps =>
    -- the list and the table head no block
    rw [List.cons_append, List.cons.injEq] at hsplit
    exact absurd hs (hnone s (by rw [hsplit.2]; simp))

/-! ## Rules that find nothing -/

theorem aggregates_stageText (h : Stages fs rest) :
    aggregates (stageText fs rest []) = pure (stageText fs rest []) := by
  have hnames : Foreign (queryWords []) (aggregateNames.map Prod.fst) := by decide
  refine (pure_bind_of_eq (foldlM_eq_self fun names hmem => ?_)).trans (h.replaceCallsWithTail_other (by decide) _)
  exact h.renameCalls_other (fun n hn => hnames n (List.mem_singleton.1 hn ▸ List.mem_map_of_mem hmem)) _

theorem offsetFetch_of_spares {sql : Text} (h : Spares ["OFFSET"] (mask sql)) : offsetFetch sql = pure sql := by
  have hnone : Avoids offsetZeroFetch (mask sql) := by
    iterate 16 refine Avoids.seq ?_ _
    exact avoids_of_spares beforeWord_edge (takesNames_word (by decide)) behindWord_blanks1 h
  exact hnone.replaceSpans

theorem bracketIdentifiers_of_not_mem {sql : Text} (h : '[' ∉ mask sql) : bracketIdentifiers sql = pure sql := by
  have hnone : Avoids bracketed (mask sql) := ((avoids_sym h).seq _).seq _
  refine (pure_bind_of_eq hnone.replaceSpans).trans ?_
  rw [hnone.occursIn]
  rfl

/-- Behind a sign and white space a word begins. -/
theorem beforeWord_sign {c : Char} (hc : Unicode.isWordChar c = false) (p : Pattern) :
    BeforeWord (p ++ sym c ++ blanks) := by
  intro u w v hw _
  obtain ⟨w, b, rfl, hw, hb⟩ := matches_seq.1 hw
  obtain ⟨a, s, rfl, -, hs⟩ := matches_seq.1 hw
  obtain rfl := matches_sym.1 hs
  have hb := matches_many_one.1 hb
  by_cases hnil : b = []
  · rw [hnil, List.append_nil, ← List.append_assoc, endsInWord_append (by simp), endsInWord_singleton, hc]
  · rw [← List.append_assoc]
    exact endsInWord_blanks hnil hb _

theorem behindWord_close : BehindWord (blanks ++ sym ')') := by
  refine .blanks fun u w v hw => ?_
  rw [matches_sym.1 hw]
  rfl

theorem tableHints_of_spares {sql : Text} (h : Spares ["WITH", "NOLOCK", "OPTION"] (mask sql)) :
    tableHints sql = pure sql := by
  have hhint : Avoids tableHint (mask sql) := by
    refine avoids_oneOf fun p hp => ?_
    simp only [List.mem_cons, List.not_mem_nil, or_false] at hp
    rcases hp with rfl | rfl
    · iterate 4 refine Avoids.seq ?_ _
      exact (avoids_of_spares (beforeWord_edge.behind _) (takesNames_word (by decide)) behindWord_parenthesis
        (h.mono (by simp))).of_assoc
    · exact (avoids_of_spares (beforeWord_sign (by decide) _) (takesNames_word (by decide)) behindWord_close
        (h.mono (by simp))).of_assoc
  have hoption : Avoids queryOption (mask sql) :=
    ((avoids_of_spares (beforeWord_edge.behind _) (takesNames_word (by decide)) behindWord_parenthesis
      (h.mono (by simp))).of_assoc).seq _
  rw [tableHints, hhint.replaceSpans, pure_bind, hoption.replaceSpans, pure_bind, hhint.occursIn, hoption.occursIn]
  rfl

/-- A query goes through the rules to its text in Oracle if its limit does. -/
theorem yields_rules_stageText (h : Stages fs rest) (hfrom : ∃ x, rest = ToTsql.tableHead ++ x) {sql : Text}
    (hescape : '&' ∉ sql) (htop : Yields (topToRownum sql) (· = stageText fs rest sharedNames)) (placeholder : Text) :
    Yields (Converter.runSteps (rules.map fun r => (.builtin r.name, r.apply placeholder)) sql)
      fun out => stageText fs rest [] = out.1 := by
  have hspares : ∀ {names}, Foreign (queryWords []) names → Spares names (mask (stageText fs rest [])) := h.spares
  have hdecode := Entity.decode_eq_self hescape
  refine Converter.yields_runSteps_same (congrArg pure hdecode) ?_
  refine Converter.yields_runSteps_cons (P := (· = sql)) ⟨_, Detection.gives_detectTsql _, rfl⟩ ?_
  rintro _ rfl
  refine Converter.yields_runSteps_cons htop ?_
  rintro _ rfl
  refine Converter.yields_runSteps_to (congrArg pure (currentDatetime_stageText h)) ?_
  refine Converter.yields_runSteps_to (nullFunctions_stageText h) ?_
  refine Converter.yields_runSteps_same (concatenation_stageText h) ?_
  refine Converter.yields_runSteps_to (dateFunctions_stageText h) ?_
  refine Converter.yields_runSteps_same (conversionFunctions_stageText h) ?_
  refine Converter.yields_runSteps_to (stringFunctions_stageText h) ?_
  refine Converter.yields_runSteps_same (h.replaceCallsWithTail_other (by decide) _) ?_
  refine Converter.yields_runSteps_same (aggregates_stageText h) ?_
  refine Converter.yields_runSteps_same (congrArg pure (setOperators_stageText h)) ?_
  refine Converter.yields_runSteps_same (offsetFetch_of_spares (hspares (by decide))) ?_
  have hbracket : '[' ∉ mask (stageText fs rest []) := h.not_mem (by decide) (by decide) (by decide)
  refine Converter.yields_runSteps_same (bracketIdentifiers_of_not_mem hbracket) ?_
  refine Converter.yields_runSteps_same (tableHints_of_spares (hspares (by decide))) ?_
  refine Converter.yields_runSteps_cons (P := (· = stageText fs rest []))
    ⟨_, fun s => ⟨s, (fromDual_eq_self_iff _ s).2 (complete_stageText h hfrom)⟩, rfl⟩ ?_
  rintro _ rfl
  exact yields_pure rfl

end

end DialectBridge.ToOracle
