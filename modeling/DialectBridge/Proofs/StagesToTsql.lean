import DialectBridge.Proofs.ListConversion
import DialectBridge.Proofs.StageCalls
/-!
# Expressions on the way to T-SQL

Each rule from Oracle to T-SQL takes a query for expressions of both dialects to its next stage, or leaves it
alone.
-/
namespace DialectBridge
open Pattern LexState

/-- The names of Oracle that are converted in both directions, in the order in which the rules from T-SQL to Oracle
bring them back. -/
def sharedNames : List String :=
  ["SYSDATE", "NVL", "TRUNC", "ADD_MONTHS", "LAST_DAY", "SUBSTR", "INSTR", "LENGTH"]

section
variable {c : Counterpart} {done done' : List String} {fs : List (List String → Text)} {f : List String → Text}
  {rest : Text} {σ : Type}

/-- Renaming a function takes it to the other dialect if its arguments are the same there. -/
theorem moves_rename (hlead : c.lead = none) (hflipped : c.flipped = false) (htype : c.type = none) :
    Moves (σ := σ) c done done' fun call => return some ((c.name done').toList ++ "(" ++ call.inner ++ ")") := by
  intro args _ _ call hinner _
  have hsame : ∀ done, c.arguments done args = args := fun done => by
    simp [Counterpart.arguments, Counterpart.ordered, Counterpart.suffix, hlead, hflipped, htype]
  rw [hsame] at hinner
  simp [hinner, Counterpart.text, hsame, callText]

theorem Stages.renameCalls (h : Stages fs rest) (done' : List String) {old new : String} (hdiffer : Differ c done done')
    (hold : c.name done = old) (hnew : c.name done' = new) (hlead : c.lead = none) (hflipped : c.flipped = false)
    (htype : c.type = none) :
    (renameCalls (stageText fs rest done) old.toList new.toList : Editing σ Text) =
      pure (stageText fs rest done') :=
  h.replaceCalls done' hdiffer hold (hnew ▸ moves_rename hlead hflipped htype)

theorem pure_bind_of_eq {α β : Type} {x : Editing σ α} {a : α} {f : α → Editing σ β} (h : x = pure a) :
    x >>= f = f a := by
  rw [h, pure_bind]

/-- Calls of functions that the query does not have are not looked at. -/
theorem Stages.replaceCalls_other (h : Stages fs rest) {name : String} (hname : Foreign (queryWords done) [name])
    (r : Call → Editing σ (Option Text)) :
    DialectBridge.replaceCalls (stageText fs rest done) name.toList r = pure (stageText fs rest done) :=
  ToTsql.replaceCalls_of_spares (hname name (by simp)).1 (h.spares hname)

theorem Stages.replaceCallsWithTail_other (h : Stages fs rest) {name : String}
    (hname : Foreign (queryWords done) [name]) (r : Call → Editing σ (Option (Text × Nat))) :
    replaceCallsWithTail (stageText fs rest done) name.toList r = pure (stageText fs rest done) :=
  ToTsql.replaceCallsWithTail_of_spares (hname name (by simp)).1 (h.spares hname)

theorem Stages.renameCalls_other (h : Stages fs rest) {name : String} (hname : Foreign (queryWords done) [name])
    (new : Text) : (DialectBridge.renameCalls (stageText fs rest done) name.toList new : Editing σ Text) =
      pure (stageText fs rest done) := h.replaceCalls_other hname _

end

/-! ## The current time -/

section
variable {done : List String} {fs : List (List String → Text)} {f : List String → Text} {rest : Text} {n : String}

def nowCall : Text := "GETDATE()"

def spellNow (t : Text) : Text := replaceCode (keyword "SYSDATE") nowCall t

theorem oracle_ne_sysdate : ∀ c ∈ counterparts, c.oracle ≠ "SYSDATE" := by decide

theorem isName_sysdate : isName "SYSDATE".toList = true := by decide

theorem spellNow_word (hname : isName n.toList = true) (hne : ¬ Spelled "SYSDATE".toList n.toList) :
    spellNow n.toList = n.toList := by
  have hword := isWord_of_isName hname
  refine replaceCode_eq_self isName_sysdate (by decide) fun q hq => ?_
  rw [pieces_mask_word hword, List.mem_singleton] at hq
  rwa [hq]

theorem not_spelled_sysdate : ∀ c ∈ counterparts,
    (∀ done, ¬ Spelled "SYSDATE".toList (c.name done).toList) ∧ (∀ u ∈ c.lead, ¬ Spelled "SYSDATE".toList u.toList) ∧
      ∀ q ∈ pieces c.suffix, ¬ Spelled "SYSDATE".toList q := by
  have hnames : ∀ c ∈ counterparts, ∀ n ∈ [c.oracle, c.tsql], ¬ Spelled "SYSDATE".toList n.toList := by decide
  have hrest : ∀ c ∈ counterparts, (∀ u ∈ c.lead, ¬ Spelled "SYSDATE".toList u.toList) ∧
      ∀ q ∈ pieces c.suffix, ¬ Spelled "SYSDATE".toList q := by decide
  exact fun c hc => ⟨fun done => hnames c hc _ (name_mem c done), hrest c hc⟩

theorem suffix_plain : ∀ c ∈ counterparts, ∀ d ∈ c.suffix, isPlain d = true := by decide

theorem beginsInWord_suffix : ∀ c ∈ counterparts, beginsInWord c.suffix = false := by decide

theorem spellNow_suffix {c : Counterpart} {a : Text} (hc : c ∈ counterparts) (ha : Operand a) :
    spellNow (a ++ c.suffix) = spellNow a ++ c.suffix := by
  have hjoins : (code.after a).joins c.suffix = true :=
    joins_of_head?_isPlain ha.live fun d hd => suffix_plain c hc d (List.mem_of_mem_head? hd)
  have hself : spellNow c.suffix = c.suffix := by
    refine replaceCode_eq_self isName_sysdate (by decide) fun q hq => ?_
    rw [mask_of_all_isPlain (suffix_plain c hc)] at hq
    exact (not_spelled_sysdate c hc).2.2 q hq
  rw [spellNow, replaceCode_append isName_sysdate (by decide) hjoins (.of_begins (beginsInWord_suffix c hc) _)]
  exact congrArg _ hself

/-- The word for the current time is replaced wherever it stands in an expression. -/
theorem Staged.spellNow (h : Staged f) (hdone : "SYSDATE" ∉ done) : spellNow (f done) = f ("SYSDATE" :: done) := by
  have hdollar : '$' ∉ nowCall := by decide
  have hedits : EditsWords ((keyword "SYSDATE").replaceAll nowCall) := ToTsql.editsWords_keyword isName_sysdate hdollar
  induction h with
  | leaf ht =>
    refine replaceCode_eq_self isName_sysdate hdollar fun q hq => ?_
    have hspares : Spares ["SYSDATE"] (mask _) := ht.worded.spares (by decide)
    exact hspares q hq _ (by simp)
  | sysdate =>
    have hword : nowText done = "SYSDATE" := if_neg hdone
    have hcall : nowText ("SYSDATE" :: done) = nowCall := if_pos (by simp)
    rw [hword, hcall, DialectBridge.spellNow, replaceCode, mapCode_of_all_isPlain (by decide) (by decide),
      replaceAll_keyword isName_sysdate hdollar, respell_of_spelled isName_sysdate (spelled_self _)]
  | @call c args hc _ hargs ih =>
    obtain ⟨hnames, hleads, -⟩ := not_spelled_sysdate c hc
    obtain ⟨-, -, hlead, -⟩ := isName_counterparts c hc
    have hiff : c.oracle ∈ done ↔ c.oracle ∈ "SYSDATE" :: done := by simp [oracle_ne_sysdate c hc]
    have hname : c.name ("SYSDATE" :: done) = c.name done := by simp only [Counterpart.name, ← hiff]
    have hword := isWord_of_isName (isName_name hc done)
    have hoperands : ∀ a ∈ args.map fun a => a done, Operand a := by simpa using fun a ha => (hargs a ha).operand done
    have hall : List.Forall₂ (fun a b => Operand a ∧ DialectBridge.spellNow a = b) (args.map fun a => a done)
        (args.map fun a => a ("SYSDATE" :: done)) := by
      rw [List.forall₂_map_left_iff, List.forall₂_map_right_iff, List.forall₂_same]
      exact fun a ha => ⟨(hargs a ha).operand done, ih a ha⟩
    have harguments := forall₂_arguments (c := c) hiff
      (fun u hu => ⟨operand_word (isWord_of_isName (hlead u hu)), spellNow_word (hlead u hu) (hleads u hu)⟩)
      (fun a b hab => ⟨operand_suffix hc hab.1, hab.2 ▸ spellNow_suffix hc hab.1⟩) hall
    have hmap : (c.arguments done (args.map fun a => a done)).map DialectBridge.spellNow =
        c.arguments ("SYSDATE" :: done) (args.map fun a => a ("SYSDATE" :: done)) := by
      rw [← List.forall₂_eq_eq_eq, List.forall₂_map_left_iff]
      exact harguments.imp fun _ _ hab => hab.2
    have hsame : (keyword "SYSDATE").replaceAll nowCall (c.name done).toList = (c.name done).toList := by
      have := spellNow_word (isName_name hc done) (hnames done)
      rwa [DialectBridge.spellNow, replaceCode, mapCode_of_all_isPlain
        (fun d hd => isPlain_of_isWordChar (hword.chars d hd)) hword.ne_nil] at this
    have hlive : ∀ t ∈ c.arguments done (args.map fun a => a done), (code.after t).live = true := fun t ht =>
      (operand_arguments hc hoperands t ht).live
    have hcall := hedits.mapCode_callText hword hlive
    rw [hsame] at hcall
    simp only [Counterpart.text, hname, ← hmap]
    exact hcall

/-- The word for the current time is replaced in the whole query. -/
theorem Stages.spellNow (h : Stages fs rest) (hdone : "SYSDATE" ∉ done) :
    spellNow (stageText fs rest done) = stageText fs rest ("SYSDATE" :: done) := by
  have hdollar : '$' ∉ nowCall := by decide
  have hid : (keyword "SYSDATE").replaceAll nowCall rest = rest := by
    rw [replaceAll_keyword isName_sysdate hdollar]
    have hspares : Spares ["SYSDATE"] rest := h.clauses.spares (by decide)
    exact respell_eq_self fun q hq => hspares q hq _ (by simp)
  have hhead : (keyword "SYSDATE").replaceAll nowCall listHead = listHead := by
    rw [replaceAll_keyword isName_sysdate hdollar]
    exact respell_eq_self (by decide)
  have hitems : (fs.map fun f => f done).map DialectBridge.spellNow = fs.map fun f => f ("SYSDATE" :: done) := by
    rw [List.map_map]
    exact List.map_congr_left fun f hf => (h.staged f hf).spellNow hdone
  have hedits : EditsWords ((keyword "SYSDATE").replaceAll nowCall) := ToTsql.editsWords_keyword isName_sysdate hdollar
  rw [stageText, DialectBridge.spellNow, replaceCode, hedits.mapCode_selectText h.toIsRest hhead hid (h.live done)]
  exact congrArg (selectText · rest) hitems

end

/-- A step that makes another text. -/
theorem Converter.yields_runSteps_to {change : Change} {step : Text → Reporting Text}
    {more : List (Change × (Text → Reporting Text))} {sql next : Text} {Q : Text → Prop} (hstep : step sql = pure next)
    (hmore : Yields (runSteps more next) fun out => Q out.1) :
    Yields (runSteps ((change, step) :: more) sql) fun out => Q out.1 :=
  yields_runSteps_cons (P := (· = next)) (by rw [hstep]; exact yields_pure rfl) fun _ heq => heq ▸ hmore

namespace ToTsql

section
variable {fs : List (List String → Text)} {f : List String → Text} {rest : Text}

/-! ## Calls -/

theorem nvl_stageText (h : Stages fs rest) : nvl (stageText fs rest []) = pure (stageText fs rest ["NVL"]) :=
  h.renameCalls (c := .nvl) _ (by decide) (by decide) (by decide) rfl rfl rfl

theorem trunc_stageText (h : Stages fs rest) :
    trunc (stageText fs rest (sharedNames.take 2)) = pure (stageText fs rest (sharedNames.take 3)) := by
  refine h.replaceCalls (c := .trunc) _ (by decide) (by decide) fun args _ hlength call _ hcall => ?_
  obtain ⟨a, rfl⟩ := List.length_eq_one_iff.1 hlength
  have hcall : call.args = [a] := hcall
  have htext : Counterpart.trunc.text (sharedNames.take 3) [a] = "CAST(" ++ a ++ " AS DATE)" := by
    have hargs : Counterpart.trunc.text (sharedNames.take 3) [a] = callText "CAST".toList [a ++ " AS DATE"] := rfl
    simp [hargs, callText, Text.join, List.intercalate]
  simp only [hcall, htext]

theorem dateFunctions_stageText (h : Stages fs rest) :
    dateFunctions (stageText fs rest (sharedNames.take 3)) = pure (stageText fs rest (sharedNames.take 5)) := by
  refine (pure_bind_of_eq (h.replaceCalls (c := .addMonths) (sharedNames.take 4) (by decide) (by decide)
    ?_)).trans ?_
  · intro args _ hlength call _ hcall
    obtain ⟨a, b, rfl⟩ := List.length_eq_two.1 hlength
    have hcall : call.args = [a, b] := hcall
    have htext : Counterpart.addMonths.text (sharedNames.take 4) [a, b] =
        callText "DATEADD".toList ["MONTH", b ++ [], a ++ []] := rfl
    simp [hcall, htext, callText, Text.join, List.intercalate]
  refine (pure_bind_of_eq (h.replaceCalls_other (by decide) _)).trans ?_
  exact h.renameCalls (c := .lastDay) _ (by decide) (by decide) (by decide) rfl rfl rfl

theorem stringFunctions_stageText (h : Stages fs rest) :
    stringFunctions (stageText fs rest (sharedNames.take 5)) = pure (stageText fs rest sharedNames) := by
  refine (pure_bind_of_eq (h.replaceCalls (c := .substr) (sharedNames.take 6) (by decide) (by decide)
    ?_)).trans ?_
  · intro args _ hlength call hinner hcall
    obtain ⟨a, b, c, rfl⟩ := List.length_eq_three.1 hlength
    have hcall : call.args = [a, b, c] := hcall
    have hinner : call.inner = Text.join [',', ' '] [a, b, c] := hinner
    have htext : Counterpart.substr.text (sharedNames.take 6) [a, b, c] =
        callText "SUBSTRING".toList [a ++ [], b ++ [], c ++ []] := rfl
    simp [hcall, hinner, htext, callText]
  refine (pure_bind_of_eq (h.replaceCalls (c := .instr) (sharedNames.take 7) (by decide) (by decide)
    ?_)).trans ?_
  · intro args _ hlength call _ hcall
    obtain ⟨a, b, rfl⟩ := List.length_eq_two.1 hlength
    have hcall : call.args = [a, b] := hcall
    have htext : Counterpart.instr.text (sharedNames.take 7) [a, b] =
        callText "CHARINDEX".toList [b ++ [], a ++ []] := rfl
    simp [hcall, htext, callText, Text.join, List.intercalate]
  refine (pure_bind_of_eq (h.renameCalls_other (by decide) _)).trans ?_
  exact h.renameCalls (c := .length) _ (by decide) (by decide) (by decide) rfl rfl rfl

theorem conversionFunctions_stageText (h : Stages fs rest) :
    conversionFunctions (stageText fs rest (sharedNames.take 5)) = pure (stageText fs rest (sharedNames.take 5)) := by
  refine (pure_bind_of_eq (h.replaceCalls_other (by decide) _)).trans ?_
  refine (pure_bind_of_eq (h.replaceCalls_other (by decide) _)).trans ?_
  exact h.replaceCalls_other (by decide) _

/-! ## Words -/

theorem currentDatetime_stageText (h : Stages fs rest) :
    currentDatetime (stageText fs rest ["NVL"]) = stageText fs rest (sharedNames.take 2) := by
  have hnow : replaceCode (keyword "SYSDATE") "GETDATE()" (stageText fs rest ["NVL"]) =
      stageText fs rest (sharedNames.take 2) := h.spellNow (by decide)
  have htime : Spares ["SYSTIMESTAMP"] (mask (stageText fs rest (sharedNames.take 2))) := h.spares (by decide)
  rw [currentDatetime, hnow,
    replaceCode_eq_self (by decide) (by decide) fun q hq => htime q hq _ (by simp),
    replaceCode_sysGuid (h.spares (by decide))]

theorem concatenation_stageText (h : Stages fs rest) :
    concatenation (stageText fs rest (sharedNames.take 2)) = stageText fs rest (sharedNames.take 2) := by
  have hbars : '|' ∉ mask (stageText fs rest (sharedNames.take 2)) := h.not_mem (by decide) (by decide) (by decide)
  refine mapCode_eq_self fun x hx => replaceAll_bars_eq_self fun hmem => hbars ?_
  rw [← flatten_pieces x, List.mem_flatten] at hmem
  obtain ⟨q, hq, hmem⟩ := hmem
  rw [← flatten_pieces (mask _)]
  exact List.mem_flatten_of_mem (hx q hq) hmem

/-! ## Rules that find nothing -/

theorem aggregates_stageText (h : Stages fs rest) :
    aggregates (stageText fs rest sharedNames) = pure (stageText fs rest sharedNames) := by
  have hnames : Foreign (queryWords sharedNames) (aggregateNames.map Prod.fst) := by decide
  refine (pure_bind_of_eq (foldlM_eq_self fun names hmem => ?_)).trans (h.replaceCalls_other (by decide) _)
  exact h.renameCalls_other (fun n hn => hnames n (List.mem_singleton.1 hn ▸ List.mem_map_of_mem hmem)) _

theorem regexpFunctions_stageText (h : Stages fs rest) :
    regexpFunctions (stageText fs rest sharedNames) = pure (stageText fs rest sharedNames) := by
  have hnone : Avoids regexpWord (mask (stageText fs rest sharedNames)) := avoids_regexpWord (h.spares (by decide))
  rw [regexpFunctions, hnone.replaceSpans, pure_bind, hnone.occursIn]
  rfl

theorem setOperators_stageText (h : Stages fs rest) :
    setOperators (stageText fs rest sharedNames) = stageText fs rest sharedNames := by
  have hminus : Spares ["MINUS"] (mask (stageText fs rest sharedNames)) := h.spares (by decide)
  exact replaceCode_eq_self (by decide) (by decide) fun q hq => hminus q hq _ (by simp)

/-- The rules for entities, calls and words. -/
theorem yields_rules_stageText (h : Stages fs rest) (placeholder : Text) {Q : Text → Prop}
    (hmore : Yields (Converter.runSteps ((rules.drop 17).map fun r => (.builtin r.name, r.apply placeholder))
      (stageText fs rest sharedNames)) fun out => Q out.1) :
    Yields (Converter.runSteps (rules.map fun r => (.builtin r.name, r.apply placeholder)) (stageText fs rest []))
      fun out => Q out.1 := by
  refine Converter.yields_runSteps_same (congrArg pure (Entity.decode_eq_self (h.not_escaped []))) ?_
  refine Converter.yields_runSteps_cons (P := (· = stageText fs rest []))
    ⟨_, Detection.gives_detectOracle _, rfl⟩ ?_
  rintro _ rfl
  refine Converter.yields_runSteps_to (nvl_stageText h) ?_
  refine Converter.yields_runSteps_same (h.replaceCalls_other (by decide) _) ?_
  refine Converter.yields_runSteps_same (h.replaceCalls_other (by decide) _) ?_
  refine Converter.yields_runSteps_to (congrArg pure (currentDatetime_stageText h)) ?_
  refine Converter.yields_runSteps_same (congrArg pure (concatenation_stageText h)) ?_
  refine Converter.yields_runSteps_same (h.replaceCalls_other (by decide) _) ?_
  refine Converter.yields_runSteps_to (trunc_stageText h) ?_
  refine Converter.yields_runSteps_to (dateFunctions_stageText h) ?_
  refine Converter.yields_runSteps_same (conversionFunctions_stageText h) ?_
  refine Converter.yields_runSteps_to (stringFunctions_stageText h) ?_
  refine Converter.yields_runSteps_same (h.replaceCallsWithTail_other (by decide) _) ?_
  refine Converter.yields_runSteps_same (aggregates_stageText h) ?_
  refine Converter.yields_runSteps_same (regexpFunctions_stageText h) ?_
  refine Converter.yields_runSteps_same (congrArg pure (setOperators_stageText h)) ?_
  refine Converter.yields_runSteps_same (fromDual_of_spares (h.spares (by decide))) ?_
  exact hmore

end

end ToTsql

end DialectBridge
