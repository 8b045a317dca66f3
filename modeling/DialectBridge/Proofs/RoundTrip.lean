import DialectBridge.Proofs.StagesToOracle
import DialectBridge.Proofs.TopToRownum
/-!
# There and back

A query for expressions of both dialects, with a limit for its rows or without, is converted to T-SQL, where its
limit is a `TOP` (`yields_toTsql`), and from there to the query that it was (`expressionQuery_roundTrips`).
-/
namespace DialectBridge
open Pattern LexState ToTsql

/-! ## Words -/

/-- A plain name is no `TOP`. -/
theorem isTopWord_plainName {p : Text} (h : IsPlainName p) : ToOracle.isTopWord p = false := by
  have htake : IsPlainName (p.take 3) := by
    obtain ⟨d, hd, h⟩ := h
    have hdigits : ∀ k, ∀ c ∈ d.take k, c.isDigit = true := fun k c hc => hd c (List.mem_of_mem_take hc)
    rcases h with rfl | rfl | rfl
    · exact ⟨_, hdigits 3, .inl rfl⟩
    · exact ⟨_, hdigits 2, .inr (.inl rfl)⟩
    · exact ⟨_, hdigits 2, .inr (.inr rfl)⟩
  have hnot : ¬ Spelled "TOP".toList (p.take 3) := not_spelled_plainName (by decide) htake
  rw [ToOracle.isTopWord, decide_eq_false hnot, Bool.false_and]

theorem Worded.topWords_eq_zero {words : List String} {sql : Text} (h : Worded words (mask sql))
    (hwords : ∀ w ∈ words, ToOracle.isTopWord w.toList = false) : ToOracle.topWords sql = 0 := by
  refine List.countP_eq_zero.2 fun p hp => ?_
  rw [Bool.not_eq_true]
  rcases h p (tokens_subset_pieces _ hp) with ⟨c, hc, rfl⟩ | hplain | ⟨w, hw, rfl⟩
  · exact (by decide : ∀ c ∈ signs, ToOracle.isTopWord [c] = false) c hc
  · exact isTopWord_plainName hplain
  · exact hwords w hw

/-- A query for expressions has no `TOP`. -/
theorem Stages.topWords_eq_zero {fs : List (List String → Text)} {rest : Text} (h : Stages fs rest) :
    ToOracle.topWords (stageText fs rest sharedNames) = 0 :=
  (h.worded _).topWords_eq_zero (by decide)

/-! ## The query in T-SQL -/

/-- The list of a query in T-SQL, with its table. -/
def listText (fs : List (List String → Text)) (table : Text) : Text :=
  Text.join [',', ' '] (fs.map fun f => f sharedNames) ++ tableText table

def tsqlQuery (fs : List (List String → Text)) (table : Text) : Option Nat → Text
  | none => headWord ++ ' ' :: listText fs table
  | some n => headWord ++ (topText n ++ ' ' :: listText fs table)

section
variable {fs : List (List String → Text)} {table : Text} {limit : Option Nat} {n : Nat}

theorem stages_tableText (hfs : ∀ f ∈ fs, Staged f) (ht : IsDigits table) : Stages fs (tableText table) :=
  have htail := isTail_tableText ht
  ⟨htail.toIsRest, hfs, (worded_tableText ht).mono (by decide), htail.unescaped⟩

/-- The list with more behind it. -/
theorem stageText_eq (x : Text) :
    stageText fs (tableText table ++ x) sharedNames = listHead ++ (listText fs table ++ x) := by
  rw [stageText, selectText, listText, List.append_assoc]

/-- The list with its heading. -/
theorem head_listText : headWord ++ ' ' :: listText fs table = stageText fs (tableText table) sharedNames := rfl

theorem mask_head_listText :
    mask (stageText fs (tableText table) sharedNames) = listHead ++ mask (listText fs table) :=
  mask_plain_append (x := listHead) (by decide) _

theorem mask_listText (h : Stages fs (tableText table)) :
    mask (listText fs table) = Text.join [',', ' '] ((fs.map fun f => f sharedNames).map mask) ++ tableText table :=
  List.append_cancel_left (mask_head_listText.symm.trans (h.mask_eq sharedNames))

theorem worded_listText (h : Stages fs (tableText table)) (ht : IsDigits table) :
    Worded ("FROM" :: stageWords sharedNames) (mask (listText fs table)) := by
  rw [mask_listText h]
  exact (worded_list h.staged (List.subset_cons_self _ _)).append ((worded_tableText ht).mono (by simp))
    (h.toIsRest.cut _).apart

theorem endsInWord_listText (ht : IsDigits table) (a : Text) : endsInWord (a ++ listText fs table) = true := by
  rw [listText, ← List.append_assoc]
  exact endsInWord_tableText ht _

/-- The query without its limit is tidy. -/
theorem tidy_listText (h : Stages fs (tableText table)) (ht : IsDigits table) :
    Tidy (stageText fs (tableText table) sharedNames) := by
  have hworded : Worded ("SELECT" :: "FROM" :: stageWords sharedNames)
      (mask (stageText fs (tableText table) sharedNames)) :=
    h.worded_of ((worded_tableText ht).mono (by simp)) (by simp) fun w hw =>
      List.mem_cons_of_mem _ (List.mem_cons_of_mem _ hw)
  exact ⟨hworded.spares (by decide), hworded.not_mem (by decide) (by decide) (by decide), h.not_escaped _,
    nest_selectText h.toIsRest (h.operand _) (nest_tableText ht), exists_select h.toIsRest (h.live _)⟩

theorem limited_listText (h : Stages fs (tableText table)) (ht : IsDigits table) (n : Nat) :
    Limited (headWord ++ ' ' :: listText fs table) (Text.ofNat n)
      (stageText fs (tableText table ++ limitText (some (Text.ofNat n))) sharedNames) where
  tidy := tidy_listText h ht
  live := live_selectText h.toIsRest (h.live _)
  ends := endsInWord_listText ht listHead
  digits := fun _ hc => Text.isDigit_of_mem_ofNat hc
  split := stageText_eq _

theorem exists_join_cons (t : Text) (ts : List Text) : ∃ y, Text.join [',', ' '] (t :: ts) = t ++ y := by
  by_cases hnil : ts = []
  · exact ⟨[], by simp [hnil, Text.join, List.intercalate]⟩
  · exact ⟨_, by rw [Text.join_cons hnil, List.append_assoc]⟩

theorem unlimited_listText (h : Stages fs (tableText table)) (ht : IsDigits table) (hne : fs ≠ []) :
    ToOracle.Unlimited (listText fs table) where
  live := by
    have hlive := live_selectText h.toIsRest (h.live sharedNames)
    rwa [← stageText, ← head_listText, show headWord ++ ' ' :: listText fs table = listHead ++ listText fs table from rfl,
      after_append, after_select] at hlive
  nested := by
    have hnest := nest_selectText h.toIsRest (h.operand sharedNames) (nest_tableText ht)
    rwa [← stageText, mask_head_listText, nest_append, (by decide : nest 0 listHead = some 0), Option.bind_some] at hnest
  first := by
    obtain ⟨f, fs, rfl⟩ := List.exists_cons_of_ne_nil hne
    have hf := h.staged f (by simp)
    have hmask := mask_ne_nil (hf.operand sharedNames).ne_nil
    obtain ⟨y, hy⟩ := exists_join_cons (mask (f sharedNames)) ((fs.map fun f => f sharedNames).map mask)
    rw [mask_listText h, List.map_cons, List.map_cons, hy, List.append_assoc, List.head?_append_of_ne_nil _ hmask]
    exact hf.first sharedNames
  last := ToOracle.isBlockEnd_of_getLast? (endsInWord_listText ht [])
  oneLine := by
    rw [listText, List.mem_append]
    rintro (hmem | hmem)
    · rcases mem_join hmem with ⟨t, hmap, hmem⟩ | hmem | hmem
      · obtain ⟨f, hf, rfl⟩ := List.mem_map.1 hmap
        exact (h.staged f hf).clean sharedNames _ (by simp) hmem
      · exact absurd hmem (by decide)
      · exact absurd hmem (by decide)
    · have hchars : ∀ c ∈ tableText table ++ limitText none, c.isDigit = true ∨ c ∈ tableHead ++ ['t'] ++ limitHead :=
        mem_behindList ht (by simp)
      rcases hchars _ (List.mem_append_left _ hmem) with hdigit | hmem
      · exact absurd hdigit (by decide)
      · exact absurd hmem (by decide)
  spares := (worded_listText h ht).spares (by decide)

/-- The query is tidy in T-SQL. -/
theorem tidy_tsqlQuery (h : Stages fs (tableText table)) (ht : IsDigits table) : Tidy (tsqlQuery fs table limit) := by
  cases limit with
  | none => exact tidy_listText h ht
  | some n => exact (tidy_listText h ht).insert_top (x := []) (.inl (spelled_self _)) rfl rfl rfl n

/-- The limit becomes a `TOP`. -/
theorem rownumLimit_stageText (h : Stages fs (tableText table)) (ht : IsDigits table)
    (hlimit : ∀ n ∈ limit, n < Nat.pow 2 64) :
    rownumLimit (stageText fs (tableText table ++ limitText (limit.map Text.ofNat)) sharedNames) =
      pure (tsqlQuery fs table limit) := by
  cases limit with
  | none =>
    have hfront : stageText fs (tableText table ++ limitText none) sharedNames =
        stageText fs (tableText table) sharedNames := by
      rw [limitText, List.append_nil]
    rw [Option.map_none, hfront]
    exact rownumLimit_of_spares (tidy_listText h ht).sparesRownum
  | some n =>
    have hworded : Worded ("FROM" :: stageWords sharedNames) (mask (' ' :: listText fs table)) := by
      have hmask : mask (' ' :: listText fs table) = [' '] ++ mask (listText fs table) :=
        mask_plain_append (x := [' ']) (by decide) _
      rw [hmask]
      exact (worded_signs (by decide)).append (worded_listText h ht) (.of_ends (by decide) _)
    exact (limited_listText h ht n).bounded.rownumLimit_sole (hlimit n rfl) rfl (hworded.spares (by decide))

/-- The `TOP` becomes the limit again. -/
theorem yields_topToRownum_tsqlQuery (h : Stages fs (tableText table ++ limitText (limit.map Text.ofNat)))
    (ht : IsDigits table) (hne : fs ≠ []) :
    Yields (ToOracle.topToRownum (tsqlQuery fs table limit))
      (· = stageText fs (tableText table ++ limitText (limit.map Text.ofNat)) sharedNames) := by
  have hfree := h.topWords_eq_zero
  rw [stageText_eq] at hfree ⊢
  cases limit with
  | none =>
    have hsame : listHead ++ (listText fs table ++ limitText none) = tsqlQuery fs table none := by
      rw [limitText, List.append_nil]
      rfl
    rw [Option.map_none, hsame] at hfree ⊢
    rw [ToOracle.topToRownum, fixpoint, ToOracle.repeatStep_topStep_of_topWords hfree]
    exact yields_pure rfl
  | some n => exact (unlimited_listText (stages_tableText h.staged ht) ht hne).yields_topToRownum n hfree

/-- The way to T-SQL. -/
theorem yields_toTsql (h : Stages fs (tableText table ++ limitText (limit.map Text.ofNat))) (ht : IsDigits table)
    (hlimit : ∀ n ∈ limit, n < Nat.pow 2 64) (placeholder : Text) :
    Yields (Converter.runSteps (ToTsql.rules.map fun r => (.builtin r.name, r.apply placeholder))
      (stageText fs (tableText table ++ limitText (limit.map Text.ofNat)) []))
      fun out => tsqlQuery fs table limit = out.1 := by
  have htable := stages_tableText h.staged ht
  refine ToTsql.yields_rules_stageText h placeholder ?_
  refine Converter.yields_runSteps_to (rownumLimit_stageText htable ht hlimit) ?_
  refine Converter.yields_runSteps_same (fetchFirst_of_spares ((tidy_tsqlQuery htable ht).spares.mono (by decide))) ?_
  exact yields_pure rfl

/-- The way back. -/
theorem yields_toOracle (h : Stages fs (tableText table ++ limitText (limit.map Text.ofNat))) (ht : IsDigits table)
    (hne : fs ≠ []) (placeholder : Text) :
    Yields (Converter.runSteps (ToOracle.rules.map fun r => (.builtin r.name, r.apply placeholder))
      (tsqlQuery fs table limit))
      fun out => stageText fs (tableText table ++ limitText (limit.map Text.ofNat)) [] = out.1 :=
  ToOracle.yields_rules_stageText h ⟨_, List.append_assoc ..⟩
    (tidy_tsqlQuery (stages_tableText h.staged ht) ht).unescaped (yields_topToRownum_tsqlQuery h ht hne) placeholder

theorem objection?_tsqlQuery : Converter.objection? (tsqlQuery fs table limit) = none := by
  cases limit with
  | none =>
    rw [tsqlQuery, head_listText]
    exact Converter.objection?_selectText _ _
  | some n =>
    have hhead : listHead ++ "TOP ".toList = headWord ++ " TOP ".toList := by decide
    have hsplit : selectText [] ("TOP ".toList ++ (Text.ofNat n ++ ' ' :: listText fs table)) =
        tsqlQuery fs table (some n) := by
      rw [selectText, tsqlQuery, topText, Text.join, List.intercalate_nil, List.nil_append, ← List.append_assoc, hhead]
      simp only [List.append_assoc]
    exact hsplit ▸ Converter.objection?_selectText _ _

end

/-! ## Conversions -/

/-- What the rules make of a query is what it is converted to. -/
theorem Converter.exists_convert? {d : Direction} {sql : Text} {P : Text → Prop} (hobjection : objection? sql = none)
    (h : Yields (runSteps (d.rules.map fun r => (.builtin r.name, r.apply defaultPlaceholder)) sql)
      fun out => P out.1) :
    ∃ c, builtin.convert? d sql = some c ∧ P c.query := by
  obtain ⟨⟨out, changes⟩, hgives, hout⟩ := h
  have hsteps : builtin.apply d sql =
      runSteps (d.rules.map fun r => (.builtin r.name, r.apply defaultPlaceholder)) sql := by
    rw [apply, hobjection, steps]
    exact congrArg (runSteps · sql) (List.append_nil _)
  obtain ⟨raised, hrun⟩ := hgives []
  rw [← hsteps] at hrun
  exact ⟨_, by rw [convert?, hrun]; rfl, hout⟩

/-- Two conversions that meet at a text take a query there and back. -/
theorem Converter.exists_convert?_opposite {d : Direction} {sql mid : Text} (hsql : objection? sql = none)
    (hmid : objection? mid = none)
    (hthere : Yields (runSteps (d.rules.map fun r => (.builtin r.name, r.apply defaultPlaceholder)) sql)
      fun out => mid = out.1)
    (hback : Yields (runSteps (d.opposite.rules.map fun r => (.builtin r.name, r.apply defaultPlaceholder)) mid)
      fun out => sql = out.1) :
    ∃ there back, builtin.convert? d sql = some there ∧
      builtin.convert? d.opposite there.query = some back ∧ back.query = sql := by
  obtain ⟨there, hconvert, rfl⟩ := exists_convert? (P := (mid = ·)) hsql hthere
  obtain ⟨back, hconvert', hsame⟩ := exists_convert? (P := (sql = ·)) hmid hback
  exact ⟨there, back, hconvert, hconvert', hsame.symm⟩

/-- A query for expressions of both dialects, with a limit for its rows or without, comes back from T-SQL as it was. -/
theorem expressionQuery_roundTrips {es : List Text} {table : Text} {limit : Option Nat} (hne : es ≠ [])
    (hes : ∀ e ∈ es, SharedExpression e) (htable : IsDigits table) (hlimit : ∀ n ∈ limit, n < Nat.pow 2 64) :
    ∃ there back,
      Converter.builtin.convert? .oracleToTsql (expressionQuery es table (limit.map Text.ofNat)) = some there ∧
      Converter.builtin.convert? .tsqlToOracle there.query = some back ∧
      back.query = expressionQuery es table (limit.map Text.ofNat) := by
  obtain ⟨fs, hfs, rfl⟩ := exists_stages fun e he => (hes e he).exists_staged
  have hnumber : ∀ n ∈ limit.map Text.ofNat, IsDigits n := fun t ht => by
    obtain ⟨n, -, rfl⟩ := Option.map_eq_some_iff.1 ht
    exact fun c hc => Text.isDigit_of_mem_ofNat hc
  have h := stages_behindList hfs htable hnumber
  exact Converter.exists_convert?_opposite (d := .oracleToTsql) (Converter.objection?_selectText _ _)
    objection?_tsqlQuery (yields_toTsql h htable hlimit defaultPlaceholder)
    (yields_toOracle h htable (by simpa using hne) defaultPlaceholder)

/-- Calls in calls, some of which turn their arguments around, and a limit. -/
theorem expressionQuery_roundTrips_nested :
    ["TRUNC(ADD_MONTHS(SYSDATE, INSTR(c1, 'a, b')))".toList, "c2".toList] ≠ [] ∧
      (∀ e ∈ ["TRUNC(ADD_MONTHS(SYSDATE, INSTR(c1, 'a, b')))".toList, "c2".toList], SharedExpression e) ∧
      IsDigits "7" ∧ (∀ n ∈ some 10, n < Nat.pow 2 64) ∧
      ∃ there back,
        Converter.builtin.convert? .oracleToTsql
          (expressionQuery ["TRUNC(ADD_MONTHS(SYSDATE, INSTR(c1, 'a, b')))".toList, "c2".toList] "7"
            ((some 10).map Text.ofNat)) = some there ∧
        Converter.builtin.convert? .tsqlToOracle there.query = some back ∧
        back.query = expressionQuery ["TRUNC(ADD_MONTHS(SYSDATE, INSTR(c1, 'a, b')))".toList, "c2".toList] "7"
          ((some 10).map Text.ofNat) := by
  have hcolumn : ∀ d ∈ ["1".toList, "2".toList], SharedExpression ('c' :: d) := fun d hd =>
    .column ((by decide : ∀ d ∈ ["1".toList, "2".toList], ∀ c ∈ d, c.isDigit = true) d hd)
  have hliteral : SharedExpression "'a, b'".toList := .literal (t := "a, b".toList) (by decide)
  have hinstr : SharedExpression (callText "INSTR".toList ["c1".toList, "'a, b'".toList]) :=
    .call (c := .instr) (by decide) (by decide) (by simpa using ⟨hcolumn "1".toList (by simp), hliteral⟩)
  have hmonths : SharedExpression (callText "ADD_MONTHS".toList ["SYSDATE".toList, "INSTR(c1, 'a, b')".toList]) :=
    .call (c := .addMonths) (by decide) (by decide) (by simpa using ⟨.sysdate, hinstr⟩)
  have htrunc : SharedExpression (callText "TRUNC".toList ["ADD_MONTHS(SYSDATE, INSTR(c1, 'a, b'))".toList]) :=
    .call (c := .trunc) (by decide) (by decide) (List.forall_mem_singleton.2 hmonths)
  have hall : ∀ e ∈ ["TRUNC(ADD_MONTHS(SYSDATE, INSTR(c1, 'a, b')))".toList, "c2".toList], SharedExpression e :=
    List.forall_mem_cons.2 ⟨htrunc, List.forall_mem_singleton.2 (hcolumn "2".toList (by simp))⟩
  have htable : IsDigits "7" := (by decide : ∀ c ∈ "7".toList, c.isDigit = true)
  have hlimit : ∀ n ∈ some 10, n < Nat.pow 2 64 := by decide
  exact ⟨List.cons_ne_nil _ _, hall, htable, hlimit,
    expressionQuery_roundTrips (List.cons_ne_nil _ _) hall htable hlimit⟩

end DialectBridge
