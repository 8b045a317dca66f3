import DialectBridge.ToOracle.Calls
import DialectBridge.ToTsql.Calls
import DialectBridge.Proofs.SharedExpressions
import DialectBridge.Proofs.TermLists
/-!
# From one stage to the next

A rule that replaces the calls of a function takes an expression from the stage in which the function is in
one dialect to the stage in which it is in the other (`Staged.swept`), and the list of a query with it
(`replaceCalls_stages`). This holds of every function that has a counterpart, in both directions.
-/
namespace DialectBridge
open Pattern LexState ToTsql

def restWords : List String := ["FROM", "WHERE", "ROWNUM"]

def clauseWords : List String := "SELECT" :: restWords

/-- The words of a query besides the names of functions. -/
def fixedWords : List String := ["SYSDATE", "GETDATE", "AS"] ++ clauseWords

section
variable {c : Counterpart} {done done' : List String} {f : List String → Text}

/-- The names of different functions are different, and no other word of an expression is one of them. -/
theorem not_spelled_counterparts : ∀ c ∈ counterparts, ∀ n ∈ [c.oracle, c.tsql],
    Foreign fixedWords [n] ∧ ∀ d ∈ counterparts,
      (∀ n' ∈ [d.oracle, d.tsql], Spelled n.toList n'.toList → d = c) ∧
      (∀ u ∈ d.lead, ¬ Spelled n.toList u.toList) ∧ ∀ t ∈ d.type, ¬ Spelled n.toList t.toList := by
  decide

theorem arguments_ne_nil {args : List Text} (h : args ≠ []) : c.arguments done args ≠ [] := by
  rw [Counterpart.arguments, Counterpart.ordered]
  split_ifs <;> simp [h]

theorem name_mem (c : Counterpart) (done : List String) : c.name done ∈ [c.oracle, c.tsql] := by
  rw [Counterpart.name]
  split_ifs <;> simp

/-- The stages differ in the function `c` only. -/
structure Differ (c : Counterpart) (done done' : List String) : Prop where
  mem : c ∈ counterparts
  others : ∀ d ∈ counterparts, d ≠ c → (d.oracle ∈ done ↔ d.oracle ∈ done')
  now : "SYSDATE" ∈ done ↔ "SYSDATE" ∈ done'

instance (c : Counterpart) (done done' : List String) : Decidable (Differ c done done') :=
  decidable_of_iff (c ∈ counterparts ∧ (∀ d ∈ counterparts, d ≠ c → (d.oracle ∈ done ↔ d.oracle ∈ done')) ∧
    ("SYSDATE" ∈ done ↔ "SYSDATE" ∈ done')) ⟨fun ⟨a, b, c⟩ => ⟨a, b, c⟩, fun ⟨a, b, c⟩ => ⟨a, b, c⟩⟩

/-- What a rule makes of a call of the function `c` whose arguments are at the stage `done'` by then. -/
def Moves {σ : Type} (c : Counterpart) (done done' : List String) (f : Call → Editing σ (Option Text)) : Prop :=
  ∀ args : List Text, (∀ a ∈ args, Operand a) → args.length = c.arity → ∀ call : Call,
    call.inner = Text.join [',', ' '] (c.arguments done args) → call.args = c.arguments done args →
      f call = pure (some (c.text done' args))

variable {σ : Type} {r : Call → Editing σ (Option Text)} {g : Call → Editing σ (Option (Text × Nat))} {n : String}
  {d : Counterpart} {words : List String}

/-- A text without functions is left alone. -/
theorem swept_fixed (hc : c ∈ counterparts) (hn : n ∈ [c.oracle, c.tsql]) {t : Text} (ht : Operand t)
    (hworded : Worded words (mask t)) (hsub : words ⊆ fixedWords) : Swept n.toList g t t := by
  obtain ⟨hforeign, -⟩ := not_spelled_counterparts c hc n hn
  exact .self (hforeign n (by simp)).1 ht fun p hp => (hworded.mono hsub).spares hforeign p hp _ (by simp)

/-- What T-SQL makes of the arguments of another call has no calls but those of the arguments. -/
theorem swept_arguments (hc : c ∈ counterparts) (hn : n ∈ [c.oracle, c.tsql]) (hd : d ∈ counterparts)
    (hdone : d.oracle ∈ done ↔ d.oracle ∈ done') {args args' : List Text}
    (h : List.Forall₂ (Swept n.toList g) args args') :
    List.Forall₂ (Swept n.toList g) (d.arguments done args) (d.arguments done' args') := by
  obtain ⟨hforeign, hothers⟩ := not_spelled_counterparts c hc n hn
  obtain ⟨hname, -, hnone⟩ := hforeign n (by simp)
  obtain ⟨-, -, hlead, htype, -⟩ := isName_counterparts d hd
  obtain ⟨-, hlead', htype'⟩ := hothers d hd
  refine forall₂_arguments hdone (fun u hu => .word hname (isWord_of_isName (hlead u hu)) (hlead' u hu)) (fun a b hab => ?_) h
  rw [Counterpart.suffix]
  cases hct : d.type with
  | none => simpa using hab
  | some t =>
    have hpieces : ∀ p ∈ pieces typeLink, ¬ Spelled n.toList p := by
      have hsplit : pieces typeLink = [[' '], "AS".toList, [' ']] := by decide
      have hblank := not_spelled_singleton hname (by decide : Unicode.isWordChar ' ' = false)
      simp only [hsplit, List.forall_mem_cons, List.not_mem_nil, false_imp_iff, implies_true, and_true]
      exact ⟨hblank, hnone "AS" (by decide), hblank⟩
    exact .linked hname hab isLink_typeLink hpieces (.word hname (isWord_of_isName (htype t hct)) (htype' t hct))

/-- The calls of a function are taken to the next stage. -/
theorem Staged.swept (hdiffer : Differ c done done') (hr : Moves c done done' r) (h : Staged f) :
    Swept (c.name done).toList (fun call => do return (← r call).map fun r => (r, 0)) (f done) (f done') := by
  have hname := isName_name hdiffer.mem done
  have hmem := name_mem c done
  obtain ⟨-, hothers⟩ := not_spelled_counterparts c hdiffer.mem _ hmem
  induction h with
  | leaf ht => exact swept_fixed hdiffer.mem hmem ht.operand ht.worded (by simp)
  | sysdate =>
    have hnow : nowText done' = nowText done := by simp only [nowText, hdiffer.now]
    have hworded : Worded ["SYSDATE", "GETDATE"] (mask (nowText done)) := worded_now (by split_ifs <;> simp)
    rw [hnow]
    exact swept_fixed hdiffer.mem hmem (operand_now done) hworded (by decide)
  | @call d args hd hlength hargs ih =>
    have hall : List.Forall₂ (Swept (c.name done).toList fun call => do return (← r call).map fun r => (r, 0))
        (args.map fun a => a done) (args.map fun a => a done') := by
      rw [List.forall₂_map_left_iff, List.forall₂_map_right_iff, List.forall₂_same]
      exact ih
    by_cases hdc : d = c
    · subst hdc
      have hoperands : ∀ a ∈ args.map fun a => a done', Operand a := (Swept.operands hall).2
      have hne : args ≠ [] := by
        rintro rfl
        exact (isName_counterparts d hd).2.2.2.2 hlength.symm
      refine .call hname (spelled_self _) (arguments_ne_nil (by simpa using hne))
        (swept_arguments hd hmem hd Iff.rfl hall) (operand_text hd hoperands) fun call hinner hcall => ?_
      rw [hr _ hoperands (by simpa using hlength) call hinner hcall]
      rfl
    · have hiff := hdiffer.others d hd hdc
      have hsame : d.name done' = d.name done := by simp only [Counterpart.name, hiff]
      have hmoved := Swept.call_of_ne hname (isWord_of_isName (isName_name hd done))
        (fun hspelled => hdc ((hothers d hd).1 _ (name_mem d done) hspelled)) (swept_arguments hdiffer.mem hmem hd hiff hall)
      simpa only [Counterpart.text, hsame] using hmoved

end

/-! ## Queries -/

/-- The words of a query, when the names of `done` are in T-SQL. -/
def queryWords (done : List String) : List String := clauseWords ++ stageWords done

/-- A query for expressions, when the names of `done` are in T-SQL. -/
def stageText (fs : List (List String → Text)) (rest : Text) (done : List String) : Text :=
  selectText (fs.map fun f => f done) rest

/-- The items of a query are expressions, and what stands behind them has no words but those of its clauses. -/
structure Stages (fs : List (List String → Text)) (rest : Text) : Prop extends IsRest rest where
  staged : ∀ f ∈ fs, Staged f
  clauses : Worded restWords rest
  unescaped : '&' ∉ rest

section
variable {c : Counterpart} {done done' : List String} {fs : List (List String → Text)} {rest : Text} {σ : Type}
  {words : List String} {table : Text} {limit : Option Text}

theorem worded_of_pieces {t : Text}
    (h : ∀ p ∈ pieces t, (∃ c ∈ signs, p = [c]) ∨ ∃ w ∈ words, p = w.toList) : Worded words t := fun p hp =>
  (h p hp).imp_right .inr

theorem worded_tableText (ht : IsDigits table) : Worded ["FROM"] (tableText table) := by
  have htable : Worded ["FROM"] ('t' :: table) :=
    worded_plainName (isWordChar_tableName ht) ⟨table, ht, .inr (.inr rfl)⟩
  exact (worded_of_pieces (by decide)).append htable (.of_ends (by decide) _)

/-- What stands behind the list has no words but those of its clauses. -/
theorem worded_behindList (ht : IsDigits table) (hl : ∀ n ∈ limit, IsDigits n) :
    Worded restWords (tableText table ++ limitText limit) := by
  refine ((worded_tableText ht).mono (by decide)).append ?_ (.of_begins begins_limitText _)
  cases limit with
  | none => exact worded_signs (by simp [limitText])
  | some n =>
    have hn := hl n rfl
    exact (worded_of_pieces (by decide)).append (worded_plainName (isWordChar_of_isDigits hn) ⟨n, hn, .inl rfl⟩)
      (.of_ends (by decide) _)

theorem stages_behindList (hfs : ∀ f ∈ fs, Staged f) (ht : IsDigits table) (hl : ∀ n ∈ limit, IsDigits n) :
    Stages fs (tableText table ++ limitText limit) :=
  have htail := isTail_behindList ht hl
  ⟨htail.toIsRest, hfs, worded_behindList ht hl, htail.unescaped⟩

theorem Stages.operand (h : Stages fs rest) (done : List String) : ∀ t ∈ fs.map fun f => f done, Operand t := by
  simpa using fun f hf => (h.staged f hf).operand done

theorem Stages.live (h : Stages fs rest) (done : List String) :
    ∀ t ∈ fs.map fun f => f done, (code.after t).live = true := fun t ht => (h.operand done t ht).live

/-- The code of the list. -/
theorem Stages.mask_eq (h : Stages fs rest) (done : List String) :
    mask (stageText fs rest done) = selectText ((fs.map fun f => f done).map mask) rest :=
  mask_selectText h.toIsRest (h.live done)

theorem worded_join {items : List Text} (h : ∀ t ∈ items, Worded words t) :
    Worded words (Text.join [',', ' '] items) := by
  intro p hp
  rcases mem_pieces_join hp with ⟨t, ht, hp⟩ | rfl | rfl
  · exact h t ht p hp
  · exact .inl ⟨',', by decide, rfl⟩
  · exact .inl ⟨' ', by decide, rfl⟩

/-- The code of a list of expressions is made of their words. -/
theorem worded_list (hfs : ∀ f ∈ fs, Staged f) (hsub : stageWords done ⊆ words) :
    Worded words (Text.join [',', ' '] ((fs.map fun f => f done).map mask)) :=
  worded_join <| by simpa using fun f hf => (hfs f hf).worded done hsub

/-- The code of the query is made of its words and of those behind its list. -/
theorem Stages.worded_of (h : Stages fs rest) (hclauses : Worded words rest) (hselect : "SELECT" ∈ words)
    (hsub : stageWords done ⊆ words) : Worded words (mask (stageText fs rest done)) := by
  have hhead : Worded ["SELECT"] listHead := worded_of_pieces (by decide)
  rw [h.mask_eq, selectText]
  have hlist := (worded_list h.staged hsub).append hclauses (h.toIsRest.cut _).apart
  exact (hhead.mono (by simpa using hselect)).append hlist (.of_ends (by decide) _)

/-- The code of the query is made of its words. -/
theorem Stages.worded (h : Stages fs rest) (done : List String) :
    Worded (queryWords done) (mask (stageText fs rest done)) := by
  have hclauses : restWords ⊆ queryWords done := fun w hw => List.mem_append_left _ (List.mem_cons_of_mem _ hw)
  exact h.worded_of (h.clauses.mono hclauses) List.mem_cons_self fun w hw => List.mem_append_right _ hw

/-- Names that are no words of the query are not in its code. -/
theorem Stages.spares (h : Stages fs rest) {names : List String} (hnames : Foreign (queryWords done) names) :
    Spares names (mask (stageText fs rest done)) := (h.worded done).spares hnames

/-- The code has no sign but those of expressions. -/
theorem Stages.not_mem (h : Stages fs rest) {d : Char} (hd : Unicode.isWordChar d = false) (hsign : d ∉ signs)
    (hwords : ∀ w ∈ queryWords done, isName w.toList = true) : d ∉ mask (stageText fs rest done) :=
  (h.worded done).not_mem hwords hd hsign

/-- Nothing in the query needs to be decoded. -/
theorem Stages.not_escaped (h : Stages fs rest) (done : List String) : '&' ∉ stageText fs rest done := by
  intro hmem
  rcases mem_selectText hmem with ⟨t, ht, hmem⟩ | hmem | hmem
  · obtain ⟨f, hf, rfl⟩ := List.mem_map.1 ht
    exact (h.staged f hf).clean done _ (by simp) hmem
  · exact h.unescaped hmem
  · exact absurd hmem (by decide)

/-- A rule takes the query to the next stage. -/
theorem Stages.replaceCalls (h : Stages fs rest) (done' : List String) {r : Call → Editing σ (Option Text)} {name : String}
    (hdiffer : Differ c done done') (hname : c.name done = name) (hr : Moves c done done' r) :
    replaceCalls (stageText fs rest done) name.toList r = pure (stageText fs rest done') := by
  subst hname
  obtain ⟨hforeign, -⟩ := not_spelled_counterparts c hdiffer.mem _ (name_mem c done)
  obtain ⟨hname, -, hclauses⟩ := hforeign (c.name done) (by simp)
  have hall : List.Forall₂ (Swept (c.name done).toList fun call => do return (← r call).map fun r => (r, 0))
      (fs.map fun f => f done) (fs.map fun f => f done') := by
    rw [List.forall₂_map_left_iff, List.forall₂_map_right_iff, List.forall₂_same]
    exact fun f hf => (h.staged f hf).swept hdiffer hr
  exact replaceCalls_selectText hname (hclauses "SELECT" (by decide)) h.toIsRest
    (fun p hp => (h.clauses.mono (by decide)).spares hforeign p hp _ (by simp)) hall

end

end DialectBridge
