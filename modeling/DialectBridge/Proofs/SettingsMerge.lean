import DialectBridge.Config.Settings
import Mathlib.Data.List.Forall2
import Mathlib.Data.List.Induction
/-!
# What several files say together

Adding a file to the settings appends its rules, fills in a missing placeholder and adds the categories that
are not there yet. Three lemmas say what a whole run of files adds to given settings (`rules_foldl_add`,
`placeholder_foldl_add`, `suppressed_foldl_add`). From them, the settings of the files in two lists are made
of the settings of each list (`merge_append`).

The rules are compiled one after the other. A valid rule asks for one thing and has all that this needs, so only
its text can be wrong: compiling gives the action that the rule asks for, or the error of its text
(`CustomRule.action_of_validate`). The first text that is wrong is the one that is reported
(`Settings.compileRules_merge`).
-/
namespace DialectBridge

/-- The rules of a file, each with the path of the file. -/
def LoadedConfig.sourced (file : LoadedConfig) : List (Text × CustomRule) :=
  file.config.rules.map fun r => (file.path, r)

namespace Settings
variable (s : Settings) (files xs ys : List LoadedConfig)

/-! ## Categories, each once -/

theorem addCategories_append (seen a b : List Category) :
    addCategories seen (a ++ b) = addCategories (addCategories seen a) b :=
  List.foldl_append

theorem addCategories_concat (seen more : List Category) (c : Category) :
    addCategories seen (more ++ [c]) =
      if c ∈ addCategories seen more then addCategories seen more else addCategories seen more ++ [c] :=
  addCategories_append seen more [c]

/-- What is seen already stays in front, and drops out of the rest. -/
theorem addCategories_eq_append_filter (seen more : List Category) :
    addCategories seen more = seen ++ (addCategories [] more).filter (· ∉ seen) := by
  induction more using List.reverseRecOn with
  | nil => simp [addCategories]
  | append_singleton more c ih =>
    rw [addCategories_concat, addCategories_concat, ih]
    by_cases hmore : c ∈ more
    · -- the category is known on both sides
      simp [mem_addCategories, hmore, em]
    · by_cases hseen : c ∈ seen <;> simp [mem_addCategories, hmore, hseen]

/-! ## A run of files -/

theorem rules_foldl_add : (files.foldl add s).rules = s.rules ++ files.flatMap LoadedConfig.sourced := by
  induction files generalizing s with
  | nil => simp
  | cons file files ih =>
    rw [List.foldl_cons, ih, List.flatMap_cons, ← List.append_assoc]
    rfl

theorem placeholder_foldl_add :
    (files.foldl add s).placeholder = s.placeholder.or (files.findSome? (·.config.placeholder)) := by
  induction files generalizing s with
  | nil => simp
  | cons file files ih =>
    rw [List.foldl_cons, ih, List.findSome?_cons]
    cases hs : s.placeholder <;> cases hf : file.config.placeholder <;> simp [add, hs, hf]

theorem suppressed_foldl_add :
    (files.foldl add s).suppressed = addCategories s.suppressed (files.flatMap (·.config.suppressed)) := by
  induction files generalizing s with
  | nil => rfl
  | cons file files ih =>
    rw [List.foldl_cons, ih, List.flatMap_cons, addCategories_append]
    rfl

/-! ## All files -/

theorem rules_merge : (merge files).rules = files.flatMap LoadedConfig.sourced :=
  rules_foldl_add empty files

theorem placeholder_merge : (merge files).placeholder = files.findSome? (·.config.placeholder) := by
  rw [merge, placeholder_foldl_add]
  rfl

theorem suppressed_merge :
    (merge files).suppressed = addCategories [] (files.flatMap (·.config.suppressed)) :=
  suppressed_foldl_add empty files

theorem nodup_suppressed_merge : (merge files).suppressed.Nodup := by
  rw [suppressed_merge]
  exact nodup_addCategories List.nodup_nil _

/-- A category is suppressed if and only if some file says so. -/
theorem mem_suppressed_merge {c : Category} :
    c ∈ (merge files).suppressed ↔ ∃ file ∈ files, c ∈ file.config.suppressed := by
  rw [suppressed_merge, mem_addCategories, List.mem_flatMap]
  simp

/-- The settings of some files and of more files behind them: the rules follow one another, the first
placeholder counts, and the categories of the second files that the first ones lack go behind. In any
settings each rule comes with the path of its file, in the order of the files, and the categories are those
of all files, each once. -/
theorem merge_append :
    (merge (xs ++ ys)).rules = (merge xs).rules ++ (merge ys).rules ∧
    (merge (xs ++ ys)).placeholder = (merge xs).placeholder.or (merge ys).placeholder ∧
    (merge (xs ++ ys)).suppressed =
      (merge xs).suppressed ++ (merge ys).suppressed.filter (· ∉ (merge xs).suppressed) ∧
    ∀ files, (merge files).rules = files.flatMap LoadedConfig.sourced ∧ (merge files).suppressed.Nodup ∧
      ∀ c, c ∈ (merge files).suppressed ↔ ∃ file ∈ files, c ∈ file.config.suppressed := by
  refine ⟨?_, ?_, ?_, fun files => ⟨rules_merge files, nodup_suppressed_merge files, fun c => mem_suppressed_merge files⟩⟩
  · rw [rules_merge, rules_merge, rules_merge, List.flatMap_append]
  · rw [placeholder_merge, placeholder_merge, placeholder_merge, List.findSome?_append]
  · rw [suppressed_merge, suppressed_merge, suppressed_merge, List.flatMap_append, addCategories_append,
      addCategories_eq_append_filter]

end Settings

/-! ## Compiling the rules of valid files -/

namespace CustomRule
variable {rule : CustomRule} {e : Error}

/-- The text of a rule, of its substitution or of its detection, is wrong, and `e` says so. -/
inductive TextFault (rule : CustomRule) : Error → Prop where
  | substitution {t : Text} {e : Error} (set : rule.substitution = some t) (invalid : Substitution.parse t = .error e) :
      TextFault rule e
  | detection {p : Text} (set : rule.detect = some p) (invalid : Regex.compile? true p = none) :
      TextFault rule (.invalidRegex p)

/-- What a rule does, by the field that it sets. -/
inductive Acts (rule : CustomRule) : Action → Prop where
  | substitute {t : Text} {s : Substitution} (set : rule.substitution = some t) (valid : Substitution.parse t = .ok s) :
      Acts rule (.substitute s)
  | detect {p w : Text} {regex : Regex} (set : rule.detect = some p) (valid : Regex.compile? true p = some regex)
      (warning : rule.warning = some w) : Acts rule (.detect regex w)

/-! ## One rule -/

/-- A valid rule asks for one thing. -/
theorem exists_of_validate (h : rule.validate = .ok ()) :
    (∃ t, rule.substitution = some t ∧ rule.detect = none) ∨
      ∃ p w, rule.substitution = none ∧ rule.detect = some p ∧ rule.warning = some w := by
  cases hs : rule.substitution with
  | some t =>
    cases hd : rule.detect with
    | some p => simp [validate, hs, hd] at h
    | none => exact .inl ⟨t, rfl, rfl⟩
  | none =>
    cases hd : rule.detect with
    | none => simp [validate, hs, hd] at h
    | some p =>
      cases hw : rule.warning with
      | none => simp [validate, hs, hd, hw] at h
      | some w => exact .inr ⟨p, w, rfl, rfl, rfl⟩

/-- A valid rule is compiled, or its text is wrong. -/
theorem action_of_validate (h : rule.validate = .ok ()) :
    (∃ a, rule.action = .ok a ∧ Acts rule a ∧ ∀ e, ¬ TextFault rule e) ∨
      ∃ e, rule.action = .error e ∧ TextFault rule e := by
  rcases exists_of_validate h with ⟨t, hs, hd⟩ | ⟨p, w, hs, hd, hw⟩
  · cases hparse : Substitution.parse t with
    | ok s =>
      refine .inl ⟨.substitute s, by simp [action, hs, hd, hparse, bind, Except.bind, pure, Except.pure],
        .substitute hs hparse, ?_⟩
      rintro e (⟨hset, hinvalid⟩ | ⟨hset, -⟩)
      · obtain rfl := Option.some.inj (hs.symm.trans hset)
        rw [hparse] at hinvalid
        cases hinvalid
      · rw [hd] at hset
        cases hset
    | error e =>
      exact .inr ⟨e, by simp [action, hs, hd, hparse, bind, Except.bind], .substitution hs hparse⟩
  · cases hcompile : Regex.compile? true p with
    | some regex =>
      refine .inl ⟨.detect regex w, by simp [action, hs, hd, hw, hcompile], .detect hd hcompile hw, ?_⟩
      rintro e (⟨hset, -⟩ | ⟨hset, hinvalid⟩)
      · rw [hs] at hset
        cases hset
      · obtain rfl := Option.some.inj (hd.symm.trans hset)
        rw [hcompile] at hinvalid
        cases hinvalid
    | none => exact .inr ⟨.invalidRegex p, by simp [action, hs, hd, hw, hcompile], .detection hd hcompile⟩

/-- Wrong texts are reported as wrong patterns and wrong substitutions. -/
theorem TextFault.error_eq (h : TextFault rule e) :
    (∃ pattern, e = .invalidRegex pattern) ∨ ∃ input fault, e = .invalidSubstitution input fault := by
  cases h with
  | detection => exact .inl ⟨_, rfl⟩
  | @substitution t e set invalid =>
    unfold Substitution.parse at invalid
    split at invalid
    · cases invalid
      exact .inr ⟨_, _, rfl⟩
    · split at invalid
      · cases invalid
        exact .inl ⟨_, rfl⟩
      · cases invalid

end CustomRule

/-! ## All rules of a file -/

theorem Config.forall_validate {config : Config} (h : config.validate = .ok ()) :
    ∀ rule ∈ config.rules, rule.validate = .ok () := by
  rw [Config.validate, List.forM_eq_forM] at h
  generalize config.rules = rules at h
  induction rules with
  | nil => simp
  | cons rule rules ih =>
    rw [List.forM_cons] at h
    cases hrule : rule.validate with
    | error e =>
      rw [hrule] at h
      cases h
    | ok u =>
      rw [hrule] at h
      exact List.forall_mem_cons.2 ⟨hrule, ih h⟩

/-! ## The first error -/

/-- Steps that each give what `R` says or fail as `F` says give the list of all results, or fail as the first step
that fails. -/
theorem mapM_forall₂_or_first {α β ε : Type} {f : α → Except ε β} {R : α → β → Prop} {F : α → ε → Prop} {l : List α}
    (hf : ∀ a ∈ l, (∃ b, f a = .ok b ∧ R a b ∧ ∀ e, ¬ F a e) ∨ ∃ e, f a = .error e ∧ F a e) :
    (∃ bs, l.mapM f = .ok bs ∧ List.Forall₂ R l bs ∧ ∀ a ∈ l, ∀ e, ¬ F a e) ∨
      ∃ before a after e, l = before ++ a :: after ∧ (∀ b ∈ before, ∀ e, ¬ F b e) ∧ F a e ∧ l.mapM f = .error e := by
  induction l with
  | nil => exact .inl ⟨[], rfl, .nil, by simp⟩
  | cons a l ih =>
    rw [List.mapM_cons]
    rcases hf a (by simp) with ⟨b, hb, hR, hgood⟩ | ⟨e, he, hF⟩
    · rcases ih fun a' ha' => hf a' (by simp [ha']) with ⟨bs, hbs, hall, hnone⟩ | ⟨before, a', after, e, rfl, hnone, hF, he⟩
      · exact .inl ⟨b :: bs, by rw [hb, hbs]; rfl, .cons hR hall, List.forall_mem_cons.2 ⟨hgood, hnone⟩⟩
      · exact .inr ⟨a :: before, a', after, e, rfl, List.forall_mem_cons.2 ⟨hgood, hnone⟩, hF, by rw [hb, he]; rfl⟩
    · exact .inr ⟨[], a, l, e, rfl, by simp, hF, by rw [he]; rfl⟩

/-- The rule `c` that is ready to run is the rule of the file `r.1`, and does what this asks for. -/
structure Compiled (r : Text × CustomRule) (c : CompiledRule) : Prop where
  source : c.source = r.1
  rule : c.rule = r.2
  acts : r.2.Acts c.action

theorem CustomRule.compile_of_validate {source : Text} {rule : CustomRule} (h : rule.validate = .ok ()) :
    (∃ c, rule.compile source = .ok c ∧ Compiled (source, rule) c ∧ ∀ e, ¬ rule.TextFault e) ∨
      ∃ e, rule.compile source = .error e ∧ rule.TextFault e := by
  rcases action_of_validate h with ⟨a, ha, hacts, hgood⟩ | ⟨e, he, hfault⟩
  · exact .inl ⟨⟨rule, a, source⟩, by rw [compile, ha]; rfl, ⟨rfl, rfl, hacts⟩, hgood⟩
  · exact .inr ⟨e, by rw [compile, he]; rfl, hfault⟩

namespace Settings
variable {files : List LoadedConfig}

/-- The rules of valid files are compiled in the order of the cascade, each to what it asks for; or there is a first
rule in this order with a text that is wrong, and the error is the one of this text: a wrong pattern or a wrong
substitution. -/
theorem compileRules_merge (h : ∀ file ∈ files, file.config.validate = .ok ()) :
    (∃ compiled, (merge files).compileRules = .ok compiled ∧
      List.Forall₂ Compiled (files.flatMap LoadedConfig.sourced) compiled ∧
        ∀ r ∈ files.flatMap LoadedConfig.sourced, ∀ e, ¬ r.2.TextFault e) ∨
    ∃ before r after e, files.flatMap LoadedConfig.sourced = before ++ r :: after ∧
      (∀ b ∈ before, ∀ e, ¬ b.2.TextFault e) ∧ r.2.TextFault e ∧ (merge files).compileRules = .error e ∧
        ((∃ pattern, e = .invalidRegex pattern) ∨ ∃ input fault, e = .invalidSubstitution input fault) := by
  have hrules : ∀ r ∈ files.flatMap LoadedConfig.sourced, r.2.validate = .ok () := by
    intro r hr
    obtain ⟨file, hfile, hr⟩ := List.mem_flatMap.1 hr
    obtain ⟨rule, hrule, rfl⟩ := List.mem_map.1 hr
    exact Config.forall_validate (h file hfile) rule hrule
  rw [compileRules, rules_merge]
  have hcompile : ∀ r ∈ files.flatMap LoadedConfig.sourced,
      (∃ c, r.2.compile r.1 = .ok c ∧ Compiled r c ∧ ∀ e, ¬ r.2.TextFault e) ∨
        ∃ e, r.2.compile r.1 = .error e ∧ r.2.TextFault e := by
    intro r hr
    exact CustomRule.compile_of_validate (hrules r hr)
  rcases mapM_forall₂_or_first hcompile with hall | ⟨before, r, after, e, hsplit, hbefore, hfault, herror⟩
  · exact .inl hall
  · exact .inr ⟨before, r, after, e, hsplit, hbefore, hfault, herror, hfault.error_eq⟩

/-- A file with a substitution, and behind it one with a wrong pattern and a wrong substitution. -/
def twoFiles : List LoadedConfig := [
  ⟨"a/.ora2tsql.toml", false, none, [], [⟨none, none, some "s/x/y/".toList, none, none⟩]⟩,
  ⟨".ora2tsql.toml", true, none, [], [⟨none, none, none, some "[x".toList, some "x".toList⟩,
    ⟨none, none, some "s/x".toList, none, none⟩]⟩]

/-- Of two texts that are wrong the first one is reported. -/
theorem compileRules_merge_twoFiles : (∀ file ∈ twoFiles, file.config.validate = .ok ()) ∧
    ∃ before r after, twoFiles.flatMap LoadedConfig.sourced = before ++ r :: after ∧
      (∀ b ∈ before, ∀ e, ¬ b.2.TextFault e) ∧ r.2.TextFault (.invalidRegex "[x") ∧
        (merge twoFiles).compileRules = .error (.invalidRegex "[x") := by
  have hvalid : ∀ file ∈ twoFiles, file.config.validate = .ok () := by
    simp only [twoFiles, List.forall_mem_cons]
    exact ⟨rfl, rfl, by simp⟩
  have hcompile : (merge twoFiles).compileRules = .error (.invalidRegex "[x") := by
    rfl
  rcases compileRules_merge hvalid with ⟨compiled, hok, -⟩ | ⟨before, r, after, e, hsplit, hbefore, hfault, herror, -⟩
  · rw [hcompile] at hok
    cases hok
  · rw [hcompile] at herror
    cases herror
    exact ⟨hvalid, before, r, after, hsplit, hbefore, hfault, hcompile⟩

end Settings
end DialectBridge
