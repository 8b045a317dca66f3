import DialectBridge.Proofs.BracketedNames
import DialectBridge.Proofs.DualCompletion
/-!
# Converting a query for names

The rules from T-SQL to Oracle, one after the other, on a query for names in brackets. What stands between the
brackets is code until the quotes are there, so the names keep their text only where no rule finds anything in
them (`convert_bracketed`).
-/
namespace DialectBridge
open Pattern Cursor LexState

namespace ToOracle

/-! ## The query in quotes -/

section
variable {names : List Text} {table : Text}

theorem mask_inQuotes {n : Text} (h : '"' ∉ n) :
    mask (inQuotes n) = inQuotes (Text.spaces (Text.width n)) ∧ (code.after (inQuotes n)).live = true :=
  ⟨mask_quoted (q := .double) h, congrArg live (after_closed (q := .double) h)⟩

/-- The mask shows the quotes of a query for names, and nothing of the names. -/
theorem mask_namesQuery (h : ∀ n ∈ table :: names, '"' ∉ n) :
    mask (namesQuery inQuotes names table) =
      namesQuery inQuotes (names.map fun n => Text.spaces (Text.width n)) (Text.spaces (Text.width table)) := by
  have hitems : ∀ t ∈ names.map inQuotes, (code.after t).live = true := by
    simp only [List.mem_map, forall_exists_index, and_imp, forall_apply_eq_imp_iff₂]
    exact fun n hn => (mask_inQuotes (h n (List.mem_cons_of_mem _ hn))).2
  have hnames : (names.map inQuotes).map mask =
      (names.map fun n => Text.spaces (Text.width n)).map inQuotes := by
    rw [List.map_map, List.map_map]
    exact List.map_congr_left fun n hn => (mask_inQuotes (h n (List.mem_cons_of_mem _ hn))).1
  obtain ⟨hmask, hlive⟩ := mask_join hitems
  rw [namesQuery, selectText, mask_plain_append (by decide), mask_plain_between hlive (by decide) (by decide), hmask,
    hnames, (mask_inQuotes (h table (by simp))).1]
  rfl

theorem mem_inQuotes_spaces {k : Nat} {c : Char} (hc : c ∈ inQuotes (Text.spaces k)) : c ∈ ['"', ',', ' '] := by
  simp only [inQuotes, Text.spaces, List.mem_cons, List.mem_append, List.mem_replicate, List.not_mem_nil,
    or_false] at hc ⊢
  tauto

/-- The mask of a query for quoted names has no parenthesis. -/
theorem not_mem_mask_namesQuery (h : ∀ n ∈ table :: names, '"' ∉ n) :
    ')' ∉ mask (namesQuery inQuotes names table) := by
  rw [mask_namesQuery h]
  intro hc
  rcases mem_namesQuery hc with ⟨t, ht, hc⟩ | hc
  · obtain ⟨k, rfl⟩ : ∃ k, t = Text.spaces k := by
      rcases List.mem_cons.1 ht with rfl | ht
      · exact ⟨_, rfl⟩
      · obtain ⟨n, -, rfl⟩ := List.mem_map.1 ht
        exact ⟨_, rfl⟩
    exact absurd (mem_inQuotes_spaces hc) (by decide)
  · exact absurd hc (by decide)

theorem isOther_quote {p : Text} (h : p ∈ [['"'], [',']]) : IsOther p ∧ ¬ IsSelect p := by
  have hnot : ∀ p ∈ [['"'], [',']], p ≠ ['('] ∧ p ≠ [')'] ∧ isSetOperator p = false ∧ ¬ IsSelect p := by decide
  obtain ⟨hopen, hclose, hset, hselect⟩ := hnot p h
  exact ⟨isOther_of_ne hopen hclose hset, hselect⟩

/-- Quotes around blanks are the only tokens of a list of quoted names, with the commas. -/
theorem mem_tokens_of_quotes {t : Text} (h : ∀ c ∈ t, c ∈ ['"', ',', ' ']) : ∀ p ∈ tokens t, p ∈ [['"'], [',']] := by
  intro p hp
  have hword : ∀ c ∈ ['"', ',', ' '], Unicode.isWordChar c = false := by decide
  rw [tokens, pieces_of_no_words fun c hc => hword c (h c hc), List.mem_filter, List.mem_map] at hp
  obtain ⟨⟨c, hc, rfl⟩, hblank⟩ := hp
  have key : ∀ c ∈ ['"', ',', ' '], (!isBlankText [c]) = true → [c] ∈ [['"'], [',']] := by decide
  exact key c (h c hc) hblank

/-- A query for quoted names has its `FROM`. -/
theorem complete_namesQuery (h : ∀ n ∈ table :: names, '"' ∉ n) : Complete (namesQuery inQuotes names table) := by
  have hlist : ∀ c ∈ Text.join [',', ' '] ((names.map fun n => Text.spaces (Text.width n)).map inQuotes),
      c ∈ ['"', ',', ' '] := by
    intro c hc
    rcases mem_join hc with ⟨t, ht, hc⟩ | rfl | rfl
    · obtain ⟨_, hmem, rfl⟩ := List.mem_map.1 ht
      obtain ⟨n, -, rfl⟩ := List.mem_map.1 hmem
      exact mem_inQuotes_spaces hc
    · simp
    · simp
  have hhead : tokens listHead = ["SELECT".toList] := by decide
  have hfrom : tokens ToTsql.tableHead = ["FROM".toList] := by decide
  have hbegins : beginsInWord (ToTsql.tableHead ++ inQuotes (Text.spaces (Text.width table))) = false := by
    rw [beginsInWord_append (by decide)]
    decide
  rw [Complete, mask_namesQuery h, namesQuery, selectText, tokens_append (.of_ends (by decide) _),
    tokens_append (.of_begins hbegins _), tokens_append (.of_ends (by decide) _), hhead, hfrom,
    List.singleton_append, List.singleton_append]
  have hitems := mem_tokens_of_quotes hlist
  have htable := mem_tokens_of_quotes (t := inQuotes (Text.spaces (Text.width table))) fun _ => mem_inQuotes_spaces
  intro ps s qs hsplit hs
  cases ps with
  | nil =>
    rw [List.nil_append, List.cons.injEq] at hsplit
    rw [← hsplit.2, hasFrom_append_of_walk (walk_other (fun p hp => (isOther_quote (hitems p hp)).1) 0)]
    refine .inr ⟨"FROM".toList, ?_, spelled_self _⟩
    rw [surface_other isOther_from, if_pos rfl]
    exact List.mem_cons_self
  | cons p ps =>
    -- the list and the table head no block
    have hmem : s ∈ ps ++ s :: qs := by simp
    rw [List.cons_append, List.cons.injEq] at hsplit
    rw [← hsplit.2, List.mem_append, List.mem_cons] at hmem
    rcases hmem with hmem | rfl | hmem
    · exact absurd hs (isOther_quote (hitems s hmem)).2
    · exact absurd hs (by decide)
    · exact absurd hs (isOther_quote (htable s hmem)).2

end

/-! ## The query in brackets -/

section
variable {names : List Text} {table : Text}

theorem sign_of_mem_namesQuery (hnames : ∀ n ∈ table :: names, IsBracketName n) {c : Char}
    (hc : c ∈ namesQuery inBrackets names table) : c.isAlphanum = true ∨ c ∈ ['_', ' ', '[', ']', ','] := by
  have hwords : ∀ c ∈ ToTsql.tableHead ++ ',' :: listHead, c.isAlphanum = true ∨ c ∈ ['_', ' ', '[', ']', ','] := by
    decide
  rcases mem_namesQuery hc with ⟨n, hn, hc⟩ | hc
  · simp only [inBrackets, List.mem_cons, List.mem_append, List.not_mem_nil, or_false] at hc
    rcases hc with rfl | hc | rfl
    · simp
    · exact (hnames n hn).sign hc
    · simp
  · exact hwords c hc

/-- A query for names in brackets hides nothing, and has no sign that the rules for calls, operators and entities
look for. -/
theorem namesQuery_spec (hnames : ∀ n ∈ table :: names, IsBracketName n) :
    (∀ c ∈ namesQuery inBrackets names table, isPlain c = true) ∧
      ∀ d ∈ ['&', '(', ')', '+', '"'], d ∉ namesQuery inBrackets names table :=
  ⟨fun _ hc => (isPlain_of_sign (sign_of_mem_namesQuery hnames hc)).1,
    fun d hd hc => (isPlain_of_sign (sign_of_mem_namesQuery hnames hc)).2 d hd rfl⟩

theorem mask_bracketsQuery (hnames : ∀ n ∈ table :: names, IsBracketName n) :
    mask (namesQuery inBrackets names table) = namesQuery inBrackets names table :=
  mask_of_all_isPlain (namesQuery_spec hnames).1

/-- The `TOP` clauses of the names are left alone where each of them is. -/
theorem topToRownum_namesQuery (hnames : ∀ n ∈ table :: names, IsBracketName n)
    (htops : ∀ n ∈ table :: names, nextTop? n = none) (hne : names ≠ []) :
    topToRownum (namesQuery inBrackets names table) = pure (namesQuery inBrackets names table) := by
  have hfree : ∀ n ∈ table :: names, TopFree n := fun n hn => by
    have htop := nextTop?_eq_none_iff.1 (htops n hn)
    rwa [mask_of_all_isPlain (hnames n hn).isPlain] at htop
  have hnone : nextTop? (namesQuery inBrackets names table) = none := by
    rw [nextTop?_eq_none_iff, mask_bracketsQuery hnames]
    exact topFree_namesQuery hfree hne
  rw [topToRownum, fixpoint, maxPasses, repeatStep, topStep_of_none hnone]
  rfl

/-- The word `EXCEPT` is replaced in each name. -/
theorem setOperators_namesQuery (hnames : ∀ n ∈ table :: names, IsBracketName n) (hne : names ≠ []) :
    setOperators (namesQuery inBrackets names table) =
      namesQuery inBrackets (names.map setOperators) (setOperators table) := by
  have hfixed : ∀ s ∈ [listHead, [',', ' '], ToTsql.tableHead], (keyword "EXCEPT".toList).findAll s = [] := by
    decide
  have hname : ∀ n ∈ table :: names,
      setOperators n = (keyword "EXCEPT".toList).replaceAllBy (fun _ => "MINUS".toList) n := fun n hn =>
    setOperators_of_isPlain (hnames n hn).isPlain (hnames n hn).1
  have hquery : namesQuery inBrackets names table ≠ [] := List.append_ne_nil_of_left_ne_nil (by decide) _
  rw [setOperators_of_isPlain (namesQuery_spec hnames).1 hquery,
    replaceAllBy_namesQuery (shuns_brackets _ (by simp)) (fun _ _ _ _ _ _ => rfl) hfixed hne,
    hname table (by simp), List.map_congr_left fun n hn => hname n (List.mem_cons_of_mem _ hn)]

/-- An `OFFSET` with its `FETCH` is replaced in each name. -/
theorem gives_offsetFetch_namesQuery (hnames : ∀ n ∈ table :: names, IsBracketName n) (hne : names ≠ []) :
    Gives (offsetFetch (namesQuery inBrackets names table))
      (namesQuery inBrackets (names.map (offsetZeroFetch.replaceAllBy fetchText))
        (offsetZeroFetch.replaceAllBy fetchText table)) := by
  have hfixed : ∀ s ∈ [listHead, [',', ' '], ToTsql.tableHead], offsetZeroFetch.findAll s = [] := by
    decide
  have hgives := gives_offsetFetch (mask_bracketsQuery hnames)
  rwa [replaceAllBy_namesQuery (shuns_brackets _ (by simp)) (fun a b _ _ _ hm => fetchText_within hm a b) hfixed
    hne] at hgives

/-- Names in brackets are put in quotes. -/
theorem gives_bracketIdentifiers (hnames : ∀ n ∈ table :: names, IsBracketName n) (hne : names ≠ []) :
    Gives (bracketIdentifiers (namesQuery inBrackets names table)) (namesQuery inQuotes names table) := by
  refine Gives.bind (a := namesQuery inQuotes names table) ?_ (gives_report_then (gives_warnOnce _ _) (gives_pure _))
  rw [← replaceAllBy_bracketed hnames hne]
  refine gives_replaceSpans_of_mask_eq (mask_bracketsQuery hnames) (framed_clauses _ (by simp)) fun m hm => ?_
  obtain ⟨u, x, hsplit, hat⟩ := exists_of_mem_findAll hm
  obtain ⟨w, v, rfl, -, -, htakes⟩ := matchAt?_eq_some hat
  obtain ⟨k, -, -, -, hgroup⟩ := takes_bracketed htakes
  obtain ⟨span, hspan⟩ : ∃ span, m.groupSpan? 1 = some span := by simp [Match.groupSpan?, hgroup]
  simp only [hspan, hsplit]
  exact (gives_lift (Match.slice?_of_groupSpan? hat (by decide) hspan)).bind (gives_pure _)

end

/-! ## The conversion -/

section
variable {names : List Text} {table : Text}

/-- The names of a query for names in brackets go through the rules one by one. -/
theorem yields_rules (hnames : ∀ n ∈ table :: names, IsBracketName n)
    (htops : ∀ n ∈ table :: names, nextTop? n = none) (hne : names ≠ []) (placeholder : Text) :
    Yields (Converter.runSteps (rules.map fun r => (.builtin r.name, r.apply placeholder))
      (namesQuery inBrackets names table)) fun out =>
        namesQuery inQuotes (names.map renamed) (renamed table) = out.1 := by
  obtain ⟨hplain, hsigns⟩ := namesQuery_spec hnames
  have hmask := mask_of_all_isPlain hplain
  have hopen : '(' ∉ mask (namesQuery inBrackets names table) := by
    rw [hmask]
    exact hsigns _ (by simp)
  have hplus : '+' ∉ mask (namesQuery inBrackets names table) := by
    rw [hmask]
    exact hsigns _ (by simp)
  have hdecode := Entity.decode_eq_self (hsigns '&' (by simp))
  have hcalls := callRules_of_not_mem hopen
  simp only [callRules, List.forall_mem_cons] at hcalls
  obtain ⟨hnull, hdate, hconversion, hstring, hagg, haggregates, -⟩ := hcalls
  refine Converter.yields_runSteps_same (congrArg pure hdecode) ?_
  refine Converter.yields_runSteps_cons (P := (· = namesQuery inBrackets names table))
    ⟨_, Detection.gives_detectTsql _, rfl⟩ ?_
  rintro _ rfl
  refine Converter.yields_runSteps_same (topToRownum_namesQuery hnames htops hne) ?_
  refine Converter.yields_runSteps_same (congrArg pure (currentDatetime_of_not_mem hopen)) ?_
  refine Converter.yields_runSteps_same hnull ?_
  refine Converter.yields_runSteps_same (concatenation_of_not_mem hopen hplus) ?_
  refine Converter.yields_runSteps_same hdate ?_
  refine Converter.yields_runSteps_same hconversion ?_
  refine Converter.yields_runSteps_same hstring ?_
  refine Converter.yields_runSteps_same hagg ?_
  refine Converter.yields_runSteps_same haggregates ?_
  refine Converter.yields_runSteps_cons
    (P := (· = namesQuery inBrackets (names.map setOperators) (setOperators table)))
    (yields_pure (setOperators_namesQuery hnames hne)) ?_
  rintro _ rfl
  have hset : ∀ n ∈ setOperators table :: names.map setOperators, IsBracketName n := by
    simpa using fun n hn => (hnames n hn).setOperators
  have hfetch := gives_offsetFetch_namesQuery hset (by simpa using hne)
  have hrenamed : (names.map setOperators).map (offsetZeroFetch.replaceAllBy fetchText) = names.map renamed := by
    rw [List.map_map]
    rfl
  rw [hrenamed] at hfetch
  refine Converter.yields_runSteps_cons
    (P := (· = namesQuery inBrackets (names.map renamed) (renamed table))) ⟨_, hfetch, rfl⟩ ?_
  rintro _ rfl
  have hnames' : ∀ n ∈ renamed table :: names.map renamed, IsBracketName n := by
    simpa using fun n hn => (hnames n hn).renamed
  have hquotes : ∀ n ∈ renamed table :: names.map renamed, '"' ∉ n := fun n hn => (hnames' n hn).quote_not_mem
  refine Converter.yields_runSteps_cons
    (P := (· = namesQuery inQuotes (names.map renamed) (renamed table)))
    ⟨_, gives_bracketIdentifiers hnames' (by simpa using hne), rfl⟩ ?_
  rintro _ rfl
  refine Converter.yields_runSteps_same (tableHints_of_not_mem (not_mem_mask_namesQuery hquotes)) ?_
  refine Converter.yields_runSteps_cons
    (P := (· = namesQuery inQuotes (names.map renamed) (renamed table)))
    ⟨_, fun s => ⟨s, (fromDual_eq_self_iff _ s).2 (complete_namesQuery hquotes)⟩, rfl⟩ ?_
  rintro _ rfl
  exact yields_pure rfl

theorem inQuotes_append_inj {a b x y : Text} (ha : '"' ∉ a) (hb : '"' ∉ b) (h : inQuotes a ++ x = inQuotes b ++ y) :
    a = b ∧ x = y := Text.append_cons_inj (by simpa [inQuotes] using h) ha hb

/-- Two queries for quoted names are the same just if the names are. -/
theorem namesQuery_inQuotes_inj {g : Text → Text} (h : ∀ n ∈ table :: names, '"' ∉ n)
    (hg : ∀ n ∈ table :: names, '"' ∉ g n) :
    namesQuery inQuotes (names.map g) (g table) = namesQuery inQuotes names table ↔
      ∀ n ∈ table :: names, g n = n := by
  constructor
  · intro heq
    rw [namesQuery, namesQuery, selectText, selectText, List.append_cancel_left_eq] at heq
    induction names with
    | nil => simpa [inQuotes] using heq
    | cons n ns ih =>
      have hsub : table :: ns ⊆ table :: n :: ns := by simp
      have hn : n ∈ table :: n :: ns := by simp
      suffices hboth : g n = n ∧ ∀ n ∈ table :: ns, g n = n by simpa [and_left_comm] using hboth
      by_cases hnil : ns = []
      · subst hnil
        obtain ⟨hname, htable⟩ := inQuotes_append_inj (hg n hn) (h n hn)
          (by simpa [Text.join, List.intercalate] using heq)
        exact ⟨hname, by simpa [inQuotes] using htable⟩
      · rw [List.map_cons, List.map_cons, List.map_cons, Text.join_cons (by simpa using hnil),
          Text.join_cons (by simpa using hnil)] at heq
        simp only [List.append_assoc] at heq
        obtain ⟨hname, hrest⟩ := inQuotes_append_inj (hg n hn) (h n hn) heq
        rw [List.append_cancel_left_eq] at hrest
        exact ⟨hname, ih (fun n hn => h n (hsub hn)) (fun n hn => hg n (hsub hn)) hrest⟩
  · intro heq
    rw [heq table (by simp), List.map_congr_left fun n hn => heq n (List.mem_cons_of_mem _ hn), List.map_id']

/-- A query for names in brackets becomes one for names in quotes if no name has a `TOP` clause. The names keep
their text just if none of them has the word `EXCEPT` or an `OFFSET` of no rows with its `FETCH`. -/
theorem convert_bracketed (hnames : ∀ n ∈ table :: names, IsBracketName n)
    (htops : ∀ n ∈ table :: names, nextTop? n = none) (hne : names ≠ []) :
    ∃ c, Converter.builtin.convert? .tsqlToOracle (namesQuery inBrackets names table) = some c ∧
      c.query = namesQuery inQuotes (names.map renamed) (renamed table) ∧
      (c.query = namesQuery inQuotes names table ↔ ∀ n ∈ table :: names,
        (keyword "EXCEPT").occursIn n = false ∧ offsetZeroFetch.occursIn n = false) := by
  obtain ⟨⟨sql, changes⟩, hgives, hsql⟩ := yields_rules hnames htops hne defaultPlaceholder
  have hsteps : Converter.builtin.apply .tsqlToOracle (namesQuery inBrackets names table) = Converter.runSteps
      (rules.map fun r => (.builtin r.name, r.apply defaultPlaceholder)) (namesQuery inBrackets names table) := by
    have hobjection : Converter.objection? (namesQuery inBrackets names table) = none :=
      Converter.objection?_selectText _ _
    rw [Converter.apply, hobjection]
    rfl
  obtain ⟨raised, hrun⟩ := hgives []
  rw [← hsteps] at hrun
  have hquery : sql = namesQuery inQuotes (names.map renamed) (renamed table) := hsql.symm
  refine ⟨_, by rw [Converter.convert?, hrun]; rfl, hquery, ?_⟩
  rw [hquery, namesQuery_inQuotes_inj (fun n hn => (hnames n hn).quote_not_mem)
    (fun n hn => (hnames n hn).renamed.quote_not_mem)]
  exact forall₂_congr fun n hn => renamed_eq_self_iff (hnames n hn)

end

/-- Names with blanks, one of which has the word `EXCEPT`. -/
theorem convert_bracketed_except :
    (∀ n ∈ ["t 1".toList, "order id".toList, "EXCEPT x".toList], IsBracketName n) ∧
      (∀ n ∈ ["t 1".toList, "order id".toList, "EXCEPT x".toList], nextTop? n = none) ∧
      ∃ c, Converter.builtin.convert? .tsqlToOracle "SELECT [order id], [EXCEPT x] FROM [t 1]" = some c ∧
        c.query = "SELECT \"order id\", \"MINUS x\" FROM \"t 1\"".toList := by
  have hnames : ∀ n ∈ ["t 1".toList, "order id".toList, "EXCEPT x".toList], IsBracketName n := by decide
  have htops : ∀ n ∈ ["t 1".toList, "order id".toList, "EXCEPT x".toList], nextTop? n = none := by decide +kernel
  obtain ⟨c, hc, hquery, -⟩ := convert_bracketed hnames htops (by simp)
  exact ⟨hnames, htops, c, hc, hquery.trans (by decide +kernel)⟩

/-- A column with the name of an operator gets the name of another one. -/
theorem convert_bracketed_operator :
    IsBracketName "EXCEPT" ∧ IsBracketName "t" ∧
      namesQuery inBrackets ["EXCEPT".toList] "t" = "SELECT [EXCEPT] FROM [t]".toList ∧
      (Converter.builtin.convert? .tsqlToOracle "SELECT [EXCEPT] FROM [t]").map (·.query) =
        some "SELECT \"MINUS\" FROM \"t\"".toList ∧
      namesQuery inQuotes ["EXCEPT".toList] "t" ≠ "SELECT \"MINUS\" FROM \"t\"".toList :=
  ⟨by decide, by decide, by decide, by decide +kernel, by decide⟩

end ToOracle
end DialectBridge
