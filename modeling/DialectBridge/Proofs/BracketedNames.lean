import DialectBridge.Proofs.MissingSigns
import DialectBridge.Proofs.Surroundings
/-!
# Names in brackets

Brackets are code to the lexer, so the rules from T-SQL to Oracle that run in front of the one for names in
brackets read such names as code. Most of them look for a sign that no name has. A `TOP` clause, the word
`EXCEPT` and an `OFFSET` with a `FETCH` are found in names too: the last two are rewritten in each name as in
a query of its own (`renamed`).
-/
namespace DialectBridge
open Pattern Cursor LexState

/-! ## Edits of a query that hides nothing -/

section
variable {σ : Type} {p : Pattern} {sql : Text} {f : Match → Editing σ (Option Text)} {g : Match → Text}

theorem Replaced.eq_replaceMatches {k : Nat} {ms : List Match} {pre t out : Text}
    (h : Replaced (fun m => some (g m)) k ms t out) (hk : k = Text.width pre)
    (hms : ∀ m ∈ ms, ∃ u w v, pre ++ t = u ++ (w ++ v) ∧ m.first = between u (w ++ v) ∧
      m.last = between (u ++ w) v) : replaceMatches g (between pre t) ms = out := by
  induction h generalizing pre with
  | nil => rfl
  | @cons k m ms a w rest out hstart hstop hrest ih =>
    obtain ⟨u, w', v, hsplit, hfirst, hlast⟩ := hms m (by simp)
    rw [Match.start, hfirst, offset_between, hk, ← Text.width_append] at hstart
    rw [Match.stop, Match.start, hfirst, hlast, offset_between, offset_between, Text.width_append] at hstop
    have hsplit' : pre ++ a ++ (w ++ rest) = u ++ (w' ++ v) := by simpa using hsplit
    obtain ⟨rfl, hrest'⟩ := Text.append_inj_of_width hsplit' hstart.symm
    obtain ⟨rfl, rfl⟩ := Text.append_inj_of_width hrest' (by omega)
    have hbefore : (between pre (a ++ w ++ rest)).upTo m.first = a := by
      rw [hfirst, List.append_assoc]
      exact upTo_between pre a (w ++ rest)
    rw [replaceMatches, hbefore, hlast, @ih (pre ++ a ++ w) ?_ fun m' hm' => ?_]
    · rfl
    · rw [Match.stop, hlast, offset_between]
    · simpa using hms m' (by simp [hm'])

/-- In a query that hides nothing, matches are replaced where they are found. -/
theorem gives_replaceSpans_of_mask_eq (hmask : mask sql = sql) (hp : p.framed = true)
    (hf : ∀ m ∈ p.findAll sql, Gives (f m) (some (g m))) :
    Gives (replaceSpans sql p f) (p.replaceAllBy g sql) := by
  obtain ⟨out, hout, hreplaced⟩ : ∃ out, Gives (replaceSpans sql p f) out ∧
      Replaced (fun m => some (g m)) 0 (p.findAll (mask sql)) sql out :=
    gives_replaceSpans hp (by rwa [hmask])
  rw [hmask] at hreplaced
  have heq : replaceMatches g (between [] sql) (p.findAll sql) = out :=
    hreplaced.eq_replaceMatches rfl fun m hm => by
      obtain ⟨u, x, rfl, hat⟩ := exists_of_mem_findAll hm
      obtain ⟨w, v, rfl, hfirst, hlast, -⟩ := matchAt?_eq_some hat
      exact ⟨u, w, v, rfl, hfirst, hlast⟩
  rwa [← heq] at hout

end

namespace ToOracle

/-! ## Queries for names -/

/-- A name: letters, digits, underscores and blanks. -/
def IsBracketName (n : Text) : Prop := n ≠ [] ∧ ∀ c ∈ n, c.isAlphanum = true ∨ c = '_' ∨ c = ' '

instance (n : Text) : Decidable (IsBracketName n) :=
  inferInstanceAs (Decidable (n ≠ [] ∧ ∀ c ∈ n, c.isAlphanum = true ∨ c = '_' ∨ c = ' '))

def inBrackets (n : Text) : Text := '[' :: (n ++ [']'])

def inQuotes (n : Text) : Text := '"' :: (n ++ ['"'])

/-- A query for the columns `names` of `table`, each name quoted in the same way. -/
def namesQuery (q : Text → Text) (names : List Text) (table : Text) : Text :=
  selectText (names.map q) (ToTsql.tableHead ++ q table)

section
variable {R : Text → Text → Prop} {g q : Text → Text} {names : List Text} {table : Text}

theorem mem_namesQuery {c : Char} (hc : c ∈ namesQuery q names table) :
    (∃ n ∈ table :: names, c ∈ q n) ∨ c ∈ ToTsql.tableHead ++ ',' :: listHead := by
  rcases mem_selectText hc with ⟨t, ht, hc⟩ | hc | hc
  · obtain ⟨n, hn, rfl⟩ := List.mem_map.1 ht
    exact .inl ⟨n, List.mem_cons_of_mem _ hn, hc⟩
  · refine (List.mem_append.1 hc).symm.imp (fun hc => ⟨table, by simp, hc⟩) fun hc => ?_
    exact List.mem_append_left _ hc
  · exact .inr (List.mem_append_right _ hc)

/-- What holds of the end of a query and of each quoted name with the text in front of it holds of the whole
query. -/
theorem namesQuery_induction (hend : R [] [])
    (hname : ∀ s ∈ [listHead, [',', ' '], ToTsql.tableHead], ∀ n ∈ table :: names, ∀ rest rest', R rest rest' →
      R (s ++ (inBrackets n ++ rest)) (s ++ (q (g n) ++ rest'))) (hne : names ≠ []) :
    R (namesQuery inBrackets names table) (namesQuery q (names.map g) (g table)) := by
  have htable : R (ToTsql.tableHead ++ inBrackets table) (ToTsql.tableHead ++ q (g table)) := by
    simpa using hname ToTsql.tableHead (by simp) table (by simp) [] [] hend
  suffices hlist : ∀ ns ⊆ names, ns ≠ [] → ∀ s ∈ [listHead, [',', ' ']],
      R (s ++ (Text.join [',', ' '] (ns.map inBrackets) ++ (ToTsql.tableHead ++ inBrackets table)))
        (s ++ (Text.join [',', ' '] ((ns.map g).map q) ++ (ToTsql.tableHead ++ q (g table)))) from
    hlist names (List.Subset.refl _) hne listHead (by simp)
  intro ns hns hne s hs
  induction ns generalizing s with
  | nil => exact absurd rfl hne
  | cons n ns ih =>
    obtain ⟨hn, hns⟩ := List.cons_subset.1 hns
    have hs' : s ∈ [listHead, [',', ' '], ToTsql.tableHead] := by
      simp only [List.mem_cons, List.not_mem_nil, or_false] at hs ⊢
      exact hs.imp id .inl
    by_cases hnil : ns = []
    · simpa [hnil, Text.join, List.intercalate] using
        hname s hs' n (List.mem_cons_of_mem _ hn) _ _ htable
    · have hmore := hname s hs' n (List.mem_cons_of_mem _ hn) _ _ (ih hns hnil [',', ' '] (by simp))
      simpa only [List.map_cons, Text.join_cons (by simpa using hnil : ns.map inBrackets ≠ []),
        Text.join_cons (by simpa using hnil : (ns.map g).map q ≠ []), List.append_assoc] using hmore

end

/-! ## Edits on either side of a bracket -/

section
variable {p : Pattern} {f : Match → Text} {names : List Text} {table n : Text}

/-- A pattern that takes no brackets is replaced in each name. -/
theorem replaceAllBy_namesQuery (hp : ∀ c ∈ ['[', ']'], p.shuns c = true)
    (hf : ∀ a b u x m, p.matchAt? (between u x) = some m → f (m.within a b) = f m)
    (hfixed : ∀ s ∈ [listHead, [',', ' '], ToTsql.tableHead], p.findAll s = []) (hne : names ≠ []) :
    p.replaceAllBy f (namesQuery inBrackets names table) =
      namesQuery inBrackets (names.map (p.replaceAllBy f)) (p.replaceAllBy f table) := by
  refine namesQuery_induction (R := fun t t' => p.replaceAllBy f t = t') ?_ (fun s hs n _ rest rest' hrest => ?_) hne
  · exact replaceFrom_nil (consuming_of_shuns (hp '[' (by simp))) f []
  · have hs' : p.replaceAllBy f s = s := by
      rw [replaceAllBy, hfixed s hs]
      rfl
    have hsplit : s ++ (inBrackets n ++ rest) = s ++ '[' :: (n ++ ']' :: rest) := by simp [inBrackets]
    rw [hsplit, replaceAllBy_append_cons (hp _ (by simp)) hf, replaceAllBy_append_cons (hp _ (by simp)) hf, hs', hrest]
    simp [inBrackets]

/-- Whether every `TOP` clause of a text is one that stays. -/
def TopFree (t : Text) : Prop := ∀ m ∈ topClause.findAll t, topModifier.occursIn m.last.right = true

theorem nextTop?_eq_none_iff {sql : Text} : nextTop? sql = none ↔ TopFree (mask sql) := by
  rw [nextTop?, List.head?_eq_none_iff, List.filter_eq_nil_iff, TopFree]
  simp

/-- What stands behind a sign does not undo a modifier. -/
theorem topModifier_occursIn_append {r b : Text} {c : Char} (hc : Unicode.isWordChar c = false)
    (h : topModifier.occursIn r = true) : topModifier.occursIn (r ++ c :: b) = true := by
  obtain ⟨m, hm⟩ := Option.isSome_iff_exists.1 h
  obtain ⟨u, x, rfl, hat⟩ := exists_of_find? hm
  obtain ⟨w, v, rfl, -, -, htakes⟩ := matchAt?_eq_some hat
  have hchecks : ∀ k ∈ topModifier.checks, k = .textStart ∨ k = .wordEdge .word := by decide +kernel
  obtain ⟨g, hg⟩ : ∃ g, Takes topModifier u w (v ++ c :: b) [] g := by
    refine htakes.congr (fun k hk i j _ => ?_) []
    rcases hchecks k hk with rfl | rfl
    · rfl
    · have hnext : beginsInWord (j ++ (v ++ c :: b)) = beginsInWord (j ++ v) := by
        rw [← List.append_assoc]
        cases j ++ v with
        | nil => exact hc
        | cons d t => rfl
      rw [holds_wordEdge, holds_wordEdge, hnext]
  have hfound : topModifier.occursIn (u ++ (w ++ (v ++ c :: b))) = true := occursIn_of_matches ⟨[], g, hg⟩
  simpa using hfound

theorem TopFree.append_cons {a b : Text} {c : Char} (hc : topClause.shuns c = true) (ha : TopFree a)
    (hb : TopFree b) : TopFree (a ++ c :: b) := by
  have hword : Unicode.isWordChar c = false := by
    simp only [shuns, Bool.and_eq_true, Bool.not_eq_true'] at hc
    exact hc.2
  intro m hm
  rw [findAll_append_cons hc, List.mem_append, List.mem_map, List.mem_map] at hm
  rcases hm with ⟨m, hm, rfl⟩ | ⟨m, hm, rfl⟩
  · exact topModifier_occursIn_append hword (ha m hm)
  · have hright : (m.within (a ++ [c]) []).last.right = m.last.right := List.append_nil _
    rw [hright]
    exact hb m hm

theorem shuns_brackets : ∀ p ∈ [topClause, keyword "EXCEPT".toList, offsetZeroFetch],
    ∀ c ∈ ['[', ']'], p.shuns c = true := by decide +kernel

theorem topFree_namesQuery (hnames : ∀ n ∈ table :: names, TopFree n) (hne : names ≠ []) :
    TopFree (namesQuery inBrackets names table) := by
  have hshuns := shuns_brackets topClause (by simp)
  have hfixed : ∀ s ∈ [[], listHead, [',', ' '], ToTsql.tableHead], topClause.findAll s = [] := by decide
  have hfree : ∀ s ∈ [[], listHead, [',', ' '], ToTsql.tableHead], TopFree s := fun s hs m hm => by
    rw [hfixed s hs] at hm
    simp at hm
  refine namesQuery_induction (R := fun t _ => TopFree t) (g := id) (q := inBrackets) (hfree [] (by simp))
    (fun s hs n hn rest rest' hrest => ?_) hne
  have hsplit : s ++ (inBrackets n ++ rest) = s ++ '[' :: (n ++ ']' :: rest) := by simp [inBrackets]
  rw [hsplit]
  have hbehind := (hnames n hn).append_cons (hshuns ']' (by simp)) hrest
  exact (hfree s (List.mem_cons_of_mem _ hs)).append_cons (hshuns '[' (by simp)) hbehind

end

/-! ## What becomes of a name -/

def fetchHead : Text := "FETCH FIRST "

def fetchTail : Text := " ROWS ONLY"

/-- What an `OFFSET` of no rows and its `FETCH` become. -/
def fetchText (m : Match) : Text := fetchHead ++ m.groupD 1 ++ fetchTail

/-- A name with its words `EXCEPT` replaced, and its `OFFSET` of no rows left out. -/
def renamed (n : Text) : Text := offsetZeroFetch.replaceAllBy fetchText (setOperators n)

section
variable {n t : Text}

/-- The signs of a query for names in brackets are plain, and none of them is what the rules for calls, operators
and entities look for. -/
theorem isPlain_of_sign {c : Char} (h : c.isAlphanum = true ∨ c ∈ ['_', ' ', '[', ']', ',']) :
    isPlain c = true ∧ ∀ d ∈ ['&', '(', ')', '+', '"'], c ≠ d := by
  have hne : ∀ d ∈ ['\'', '"', '-', '/', '*', '&', '(', ')', '+'], c ≠ d := by
    rintro d hd rfl
    have key : ∀ d ∈ ['\'', '"', '-', '/', '*', '&', '(', ')', '+'],
        ¬ (d.isAlphanum = true ∨ d ∈ ['_', ' ', '[', ']', ',']) := by decide
    exact key c hd h
  simp only [List.forall_mem_cons] at hne
  simp [isPlain, hne]

theorem IsBracketName.sign (h : IsBracketName n) {c : Char} (hc : c ∈ n) :
    c.isAlphanum = true ∨ c ∈ ['_', ' ', '[', ']', ','] := by
  rcases h.2 c hc with hc | rfl | rfl
  · exact .inl hc
  · exact .inr (by simp)
  · exact .inr (by simp)

theorem setOperators_of_isPlain (h : ∀ c ∈ t, isPlain c = true) (hne : t ≠ []) :
    setOperators t = (keyword "EXCEPT".toList).replaceAllBy (fun _ => "MINUS".toList) t := by
  have hexpand : expandAt [] "MINUS".toList = fun _ => "MINUS".toList :=
    funext (expandAt_of_noDollar (by decide))
  rw [setOperators, replaceCode, mapCode_of_all_isPlain h hne, replaceAll, hexpand]

/-- The number of rows in an `OFFSET` with its `FETCH`, and how much stands in front of it. -/
theorem takes_offsetZeroFetch {u w v : Text} {g : Groups} (h : Takes offsetZeroFetch u w v [] g) :
    ∃ l k r, w = l ++ (k ++ r) ∧ 23 ≤ l.length ∧
      g.lookup 1 = some (between (u ++ l) (k ++ (r ++ v)), between (u ++ l ++ k) (r ++ v)) := by
  obtain ⟨w, e, g₁, rfl, hw, he⟩ := h
  obtain ⟨w, o, g₂, rfl, hw, ho⟩ := hw
  obtain ⟨w, b, g₃, rfl, hw, hb⟩ := hw
  obtain ⟨w, s, g₄, rfl, hw, hs⟩ := hw
  obtain ⟨w, r, g₅, rfl, hw, hr⟩ := hw
  obtain ⟨w, b', g₆, rfl, hw, hb'⟩ := hw
  obtain ⟨l, k, g₇, rfl, hl, g₈, -, rfl⟩ := hw
  refine ⟨l, k, b' ++ (r ++ (s ++ (b ++ (o ++ e)))), by simp, ?_, ?_⟩
  · exact Nat.le_trans (by decide) hl.minLength_le
  · obtain rfl := hb'.groups_eq rfl
    obtain rfl := hr.groups_eq rfl
    obtain rfl := hs.groups_eq rfl
    obtain rfl := hb.groups_eq rfl
    obtain rfl := ho.groups_eq rfl
    obtain rfl := he.groups_eq rfl
    simp

/-- What replaces an `OFFSET` with its `FETCH` is shorter. -/
theorem length_fetchText {u w v : Text} {m : Match} (hm : offsetZeroFetch.matchAt? (between u (w ++ v)) = some m)
    (hlast : m.last = between (u ++ w) v) : (fetchText m).length < w.length := by
  obtain ⟨w', v', hsplit, -, hlast', htakes⟩ := matchAt?_eq_some hm
  obtain rfl := List.append_cancel_left (between_inj.1 (hlast'.symm.trans hlast)).1
  obtain ⟨l, k, r, rfl, hlength, hgroup⟩ := takes_offsetZeroFetch htakes
  have hcount : m.groupD 1 = k := Match.groupD_eq (by decide) hgroup
  have hnew : (fetchText m).length = k.length + 22 := by
    have hhead : fetchHead.length = 12 := by decide
    have htail : fetchTail.length = 10 := by decide
    rw [fetchText, hcount, List.length_append, List.length_append, hhead, htail]
    omega
  have hold : (l ++ (k ++ r)).length = l.length + (k.length + r.length) := by
    rw [List.length_append, List.length_append]
  omega

theorem fetchText_within {u x : Text} {m : Match} (hm : offsetZeroFetch.matchAt? (between u x) = some m)
    (a b : Text) : fetchText (m.within a b) = fetchText m := by
  rw [fetchText, fetchText, Match.groupD, Match.groupD, Match.group?_within hm (by decide)]

/-- In a query that hides nothing, each `OFFSET` with its `FETCH` is replaced where it is found. -/
theorem gives_offsetFetch {sql : Text} (hmask : mask sql = sql) :
    Gives (offsetFetch sql) (offsetZeroFetch.replaceAllBy fetchText sql) := by
  refine gives_replaceSpans_of_mask_eq hmask (framed_clauses _ (by simp)) fun m hm => ?_
  obtain ⟨span, k, hspan, -, -⟩ := exists_offsetCount sql (by rwa [hmask])
  obtain ⟨u, x, rfl, hat⟩ := exists_of_mem_findAll hm
  simp only [hspan]
  exact (gives_lift (Match.slice?_of_groupSpan? hat (by decide) hspan)).bind (gives_pure _)

/-- What becomes of a name is a name if the replacements are. -/
theorem IsBracketName.replaceAllBy {p : Pattern} {f : Match → Text} (hp : p.Consuming) (hne : ∀ m, f m ≠ [])
    (hf : ∀ u x m, p.matchAt? (between u x) = some m →
      (∀ c ∈ u ++ x, c.isAlphanum = true ∨ c = '_' ∨ c = ' ') →
        ∀ c ∈ f m, c.isAlphanum = true ∨ c = '_' ∨ c = ' ') (h : IsBracketName n) :
    IsBracketName (p.replaceAllBy f n) :=
  ⟨replaceFrom_ne_nil hp hne [] h.1, forall_mem_replaceFrom hp hf [] n h.2⟩

theorem IsBracketName.isPlain (h : IsBracketName n) : ∀ c ∈ n, isPlain c = true :=
  fun _ hc => (isPlain_of_sign (h.sign hc)).1

theorem IsBracketName.quote_not_mem (h : IsBracketName n) : '"' ∉ n := fun hc =>
  (isPlain_of_sign (h.sign hc)).2 '"' (by simp) rfl

theorem IsBracketName.setOperators (h : IsBracketName n) : IsBracketName (setOperators n) := by
  rw [setOperators_of_isPlain h.isPlain h.1]
  refine IsBracketName.replaceAllBy (takesWords_keyword (by decide)).consuming (fun _ => by decide) ?_ h
  intro u x m _ _
  decide

theorem IsBracketName.renamed (h : IsBracketName n) : IsBracketName (renamed n) := by
  have hconsuming := consuming_of_shuns (shuns_brackets offsetZeroFetch (by simp) '[' (by simp))
  have hne : ∀ m, fetchText m ≠ [] := fun m => by
    have hhead : fetchHead ≠ [] := by decide
    simp [fetchText, hhead]
  refine IsBracketName.replaceAllBy hconsuming hne ?_ h.setOperators
  intro u x m hm hchars c hc
  have hcount : ∀ c ∈ m.groupD 1, c ∈ u ++ x := by
    cases hgroup : m.groups.lookup 1 with
    | none => simp [Match.groupD, Match.group?, hgroup]
    | some e =>
      obtain ⟨s, y, z, hsplit, hfirst, hlast⟩ := Match.lookup_eq_some hm hgroup
      obtain rfl : e = (between s (y ++ z), between (s ++ y) z) := Prod.ext hfirst hlast
      rw [Match.groupD_eq (by decide) hgroup, hsplit]
      exact fun c hc => List.mem_append_right s (List.mem_append_left z hc)
  have hwords : ∀ d ∈ fetchHead ++ fetchTail, d.isAlphanum = true ∨ d = '_' ∨ d = ' ' := by decide
  rw [fetchText, List.append_assoc, List.mem_append, List.mem_append] at hc
  rcases hc with hc | hc | hc
  · exact hwords c (List.mem_append_left _ hc)
  · exact hchars c (hcount c hc)
  · exact hwords c (List.mem_append_right _ hc)

/-- A name stays as it is just if it has no word `EXCEPT` and no `OFFSET` with a `FETCH`. -/
theorem renamed_eq_self_iff (h : IsBracketName n) : renamed n = n ↔
    (keyword "EXCEPT".toList).occursIn n = false ∧ offsetZeroFetch.occursIn n = false := by
  have hword : (keyword "EXCEPT".toList).Consuming := (takesWords_keyword (by decide)).consuming
  have hfetch := consuming_of_shuns (shuns_brackets offsetZeroFetch (by simp) '[' (by simp))
  have hminus : ∀ u w v m, (keyword "EXCEPT".toList).matchAt? (between u (w ++ v)) = some m →
      m.last = between (u ++ w) v → "MINUS".toList.length < w.length := by
    intro u w v m hm hlast
    obtain ⟨w', v', hsplit, -, hlast', htakes⟩ := matchAt?_eq_some hm
    obtain rfl := List.append_cancel_left (between_inj.1 (hlast'.symm.trans hlast)).1
    have hspelled := ((matches_keyword (by decide)).1 ⟨_, _, htakes⟩).1
    rw [← List.Forall₂.length_eq hspelled]
    decide
  rw [← findAll_eq_nil_iff hword, ← findAll_eq_nil_iff hfetch]
  have hset : setOperators n = n ↔ (keyword "EXCEPT".toList).findAll n = [] := by
    rw [setOperators_of_isPlain h.isPlain h.1]
    exact replaceAllBy_eq_self_iff hword hminus
  have hoffset : ∀ t, offsetZeroFetch.replaceAllBy fetchText t = t ↔ offsetZeroFetch.findAll t = [] := fun t =>
    replaceAllBy_eq_self_iff hfetch fun u w v m => length_fetchText
  constructor
  · -- neither step makes a name longer, so the first one has left it as it is
    intro hself
    obtain ⟨hle, hsame⟩ := length_replaceFrom hword hminus [] n
    have hle' := (length_replaceFrom hfetch (fun u w v m => length_fetchText) [] (setOperators n)).1
    have hlength : (offsetZeroFetch.replaceFrom fetchText [] (setOperators n)).length = n.length :=
      congrArg List.length hself
    rw [← replaceAllBy_eq_replaceFrom, ← setOperators_of_isPlain h.isPlain h.1] at hle hsame
    have hnone : (keyword "EXCEPT".toList).findAll n = [] := hsame (by omega)
    rw [ToOracle.renamed, hset.2 hnone] at hself
    exact ⟨hnone, (hoffset n).1 hself⟩
  · rintro ⟨hnone, hnone'⟩
    rw [ToOracle.renamed, hset.2 hnone]
    exact (hoffset n).2 hnone'

end

/-! ## From brackets to quotes -/

section
variable {n : Text} {names : List Text} {table : Text}

theorem takes_bracketed {u w v : Text} {g : Groups} (h : Takes bracketed u w v [] g) :
    ∃ k, w = inBrackets k ∧ '[' ∉ k ∧ ']' ∉ k ∧
      g.lookup 1 = some (between (u ++ ['[']) (k ++ ']' :: v), between (u ++ ['['] ++ k) (']' :: v)) := by
  obtain ⟨w, r, g₁, rfl, ⟨l, k, g₂, rfl, hl, g₃, hk, rfl⟩, hr⟩ := h
  obtain ⟨rfl, rfl⟩ := takes_sym hl
  obtain ⟨rfl, rfl⟩ := takes_sym hr
  have hchars : ∀ c ∈ k, c ≠ '[' ∧ c ≠ ']' := by
    refine hk.forall_mem (P := fun c => c ≠ '[' ∧ c ≠ ']') fun s hs c hc => ?_
    have key : ∀ s ∈ (many1 (one (.complement ⟨[(0x5B, 0x5B), (0x5D, 0x5D)]⟩))).charSets,
        s.contains '[' = false ∧ s.contains ']' = false := by decide
    constructor <;> rintro rfl <;> simp [key s hs] at hc
  exact ⟨k, by simp [inBrackets], fun hc => (hchars _ hc).1 rfl, fun hc => (hchars _ hc).2 rfl, by simp⟩

theorem consuming_bracketed : bracketed.Consuming := by
  rintro u w v ⟨g, g', h⟩
  obtain ⟨g', h⟩ := Matches.takes ⟨g, g', h⟩ []
  obtain ⟨k, rfl, -⟩ := takes_bracketed h
  simp [inBrackets]

/-- Nothing but a bracket begins a name in brackets. -/
theorem matchAt?_bracketed_of_ne {c : Char} (hc : c ≠ '[') (u t : Text) :
    bracketed.matchAt? (between u (c :: t)) = none := by
  by_contra hne
  obtain ⟨m, hm⟩ := Option.ne_none_iff_exists'.1 hne
  obtain ⟨w, v, hsplit, -, -, htakes⟩ := matchAt?_eq_some hm
  obtain ⟨k, rfl, -⟩ := takes_bracketed htakes
  exact hc (List.cons.inj hsplit).1

/-- A name in brackets is found. -/
theorem exists_matchAt?_bracketed (h : IsBracketName n) (u v : Text) :
    ∃ m, bracketed.matchAt? (between u (inBrackets n ++ v)) = some m ∧
      m.last = between (u ++ inBrackets n) v ∧ m.groupD 1 = n := by
  have key : ∀ c : Char, c.toNat < 128 → (c.isAlphanum = true ∨ c = '_' ∨ c = ' ') →
      (CharSet.complement ⟨[(0x5B, 0x5B), (0x5D, 0x5D)]⟩).contains c = true := of_ascii (by decide +kernel)
  have hchars : ∀ c ∈ n, (CharSet.complement ⟨[(0x5B, 0x5B), (0x5D, 0x5D)]⟩).contains c = true := fun c hc => by
    have hlt : c.toNat < 128 := by
      rcases h.2 c hc with hc | rfl | rfl
      · exact toNat_lt_of_isNameChar (by simp [hc])
      · decide
      · decide
    exact key c hlt (h.2 c hc)
  have hmatches : Matches bracketed u (inBrackets n) v := by
    refine matches_seq.2 ⟨'[' :: n, [']'], rfl, matches_seq.2 ⟨['['], n, rfl, matches_sym.2 rfl, ?_⟩,
      matches_sym.2 rfl⟩
    exact matches_group.2 (matches_many1_one.2 ⟨h.1, hchars⟩)
  obtain ⟨g, g', htakes⟩ := hmatches
  obtain ⟨m, hm⟩ := Option.isSome_iff_exists.1 (isSome_matchAt?_iff.2 ⟨_, v, g, g', rfl, htakes⟩)
  obtain ⟨w', v', hsplit, -, hlast, htakes'⟩ := matchAt?_eq_some hm
  obtain ⟨k, rfl, -, hk, hgroup⟩ := takes_bracketed htakes'
  -- the name ends at the first closing bracket
  have hclose : ']' ∉ n := fun hc => by
    rcases h.2 _ hc with hc | hc | hc <;> exact absurd hc (by decide)
  obtain ⟨rfl, rfl⟩ : n = k ∧ v = v' :=
    Text.append_cons_inj (c := ']') (by simpa [inBrackets] using hsplit) hclose hk
  exact ⟨m, hm, hlast, Match.groupD_eq (by decide) hgroup⟩

/-- Names in brackets become names in quotes, one by one. -/
theorem replaceAllBy_bracketed (hnames : ∀ n ∈ table :: names, IsBracketName n) (hne : names ≠ []) :
    bracketed.replaceAllBy (fun m => inQuotes (m.groupD 1)) (namesQuery inBrackets names table) =
      namesQuery inQuotes names table := by
  have hskip : ∀ s, '[' ∉ s → ∀ u t, bracketed.replaceFrom (fun m => inQuotes (m.groupD 1)) u (s ++ t) =
      s ++ bracketed.replaceFrom (fun m => inQuotes (m.groupD 1)) (u ++ s) t := fun s hs u t => by
    refine replaceFrom_append_of_none fun a c b hsplit => matchAt?_bracketed_of_ne ?_ _ _
    rintro rfl
    exact hs (by simp [hsplit])
  have hfixed : ∀ s ∈ [listHead, [',', ' '], ToTsql.tableHead], '[' ∉ s := by decide
  have hall : ∀ u, bracketed.replaceFrom (fun m => inQuotes (m.groupD 1)) u (namesQuery inBrackets names table) =
      namesQuery inQuotes (names.map id) (id table) := by
    refine namesQuery_induction (R := fun t t' => ∀ u, bracketed.replaceFrom (fun m => inQuotes (m.groupD 1)) u t = t')
      (replaceFrom_nil consuming_bracketed _) (fun s hs n hn rest rest' hrest u => ?_) hne
    obtain ⟨m, hm, hlast, hgroup⟩ := exists_matchAt?_bracketed (hnames n hn) (u ++ s) rest
    rw [hskip s (hfixed s hs), replaceFrom_of_some consuming_bracketed hm hlast, hgroup, hrest, id]
  rw [replaceAllBy_eq_replaceFrom, hall, List.map_id, id]

end

end ToOracle
end DialectBridge
