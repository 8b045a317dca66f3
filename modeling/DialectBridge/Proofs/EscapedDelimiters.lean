import DialectBridge.Proofs.LetterPatterns
import DialectBridge.Proofs.RefusedCharacters
import DialectBridge.Proofs.SubstitutionSyntax
import DialectBridge.Proofs.Tokens
/-!
# Escaped delimiters

The pattern of a substitution is compiled without the backslashes in front of its delimiters, so an escaped delimiter is
what it means in a regular expression. Between letters it is literal text just if it means itself there, or if it is a
dot (`readsDelimiter_iff`): the other signs are in no match (`mem_replaceFirst`), or the pattern is not accepted
(`compile?_open`).
-/
namespace DialectBridge.Regex
open Reading

section
variable {c d : Char} {a b t : Text} {fuel : Nat} {r : Reading} {re : Regex}

/-! ## Signs that open or close something -/

theorem read?_eq_none (ha : ∀ c ∈ a, c.isAlpha = true) (h : readFrom? (b.length + 2) (d :: b) (readingOf a) = none) :
    read? (a ++ d :: b) = none := by
  rw [read?_letters_append ha, h]
  rfl

/-- A letter is an item of a class, if anything stands behind it. -/
theorem classRange?_letter (hc : c.isAlpha = true) (ht : ∀ c ∈ t, c.isAlpha = true) :
    classRange? false (c :: t) = none ∨ ∃ e, classRange? false (c :: t) = some (e, t) := by
  have hslash : c ≠ '\\' := ne_of_isAlpha hc (by decide)
  have hitem : classItem? false (c :: t) = some (.char c false, t) := by
    unfold classItem?
    split <;> simp_all
  simp only [classRange?, hitem, passSpace, Option.bind_eq_bind, Option.bind_some]
  cases t with
  | nil => exact .inl rfl
  | cons e t =>
    have hminus : e ≠ '-' := ne_of_isAlpha (ht e (by simp)) (by decide)
    refine .inr ⟨.range c c, ?_⟩
    split <;> simp_all [itemClass?]

/-- A class of letters is not closed. -/
theorem classFrom?_letters {items : List ClassExpr} {stack : List ClassFrame} (ht : ∀ c ∈ t, c.isAlpha = true) :
    classFrom? false fuel t items stack = none := by
  induction fuel generalizing t items with
  | zero => rfl
  | succ fuel ih =>
    cases t with
    | nil => rfl
    | cons c t =>
      obtain ⟨hc, ht⟩ := List.forall_mem_cons.1 ht
      have hsigns : c ≠ '[' ∧ c ≠ ']' ∧ c ≠ '&' ∧ c ≠ '-' ∧ c ≠ '~' := by
        refine ⟨?_, ?_, ?_, ?_, ?_⟩ <;> exact ne_of_isAlpha hc (by decide)
      rw [classFrom?]
      simp only [passSpace, Bool.false_eq_true, if_false]
      split
      all_goals try simp_all
      rcases classRange?_letter hc ht with h | ⟨e, h⟩
      · simp [h]
      · simp [h, ih ht]

theorem class?_letters (hb : IsLetters b) : class? false b = none := by
  obtain ⟨c, b, rfl⟩ := List.exists_cons_of_ne_nil hb.1
  have hc := hb.2 c (by simp)
  have hsigns : c ≠ '^' ∧ c ≠ '-' ∧ c ≠ ']' := by
    refine ⟨?_, ?_, ?_⟩ <;> exact ne_of_isAlpha hc (by decide)
  have hstart : classStart? false (c :: b) = some (false, [], c :: b) := by
    simp [classStart?, passSpace, classStart?.hyphens, hsigns]
  rw [class?, hstart]
  exact classFrom?_letters hb.2

theorem isNameChar_of_isAlpha (hc : c.isAlpha = true) : (c.isAlphanum || c == '_') = true := by
  simp [Char.isAlphanum, hc]

theorem isBlank_of_isAlpha (hc : c.isAlpha = true) : Unicode.isBlank c = false :=
  isBlank_of_isWordChar
    (Pattern.isWordChar_of_mem_caseVariants (isNameChar_of_isAlpha hc) (Unicode.self_mem_caseVariants c))

theorem isDigit_of_isAlpha (hc : c.isAlpha = true) : c.isDigit = false := by
  have key : ∀ c : Char, c.toNat < 128 → c.isAlpha = true → c.isDigit = false := of_ascii (by decide +kernel)
  exact key c (Pattern.toNat_lt_of_isNameChar (isNameChar_of_isAlpha hc)) hc

/-- No number stands in front of letters. -/
theorem decimal?_letters (hb : IsLetters b) : decimal? false b = (none, b) := by
  obtain ⟨c, b, rfl⟩ := List.exists_cons_of_ne_nil hb.1
  have hc := hb.2 c (by simp)
  have hdrop : (c :: b).dropWhile Unicode.isBlank = c :: b :=
    List.dropWhile_cons_of_neg (by simp [isBlank_of_isAlpha hc])
  have hdigits : digitsFrom false (c :: b).length (c :: b) = ([], c :: b) := by
    simp [digitsFrom, isDigit_of_isAlpha hc]
  simp only [decimal?, hdrop, hdigits]
  rfl

theorem bounds?_letters (hb : IsLetters b) : bounds? false b = none := by
  have hsigns : ∀ c t, b = c :: t → c ≠ '}' ∧ c ≠ ',' := by
    rintro c t rfl
    constructor <;> exact ne_of_isAlpha (hb.2 c (by simp)) (by decide)
  simp only [bounds?, passSpace, Bool.false_eq_true, if_false, decimal?_letters hb]
  split
  · exact absurd rfl (hsigns _ _ rfl).1
  · exact absurd rfl (hsigns _ _ rfl).2
  · rfl

theorem groupHead?_letters (hb : IsLetters b) : groupHead? false b = some (.capture none, b) := by
  obtain ⟨c, b, rfl⟩ := List.exists_cons_of_ne_nil hb.1
  have hc : c ≠ '?' := ne_of_isAlpha (hb.2 c (by simp)) (by decide)
  simp only [groupHead?, passSpace, Bool.false_eq_true, if_false]
  split <;> simp_all

/-- A group, a class or a counted repetition that is not closed, and a group that is not open, are not accepted. -/
theorem compile?_open (ha : IsLetters a) (hb : IsLetters b) (hd : d ∈ ['(', ')', '[', '{']) :
    compile? false (a ++ d :: b) = none := by
  have hnone : read? (a ++ d :: b) = none := by
    refine read?_eq_none ha.2 ?_
    simp only [List.mem_cons, List.not_mem_nil, or_false] at hd
    rcases hd with rfl | rfl | rfl | rfl
    · rw [readFrom?, readingOf]
      simp only [passSpace, Bool.false_eq_true, if_false, groupHead?_letters hb, Option.bind_eq_bind, Option.bind_some]
      rw [openGroup?]
      simp only [Option.any_none, Bool.false_eq_true, if_false, Option.bind_some]
      rw [readFrom?_letters_end hb.2 rfl]
      rfl
    · rfl
    · rw [readFrom?, readingOf]
      simp only [passSpace, Bool.false_eq_true, if_false, class?_letters hb]
      rfl
    · rw [readFrom?, readingOf]
      simp only [passSpace, Bool.false_eq_true, if_false, bounds?_letters hb]
      rfl
  rw [compile?, hnone]
  rfl

/-! ## Signs that are no characters -/

/-- What is compiled is the program of the node that is read. -/
theorem exists_of_compile? (h : compile? false t = some re) :
    ∃ e names n, read? t = some (e, names) ∧ e.node? plainFlags = some n ∧ re = ⟨.ofNode n, names⟩ := by
  unfold compile? at h
  obtain ⟨⟨e, names⟩, hread, h⟩ := Option.bind_eq_some_iff.1 h
  by_cases hdeep : Expr.heightLimit < e.height false false
  · simp [hdeep] at h
  · simp only [hdeep, if_false] at h
    obtain ⟨n, hnode, h⟩ := Option.bind_eq_some_iff.1 h
    cases hfits : n.fits with
    | false => simp [hfits] at h
    | true => exact ⟨e, names, n, hread, hnode, by simpa [hfits, eq_comm] using h⟩

theorem avoids_literals (hd : d ∉ a) : ∀ n ∈ literals a, n.Avoids d := by
  intro n hn
  obtain ⟨c, hc, rfl⟩ := List.mem_map.1 hn
  simpa [Node.Avoids] using fun h : d = c => hd (h ▸ hc)

/-- Letters around an item without the sign. -/
theorem avoids_around {e : Expr} {m n : Node} (hb : b ≠ []) (ha : d ∉ a) (hd : d ∉ b) (he : IsItem plainFlags e m)
    (hm : m.Avoids d) (hnode : (seq (charItems a ++ e :: charItems b)).node? plainFlags = some n) : n.Avoids d := by
  have hitems : List.Forall₂ (IsItem plainFlags) (charItems a ++ e :: charItems b) (literals a ++ m :: literals b) :=
    List.rel_append (isItem_charItems a) (.cons he (isItem_charItems b))
  have hlength : 2 ≤ (charItems a ++ e :: charItems b).length := by
    have := List.length_pos_iff.2 hb
    simp only [charItems, List.length_append, List.length_map, List.length_cons]
    omega
  rw [Expr.node?, nodes?_seq_concat hitems hlength, Option.map_some, Option.some.injEq] at hnode
  subst hnode
  refine Node.avoids_concat (List.forall_mem_singleton.2 (Node.avoids_concat fun n hn => ?_))
  rcases List.mem_append.1 hn with hn | hn
  · exact avoids_literals ha n hn
  · exact (List.forall_mem_cons.2 ⟨hm, avoids_literals hd⟩) n hn

/-- A repetition of the last letter. -/
theorem read?_repeated (ha : ∀ c ∈ a, c.isAlpha = true) (hc : c.isAlpha = true) (hb : IsLetters b)
    (hd : d ∈ ['*', '+', '?']) : ∃ least most,
      read? (a ++ [c] ++ d :: b) =
        some (seq (charItems a ++ .rep least most true (.char c false) :: charItems b), []) := by
  have hlazy : laziness b = (true, b) := by
    obtain ⟨e, b, rfl⟩ := List.exists_cons_of_ne_nil hb.1
    have he : e ≠ '?' := ne_of_isAlpha (hb.2 e (by simp)) (by decide)
    unfold laziness
    split <;> simp_all
  have hac : ∀ e ∈ a ++ [c], e.isAlpha = true := by
    intro e he
    rcases List.mem_append.1 he with he | he
    · exact ha e he
    · exact List.mem_singleton.1 he ▸ hc
  have hreading : readingOf (a ++ [c]) = ⟨false, [], .char c false :: (charItems a).reverse, [], 0, []⟩ := by
    simp [readingOf, charItems]
  have hrest : ∀ least most, (readFrom? (b.length + 1) b ⟨false, [], .rep least most true (.char c false) ::
      (charItems a).reverse, [], 0, []⟩).map (fun r => (r.inner, r.names)) =
        some (seq (charItems a ++ .rep least most true (.char c false) :: charItems b), []) := by
    intro least most
    have h : (readFrom? (b.length + 1) b ⟨false, [], (charItems a ++ [Expr.rep least most true (.char c false)]).reverse,
        [], 0, []⟩).map (fun r => (r.inner, r.names)) = _ := read?_of_rest hb.2
    simpa [choiceOf] using h
  have hquantifier : ∃ least most, readFrom? (b.length + 2) (d :: b) (readingOf (a ++ [c])) =
      readFrom? (b.length + 1) b
        ⟨false, [], .rep least most true (.char c false) :: (charItems a).reverse, [], 0, []⟩ := by
    rw [hreading]
    simp only [List.mem_cons, List.not_mem_nil, or_false] at hd
    rcases hd with rfl | rfl | rfl
    all_goals
      rw [readFrom?]
      simp only [passSpace, Bool.false_eq_true, if_false, hlazy]
    · exact ⟨0, none, rfl⟩
    · exact ⟨1, none, rfl⟩
    · exact ⟨0, some 1, rfl⟩
  obtain ⟨least, most, hquantifier⟩ := hquantifier
  exact ⟨least, most, by rw [read?_letters_append hac, hquantifier, hrest]⟩

/-- Two alternatives. -/
theorem read?_bar (ha : ∀ c ∈ a, c.isAlpha = true) (hb : ∀ c ∈ b, c.isAlpha = true) :
    read? (a ++ '|' :: b) = some (.alt (seq (charItems a)) (seq (charItems b)), []) := by
  have hbar : readFrom? (b.length + 2) ('|' :: b) (readingOf a) =
      readFrom? (b.length + 1) b ⟨false, [seq (charItems a)], [].reverse, [], 0, []⟩ := by
    rw [← sequenceOf_reverse]
    rfl
  rw [read?_letters_append ha, hbar, read?_of_rest hb]
  rfl

theorem nodes?_charItems (ha : a ≠ []) (inAlt : Bool) :
    (seq (charItems a)).nodes? false inAlt plainFlags = some ([.literal a], plainFlags) := by
  rcases a with _ | ⟨c, _ | ⟨c', a⟩⟩
  · exact absurd rfl ha
  · rfl
  · rw [nodes?_seq_concat (isItem_charItems _) (by simp [charItems]), concat_literals ha]

theorem avoids_bar {n : Node} (ha : a ≠ []) (hb : b ≠ []) (had : d ∉ a) (hbd : d ∉ b)
    (hnode : (Expr.alt (seq (charItems a)) (seq (charItems b))).node? plainFlags = some n) : n.Avoids d := by
  have halt : (Expr.alt (seq (charItems a)) (seq (charItems b))).nodes? false false plainFlags =
      some ([.choice [.literal a, .literal b]], plainFlags) := by
    rw [Expr.nodes?, nodes?_charItems ha]
    simp [nodes?_charItems hb]
  rw [Expr.node?, halt, Option.map_some, Option.some.injEq] at hnode
  exact hnode ▸ Node.avoids_concat (List.forall_mem_singleton.2 (avoids_choice_literals had hbd))

/-- A sign that is no character of the pattern is taken by no instruction. -/
theorem not_canTake_of_compile? (ha : IsLetters a) (hb : IsLetters b) (hd : d ∈ ['*', '+', '?', '^', '$', '|'])
    (h : compile? false (a ++ d :: b) = some re) : ¬ re.program.CanTake d := by
  have hsign : d.isAlpha = false := (by decide : ∀ d ∈ ['*', '+', '?', '^', '$', '|'], d.isAlpha = false) d hd
  have hnot : ∀ {t : Text}, (∀ c ∈ t, c.isAlpha = true) → d ∉ t := fun ht hmem => ne_of_isAlpha (ht d hmem) hsign rfl
  obtain ⟨e, names, n, hread, hnode, rfl⟩ := exists_of_compile? h
  refine not_canTake_ofNode ?_
  have hrepeated : d ∈ ['*', '+', '?'] → n.Avoids d := by
    intro hd
    rcases List.eq_nil_or_concat a with rfl | ⟨a, c, rfl⟩
    · exact absurd rfl ha.1
    rw [List.concat_eq_append] at ha hread
    have hac := List.forall_mem_append.1 ha.2
    obtain ⟨least, most, hitems⟩ := read?_repeated hac.1 (hac.2 c (by simp)) hb hd
    obtain ⟨rfl, -⟩ := Prod.mk.inj (Option.some.inj (hread.symm.trans hitems))
    refine avoids_around hb.1 (hnot hac.1) (hnot hb.2) (fun _ _ => rfl) (Node.avoids_repeated ?_ _ _ _) hnode
    exact Node.avoids_concat (avoids_literals (a := [c]) (hnot hac.2))
  have hlook : ∀ l, readFrom? (b.length + 2) (d :: b) (readingOf a) =
      readFrom? (b.length + 1) b ((readingOf a).push (.look l)) → n.Avoids d := by
    intro l hpush
    obtain ⟨rfl, -⟩ := Prod.mk.inj (Option.some.inj (hread.symm.trans (read?_pushed ha.2 hb.2 hpush)))
    have hitem : IsItem plainFlags (.look l) (.check (l.assertion plainFlags)) := fun _ _ => rfl
    exact avoids_around hb.1 (hnot ha.2) (hnot hb.2) hitem trivial hnode
  simp only [List.mem_cons, List.not_mem_nil, or_false] at hd
  rcases hd with rfl | rfl | rfl | rfl | rfl | rfl
  · exact hrepeated (by simp)
  · exact hrepeated (by simp)
  · exact hrepeated (by simp)
  · exact hlook .lineStart rfl
  · exact hlook .lineEnd rfl
  · obtain ⟨rfl, -⟩ := Prod.mk.inj (Option.some.inj (hread.symm.trans (read?_bar ha.2 hb.2)))
    exact avoids_bar ha.1 hb.1 (hnot ha.2) (hnot hb.2) hnode

/-! ## Replacing -/

/-- A replacement without a dollar sign stands for itself. -/
theorem expandAt_of_noDollar {replacement : Text} (h : '$' ∉ replacement) (names : List (Text × Nat)) (m : Match) :
    Pattern.expandAt names replacement m = replacement := by
  rw [Pattern.expandAt, ReplacementPart.parts_of_noDollar h, List.flatMap_map]
  simp [ReplacementPart.expand]

/-- A text that a chain takes becomes the replacement. -/
theorem replaceFirst_chain {sets : List CharSet} {replacement : Text} (hre : re.program = .chain sets)
    (ht : List.Forall₂ (fun s c => s.contains c = true) sets t) (h : '$' ∉ replacement) :
    re.replaceFirst replacement t = replacement := by
  have hstart : Cursor.atStart t = .between [] t := rfl
  have hupTo : (Cursor.between [] t).upTo (.between [] t) = [] := Cursor.upTo_between [] [] t
  rw [replaceFirst, hre, Program.find?_chain ht, Option.toList_some, Pattern.replaceMatches, Pattern.replaceMatches,
    hstart, hupTo, expandAt_of_noDollar h]
  simp

/-- A character that no instruction takes stays. -/
theorem mem_replaceFirst (hd : ¬ re.program.CanTake d) (ht : d ∈ t) (replacement : Text) :
    d ∈ re.replaceFirst replacement t := by
  rw [replaceFirst]
  cases hfind : re.program.find? t with
  | none => exact ht
  | some m =>
    obtain ⟨u, w, v, rfl, hfirst, hlast, hw⟩ := Program.covers_of_find? hfind
    have hstart : Cursor.atStart (u ++ (w ++ v)) = .between [] (u ++ (w ++ v)) := rfl
    have hupTo : (Cursor.between [] (u ++ (w ++ v))).upTo (.between u (w ++ v)) = u := Cursor.upTo_between [] u (w ++ v)
    have hnot : d ∉ w := fun h => hd (hw d h)
    rw [Option.toList_some, Pattern.replaceMatches, Pattern.replaceMatches, hfirst, hlast, hstart, hupTo]
    simp only [List.mem_append, hnot, false_or, Cursor.right_between] at ht ⊢
    exact ht.imp_left .inl

end

end DialectBridge.Regex

namespace DialectBridge.Substitution
open Regex

variable {d : Char} {a b r : Text}

/-- The delimiters that mean something else than themselves, even with a backslash in front of them. -/
def misread : Text := ['*', '+', '?', '^', '$', '|', '(', ')', '[', '{']

def escapedText (d : Char) (a b r : Text) : Text := 's' :: d :: (a ++ '\\' :: d :: (b ++ d :: (r ++ [d])))

theorem not_mem_letters (hd : isDelimiter d = true) (ht : IsLetters t) : d ∉ t := by
  intro hmem
  have key : ∀ c : Char, c.toNat < 128 → c.isAlpha = true → isDelimiter c = false :=
    of_ascii (by decide +kernel)
  have halpha := ht.2 d hmem
  simp [key d (Pattern.toNat_lt_of_isNameChar (isNameChar_of_isAlpha halpha)) halpha] at hd

theorem getLast?_letters (ht : IsLetters t) (u : Text) : (u ++ t).getLast? ≠ some '\\' := by
  intro h
  have hmem : '\\' ∈ t := by
    rw [List.getLast?_append_of_ne_nil _ ht.1] at h
    exact List.mem_of_getLast? h
  exact ne_of_isAlpha (ht.2 _ hmem) (by decide) rfl

/-- The pattern has the delimiter without its backslash. -/
theorem parse_escapedText (hd : isDelimiter d = true) (ha : IsLetters a) (hb : IsLetters b) (hr : IsLetters r) :
    parse (escapedText d a b r) = match compile? false (a ++ d :: b) with
      | none => .error (.invalidRegex (a ++ d :: b))
      | some regex => .ok ⟨a ++ d :: b, regex, r, false⟩ := by
  have hlast := getLast?_letters hb (a ++ [d])
  rw [List.append_assoc, List.singleton_append] at hlast
  let script : Script := ⟨d, a ++ d :: b, r, [], hd, by simp, hlast, getLast?_letters hr [], by simp [IsFlags]⟩
  have hescape : escape d (a ++ d :: b) = a ++ '\\' :: d :: b := by
    rw [escape_append, escape_of_not_mem (not_mem_letters hd ha), escape, if_pos rfl,
      escape_of_not_mem (not_mem_letters hd hb)]
  have hwritten : Written d (a ++ d :: b) r [] (escapedText d a b r) := by
    have h := Written.closed (d := d) (p := a ++ d :: b) (r := r) []
    rw [hescape, escape_of_not_mem (not_mem_letters hd hr)] at h
    simpa [escapedText] using h
  exact script.parse_eq hwritten

/-- Single characters take their text. -/
theorem forall₂_single (t : Text) : List.Forall₂ (fun s c => CharSet.contains s c = true) (t.map .single) t := by
  rw [List.forall₂_map_left_iff, List.forall₂_same]
  exact fun c _ => by simp [CharSet.contains_single]

/-- The escaped delimiter is literal text: the substitution is one, and it replaces the text. -/
def ReadsDelimiter (d : Char) (a b r : Text) : Prop :=
  ∃ s, parse (escapedText d a b r) = .ok s ∧ s.apply (a ++ d :: b) = r

/-- A pattern that is a chain of its own characters. -/
theorem readsDelimiter_iff_fits {n : Node} {sets : List CharSet} (hd : isDelimiter d = true) (ha : IsLetters a)
    (hb : IsLetters b) (hr : IsLetters r) (hchain : Program.ofNode n = .chain sets)
    (hcompile : compile? false (a ++ d :: b) = if n.fits then some ⟨.ofNode n, []⟩ else none)
    (hsets : List.Forall₂ (fun s c => CharSet.contains s c = true) sets (a ++ d :: b)) :
    ReadsDelimiter d a b r ↔ n.fits = true := by
  have hdollar : '$' ∉ r := fun h => ne_of_isAlpha (hr.2 _ h) (by decide) rfl
  rw [ReadsDelimiter, parse_escapedText hd ha hb hr, hcompile]
  cases n.fits with
  | false => simp
  | true => simpa [apply] using replaceFirst_chain hchain hsets hdollar

/-- A delimiter with another meaning stays in the text, or the pattern is not accepted. -/
theorem not_readsDelimiter (hd : isDelimiter d = true) (hmisread : d ∈ misread) (ha : IsLetters a) (hb : IsLetters b)
    (hr : IsLetters r) : ¬ ReadsDelimiter d a b r := by
  rintro ⟨s, hparse, hresult⟩
  rw [parse_escapedText hd ha hb hr] at hparse
  cases hcompile : compile? false (a ++ d :: b) with
  | none => simp [hcompile] at hparse
  | some re =>
    rw [hcompile] at hparse
    obtain rfl := Except.ok.inj hparse
    by_cases hopen : d ∈ ['(', ')', '[', '{']
    · simp [compile?_open ha hb hopen] at hcompile
    · have hsign : d ∈ ['*', '+', '?', '^', '$', '|'] := by
        simp only [misread, List.mem_cons, List.not_mem_nil, or_false] at hmisread hopen ⊢
        tauto
      refine not_mem_letters hd hr ?_
      rw [← hresult]
      exact mem_replaceFirst (not_canTake_of_compile? ha hb hsign hcompile) (by simp) r

/-- An escaped delimiter is literal text just when it means itself in a regular expression, or is a dot, and the
pattern is not too large. -/
theorem readsDelimiter_iff (hd : isDelimiter d = true) (ha : IsLetters a) (hb : IsLetters b) (hr : IsLetters r) :
    ReadsDelimiter d a b r ↔ d ∉ misread ∧
      if d = '.' then (Node.cat (.literal a) (.cat (.set dotSet false) (.literal b))).fits = true
      else Text.width (a ++ d :: b) ≤ 327673 := by
  by_cases hmisread : d ∈ misread
  · simp [hmisread, not_readsDelimiter hd hmisread ha hb hr]
  · rw [and_iff_right hmisread]
    by_cases hdot : d = '.'
    · subst hdot
      rw [if_pos rfl]
      refine readsDelimiter_iff_fits hd ha hb hr (ofNode_around a b dotSet false) (compile?_dot ha hb) ?_
      exact List.rel_append (forall₂_single a) (.cons (by decide) (forall₂_single b))
    · have hplain : hasMeaning d = false := by
        have hslash := (ne_of_isDelimiter hd).1
        simp only [misread, List.mem_cons, List.not_mem_nil, or_false, not_or] at hmisread
        simp [hasMeaning, hdot, hslash, hmisread]
      rw [if_neg hdot, ← fits_literal]
      exact readsDelimiter_iff_fits hd ha hb hr (ofNode_literal _) (compile?_plain ha hb hplain) (forall₂_single _)

/-- A slash means itself. -/
theorem readsDelimiter_slash : ReadsDelimiter '/' "ab" "c" "xy" :=
  (readsDelimiter_iff (by decide) (by decide) (by decide) (by decide)).2 ⟨by decide, by decide⟩

/-- A bar does not: what stands for a literal bar is an alternative. -/
theorem not_readsDelimiter_bar : isDelimiter '|' = true ∧ IsLetters "a" ∧ IsLetters "b" ∧ IsLetters "r" ∧
    escapedText '|' "a" "b" "r" = "s|a\\|b|r|".toList ∧ ¬ ReadsDelimiter '|' "a" "b" "r" :=
  ⟨by decide, by decide, by decide, by decide, rfl,
    not_readsDelimiter (by decide) (by decide) (by decide) (by decide) (by decide)⟩

end DialectBridge.Substitution
