import DialectBridge.Proofs.OrderedFetches
/-!
# Offsets of every form

The rule for `FETCH` knows an `OFFSET` clause by its number. Between names in lists no other number is one of rows
(`Calm`), so that the clause of an ordered query stays just where its offset is a number, and gets another offset
behind a name, a bind variable or parentheses (`fetchFirst_offset`).
-/
namespace DialectBridge.ToTsql
open Pattern Cursor LexState

/-! ## Texts without white space -/

section
variable {t : Text}

/-- Two words never follow each other in a text. -/
theorem isChain_pieces (t : Text) :
    (pieces t).IsChain fun p q => endsInWord p = true → beginsInWord q = false := by
  induction t with
  | nil => exact List.isChain_nil
  | cons c t ih =>
    rw [pieces_cons]
    cases hpieces : pieces t with
    | nil => exact List.isChain_singleton _
    | cons q qs =>
      rw [hpieces] at ih
      rw [attach]
      split_ifs with hword
      · -- the word goes on to the left
        have hne : q ≠ [] := ne_nil_of_mem_pieces (t := t) (by simp [hpieces])
        have hend : endsInWord (c :: q) = endsInWord q := by
          rw [← List.singleton_append, endsInWord_append hne]
        cases qs with
        | nil => exact List.isChain_singleton _
        | cons r qs =>
          rw [List.isChain_cons_cons] at ih ⊢
          exact ⟨fun h => ih.1 (hend ▸ h), ih.2⟩
      · refine List.isChain_cons_cons.2 ⟨fun hend => ?_, ih⟩
        rw [Bool.and_eq_true, not_and, Bool.not_eq_true] at hword
        exact hword (by simpa using hend)

theorem tokens_of_solid (h : ∀ c ∈ t, Unicode.isBlank c = false) : tokens t = pieces t := by
  refine List.filter_eq_self.2 fun p hp => ?_
  obtain ⟨c, p, rfl⟩ := List.exists_cons_of_ne_nil (ne_nil_of_mem_pieces hp)
  have hc : c ∈ t := by
    rw [← flatten_pieces t]
    exact List.mem_flatten.2 ⟨_, hp, by simp⟩
  rw [isBlankText, List.all_cons, h c hc]
  rfl

/-- A number in a text without white space stands behind a sign. -/
theorem isChain_tokens_of_solid (h : ∀ c ∈ t, Unicode.isBlank c = false) : (tokens t).IsChain Uncounted := by
  rw [tokens_of_solid h]
  refine (isChain_pieces t).imp fun p q hpq hq => ?_
  obtain ⟨hne, hword⟩ := isWordChar_of_isNumber hq
  obtain ⟨c, q, rfl⟩ := List.exists_cons_of_ne_nil hne
  have hend : endsInWord p ≠ true := fun hend => by
    have := hpq hend
    rw [beginsInWord_cons, hword c (by simp)] at this
    cases this
  exact ⟨fun hs => hend (by simpa using hs.endsInWord (by decide) []),
    fun hs => hend (by simpa using hs.endsInWord (by decide) [])⟩

/-- An offset without white space is a number, or none that the rule knows. -/
theorem isOffsetClause_of_solid (h : ∀ c ∈ t, Unicode.isBlank c = false) (before : List Text) :
    isOffsetClause ("ROWS".toList :: ((tokens t).reverse ++ "OFFSET".toList :: before)) = isNumber t := by
  have hrows : isRows "ROWS".toList = true := by decide
  have hname : isName "OFFSET".toList = true := by decide
  have hoffset : isNumber "OFFSET".toList = false := by decide
  have hnumber : isNumber t = true → tokens t = [t] := fun hn =>
    tokens_word (isWordChar_of_isNumber hn).1 (isWordChar_of_isNumber hn).2
  have hchain := isChain_pieces t
  rw [← tokens_of_solid h] at hchain
  have hflatten : (tokens t).flatten = t := by rw [tokens_of_solid h, flatten_pieces]
  rcases List.eq_nil_or_concat (tokens t) with hnil | ⟨ts, p, hts⟩
  · have ht : isNumber t = false := by
      by_contra hn
      rw [hnumber (by simpa using hn)] at hnil
      cases hnil
    rw [hnil, ht]
    cases before with
    | nil => rfl
    | cons o before =>
      simp only [List.reverse_nil, List.nil_append, isOffsetClause, hoffset, Bool.and_false, Bool.false_and]
  rw [List.concat_eq_append] at hts
  rcases List.eq_nil_or_concat ts with rfl | ⟨ts, q, rfl⟩
  · obtain rfl : p = t := by rw [hts] at hflatten; simpa using hflatten
    rw [hts]
    simp only [List.nil_append, List.reverse_singleton, List.singleton_append, isOffsetClause, hrows, spelled_self,
      decide_true, Bool.true_and, Bool.and_true]
  · -- the last token is no number behind the word
    have ht : isNumber t = false := by
      by_contra hn
      have := congrArg List.length (hts.symm.trans (hnumber (by simpa using hn)))
      simp at this
    rw [List.concat_eq_append, List.append_assoc] at hts
    have hpair : endsInWord q = true → beginsInWord p = false := by
      rw [hts] at hchain
      exact (List.isChain_cons_cons.1 hchain.right_of_append).1
    rw [hts, ht]
    simp only [List.reverse_append, List.reverse_cons, List.reverse_nil, List.nil_append, List.cons_append,
      isOffsetClause, hrows, Bool.true_and, Bool.and_eq_false_iff, decide_eq_false_iff_not]
    by_contra hboth
    rw [not_or, Bool.not_eq_false, not_not] at hboth
    obtain ⟨hp, hq⟩ := hboth
    have hbegin := hpair (by simpa using hq.endsInWord hname [])
    obtain ⟨c, p, rfl⟩ := List.exists_cons_of_ne_nil (isWordChar_of_isNumber hp).1
    rw [beginsInWord_cons, (isWordChar_of_isNumber hp).2 c (by simp)] at hbegin
    cases hbegin

end

/-! ## Parts of a query -/

/-- A part of a query: it hides nothing, closes its parentheses and has no number of rows. -/
structure Calm (t : Text) : Prop where
  plain : ∀ c ∈ t, isPlain c = true
  nested : ∀ d, nest d t = some d
  uncounted : (tokens t).IsChain Uncounted

/-- A part without white space. -/
structure Solid (t : Text) : Prop where
  plain : ∀ c ∈ t, isPlain c = true
  solid : ∀ c ∈ t, Unicode.isBlank c = false
  nested : ∀ d, nest d t = some d

/-- Words and signs between two parts of a query. -/
structure IsSeam (s : Text) : Prop where
  plain : ∀ c ∈ s, isPlain c = true
  neutral : '(' ∉ s ∧ ')' ∉ s
  right : endsInWord s = false
  words : tokens s ≠ [] ∧ ∀ p ∈ tokens s, isNumber p = false ∧ ¬ Spelled "FIRST".toList p ∧ ¬ Spelled "NEXT".toList p

section
variable {s t x y : Text}

theorem Solid.calm (h : Solid t) : Calm t := ⟨h.plain, h.nested, isChain_tokens_of_solid h.solid⟩

/-- Parts with words or signs between them make a part. -/
theorem IsSeam.calm (hs : IsSeam s) (hx : Calm x) (hy : Calm y) (hapart : Apart x s) : Calm (x ++ (s ++ y)) := by
  refine ⟨?_, fun d => ?_, ?_⟩
  · simp only [List.forall_mem_append]
    exact ⟨hx.plain, hs.plain, hy.plain⟩
  · rw [nest_append, hx.nested, Option.bind_some, nest_append_of_neutral (nest_of_not_mem hs.neutral.1 hs.neutral.2),
      hy.nested]
  · have hne : s ≠ [] := by
      rintro rfl
      exact hs.words.1 rfl
    have hapart' : Apart x (s ++ y) := fun hend => by rw [beginsInWord_append hne, hapart hend]
    rw [tokens_append hapart', tokens_append (.of_ends hs.right y)]
    have hseam : ∀ p ∈ tokens s, ∀ q, Uncounted p q := fun p hp q _ => (hs.words.2 p hp).2
    have hinner : (tokens s).IsChain Uncounted := (List.pairwise_of_forall_mem_list fun p hp q _ => hseam p hp q).isChain
    refine hx.uncounted.append (hinner.append hy.uncounted fun p hp q _ => hseam p (List.mem_of_getLast? hp) q) ?_
    intro p _ q hq hnumber
    rw [List.head?_append_of_ne_nil _ hs.words.1] at hq
    rw [(hs.words.2 q (List.mem_of_head? hq)).1] at hnumber
    cases hnumber

theorem Calm.mask_eq (h : Calm t) : mask t = t := mask_of_all_isPlain h.plain

end

/-! ## Names, numbers and offsets -/

def numeral (zeros n : Nat) : Text := List.replicate zeros '0' ++ Text.ofNat n

/-- A name that needs no quotes. -/
structure Identifier where
  first : Char
  rest : Text
  begins : Unicode.isWordChar first = true ∧ Unicode.isDigit first = false
  continues : ∀ c ∈ rest, Unicode.isWordChar c = true ∨ c = '$' ∨ c = '#'

def Identifier.text (i : Identifier) : Text := i.first :: i.rest

def nameList (names : List Identifier) : Text := Text.join ", ".toList (names.map Identifier.text)

/-- The number of rows to leave out. -/
inductive Offset where
  | number (zeros n : Nat)
  | name (i : Identifier)
  | bind (i : Identifier)
  | parens (e : Offset)

namespace Offset

def text : Offset → Text
  | number zeros n => numeral zeros n
  | name i => i.text
  | bind i => ':' :: i.text
  | parens e => '(' :: (e.text ++ [')'])

def isNumber : Offset → Bool
  | number _ _ => true
  | _ => false

end Offset

section
variable {zeros n bound : Nat}

theorem isDigit_of_mem_numeral {c : Char} (h : c ∈ numeral zeros n) : c.isDigit = true := by
  rcases List.mem_append.1 h with h | h
  · rw [List.eq_of_mem_replicate h]
    rfl
  · exact Text.isDigit_of_mem_ofNat h

theorem isNumber_numeral : isNumber (numeral zeros n) = true :=
  isNumber_iff.2 ⟨List.append_ne_nil_of_right_ne_nil _ Nat.toDigits_ne_nil,
    fun _ hc => isDigit_of_ascii (isDigit_of_mem_numeral hc)⟩

/-- Zeros in front of a number do not matter. -/
theorem readNat?_numeral : Text.readNat? 10 bound (numeral zeros n) = if n < bound then some n else none := by
  have hzeros : Text.readDigits 10 0 (List.replicate zeros '0') = some 0 := by
    induction zeros with
    | zero => rfl
    | succ zeros ih => rwa [List.replicate_succ, Text.readDigits]
  have hread : Text.readDigits 10 0 (numeral zeros n) = some n := by
    rw [numeral, Text.readDigits_append, hzeros, Option.bind_some, Text.readDigits_ofNat]
  have hfilled : numeral zeros n ≠ [] := (isNumber_iff.1 isNumber_numeral).1
  obtain ⟨c, t, ht⟩ := List.exists_cons_of_ne_nil hfilled
  have hplus : c ≠ '+' := by
    rintro rfl
    have hdigit : '+'.isDigit = true := isDigit_of_mem_numeral (by rw [ht]; exact List.mem_cons_self)
    exact absurd hdigit (by decide)
  rw [ht] at hread ⊢
  unfold Text.readNat?
  split
  · simp_all
  · simp [hread]

end

theorem solid_nil : Solid [] := ⟨by simp, by simp, fun _ => rfl⟩

theorem Solid.cons {c : Char} {t : Text} (ht : Solid t) (hc : isPlain c = true ∧ Unicode.isBlank c = false)
    (hparen : c ≠ '(' ∧ c ≠ ')') : Solid (c :: t) := by
  refine ⟨List.forall_mem_cons.2 ⟨hc.1, ht.plain⟩, List.forall_mem_cons.2 ⟨hc.2, ht.solid⟩, fun d => ?_⟩
  rw [nest, if_neg hparen.1, if_neg hparen.2, ht.nested]

theorem solid_of_isWordChar {t : Text} (h : ∀ c ∈ t, Unicode.isWordChar c = true ∨ c = '$' ∨ c = '#') : Solid t := by
  have hsigns : ∀ c ∈ ['$', '#'], (isPlain c = true ∧ Unicode.isBlank c = false) ∧ c ≠ '(' ∧ c ≠ ')' := by decide
  induction t with
  | nil => exact solid_nil
  | cons c t ih =>
    obtain ⟨hc, ht⟩ := List.forall_mem_cons.1 h
    rcases hc with hword | hsign
    · refine (ih ht).cons ⟨isPlain_of_isWordChar hword, isBlank_of_isWordChar hword⟩ ⟨?_, ?_⟩
      · rintro rfl
        exact absurd hword (by decide)
      · rintro rfl
        exact absurd hword (by decide)
    · obtain ⟨hc, hparen⟩ := hsigns c (by simpa using hsign)
      exact (ih ht).cons hc hparen

theorem Identifier.solid (i : Identifier) : Solid i.text :=
  solid_of_isWordChar (List.forall_mem_cons.2 ⟨.inl i.begins.1, i.continues⟩)

theorem Offset.solid (e : Offset) : Solid e.text := by
  induction e with
  | number zeros n => exact solid_of_isWordChar fun c hc => .inl ((isWordChar_of_isNumber isNumber_numeral).2 c hc)
  | name i => exact i.solid
  | bind i => exact i.solid.cons (by decide) (by decide)
  | parens e ih =>
    have hparens : ∀ c ∈ ['(', ')'], isPlain c = true ∧ Unicode.isBlank c = false := by decide
    refine ⟨?_, ?_, fun d => ?_⟩
    · simp only [Offset.text, List.forall_mem_cons, List.forall_mem_append]
      exact ⟨(hparens '(' (by simp)).1, ih.plain, (hparens ')' (by simp)).1, by simp⟩
    · simp only [Offset.text, List.forall_mem_cons, List.forall_mem_append]
      exact ⟨(hparens '(' (by simp)).2, ih.solid, (hparens ')' (by simp)).2, by simp⟩
    · rw [Offset.text, nest_open, nest_append, ih.nested, Option.bind_some, nest_close, nest_nil]

/-- Only the number is written as one. -/
theorem Offset.isNumber_text (e : Offset) : ToTsql.isNumber e.text = e.isNumber := by
  have hnot : ∀ {c : Char} {t : Text}, CharSet.digit.contains c = false → ToTsql.isNumber (c :: t) = false := by
    intro c t hc
    rw [ToTsql.isNumber, List.all_cons, hc, Bool.false_and, Bool.and_false]
  cases e with
  | number zeros n => exact isNumber_numeral
  | name i => exact hnot i.begins.2
  | bind i => exact hnot (by decide)
  | parens e => exact hnot (by decide)

/-! ## The query -/

/-- A query for `columns` of `tables`, ordered by `keys` and without its first rows. -/
def offsetQuery (columns tables keys : List Identifier) (e : Offset) : Text :=
  listHead ++ (nameList columns ++ (tableHead ++ (nameList tables ++ (" ORDER BY ".toList ++ (nameList keys ++
    (" OFFSET ".toList ++ (e.text ++ " ROWS ".toList)))))))

theorem isSeam_of_mem : ∀ s ∈ [listHead, tableHead, ", ".toList, " ORDER BY ".toList, " OFFSET ".toList, " ROWS ".toList],
    IsSeam s := by
  have hplain : ∀ s ∈ [listHead, tableHead, ", ".toList, " ORDER BY ".toList, " OFFSET ".toList, " ROWS ".toList],
      (∀ c ∈ s, isPlain c = true) ∧ ('(' ∉ s ∧ ')' ∉ s) ∧ endsInWord s = false ∧ tokens s ≠ [] ∧
        ∀ p ∈ tokens s, isNumber p = false ∧ ¬ Spelled "FIRST".toList p ∧ ¬ Spelled "NEXT".toList p := by decide
  intro s hs
  obtain ⟨h1, h2, h3, h4⟩ := hplain s hs
  exact ⟨h1, h2, h3, h4⟩

theorem calm_nameList (names : List Identifier) : Calm (nameList names) := by
  induction names with
  | nil => exact solid_nil.calm
  | cons i names ih =>
    by_cases hnil : names = []
    · simpa [hnil, nameList, Text.join, List.intercalate] using i.solid.calm
    · rw [nameList, List.map_cons, Text.join_cons (by simpa using hnil), List.append_assoc]
      exact (isSeam_of_mem _ (by simp)).calm i.solid.calm ih (.of_begins rfl _)

section
variable (columns tables keys : List Identifier) (e : Offset)

/-- The query is a part like those it is made of, and ordered. -/
theorem calm_offsetQuery : Calm (offsetQuery columns tables keys e) ∧
    zeroMatches orderBy (offsetQuery columns tables keys e) ≠ [] := by
  have hend : Calm (e.text ++ " ROWS ".toList) := by
    have := (isSeam_of_mem " ROWS ".toList (by simp)).calm e.solid.calm solid_nil.calm (.of_begins rfl _)
    rwa [List.append_nil] at this
  have hkeys := (isSeam_of_mem " OFFSET ".toList (by simp)).calm (calm_nameList keys) hend (.of_begins rfl _)
  have htables := (isSeam_of_mem " ORDER BY ".toList (by simp)).calm (calm_nameList tables) hkeys (.of_begins rfl _)
  have hcolumns := (isSeam_of_mem tableHead (by simp)).calm (calm_nameList columns) htables (.of_begins rfl _)
  refine ⟨(isSeam_of_mem listHead (by simp)).calm solid_nil.calm hcolumns (apart_nil_left _), ?_⟩
  have hsource := (isSeam_of_mem tableHead (by simp)).calm (calm_nameList columns) (calm_nameList tables) (.of_begins rfl _)
  have hfront := (isSeam_of_mem listHead (by simp)).calm solid_nil.calm hsource (apart_nil_left _)
  have hdepth : depth (listHead ++ (nameList columns ++ (tableHead ++ nameList tables))) = 0 :=
    (wellNested_iff.2 (hfront.nested 0)).2
  have hsplit : offsetQuery columns tables keys e = listHead ++ (nameList columns ++ (tableHead ++ nameList tables)) ++
      (" ORDER BY ".toList ++ (nameList keys ++ (" OFFSET ".toList ++ (e.text ++ " ROWS ".toList)))) := by
    simp only [offsetQuery, List.append_assoc]
  rw [hsplit]
  exact zeroMatches_orderBy_ne_nil hdepth _

/-- The query ends in an offset, which the rule knows if it is a number. -/
theorem isOffsetClause_offsetQuery :
    isOffsetClause (tokens (offsetQuery columns tables keys e)).reverse = e.isNumber := by
  have htokens : tokens (" OFFSET ".toList ++ (e.text ++ " ROWS ".toList)) =
      ["OFFSET".toList] ++ (tokens e.text ++ ["ROWS".toList]) := by
    have hrows : tokens " ROWS ".toList = ["ROWS".toList] := by decide
    have hoffset : tokens " OFFSET ".toList = ["OFFSET".toList] := by decide
    rw [tokens_append (.of_ends rfl _), tokens_append (.of_begins rfl _), hrows, hoffset]
  have hsplit : offsetQuery columns tables keys e = listHead ++ (nameList columns ++ (tableHead ++ (nameList tables ++
      (" ORDER BY ".toList ++ nameList keys)))) ++ (" OFFSET ".toList ++ (e.text ++ " ROWS ".toList)) := by
    simp only [offsetQuery, List.append_assoc]
  rw [hsplit, tokens_append (.of_begins rfl _), htokens, List.reverse_append, List.reverse_append,
    List.reverse_append, ← e.isNumber_text]
  simp only [List.reverse_singleton, List.append_assoc]
  exact isOffsetClause_of_solid e.solid.solid _

theorem fetchFront_offsetQuery : FetchFront (offsetQuery columns tables keys e) := by
  obtain ⟨hcalm, -⟩ := calm_offsetQuery columns tables keys e
  refine ⟨?_, ?_, ?_⟩
  · rw [after_of_all_isPlain rfl hcalm.plain (List.append_ne_nil_of_left_ne_nil (by decide) _)]
    rfl
  · simp only [offsetQuery, ← List.append_assoc]
    rw [endsInWord_append (by decide)]
    decide
  · rw [hcalm.mask_eq]
    exact limitless_of_isChain hcalm.uncounted

end

/-- The `FETCH` clause behind an offset stays if the offset is a number, or if its own number is too large. Behind
any other offset it gets a second one. -/
theorem fetchFirst_offset (columns tables keys : List Identifier) (e : Offset) (zeros n : Nat) :
    Gives (fetchFirst (offsetQuery columns tables keys e ++ rowClause "NEXT".toList (numeral zeros n)))
      (if e.isNumber = true ∨ Nat.pow 2 64 ≤ n then
        offsetQuery columns tables keys e ++ rowClause "NEXT".toList (numeral zeros n)
      else offsetQuery columns tables keys e ++ offsetText n) ∧
    (Gives (fetchFirst (offsetQuery columns tables keys e ++ rowClause "NEXT".toList (numeral zeros n)))
        (offsetQuery columns tables keys e ++ rowClause "NEXT".toList (numeral zeros n)) ↔
      e.isNumber = true ∨ Nat.pow 2 64 ≤ n) := by
  obtain ⟨hcalm, horder⟩ := calm_offsetQuery columns tables keys e
  have hfront := fetchFront_offsetQuery columns tables keys e
  have hcount : isRowCount ["NEXT".toList, numeral zeros n, "ROWS".toList] = true := by
    rw [isRowCount, isNumber_numeral]
    decide
  have hoffset := isOffsetClause_offsetQuery columns tables keys e
  have hread : Text.readNat? 10 (Nat.pow 2 64) (numeral zeros n) = if n < Nat.pow 2 64 then some n else none :=
    readNat?_numeral
  by_cases hkept : e.isNumber = true ∨ Nat.pow 2 64 ≤ n
  · have hsame := hfront.fetchFirst_kept hcount (hkept.imp (fun h => by rw [hcalm.mask_eq, hoffset, h])
      fun h => by rw [hread, if_neg (Nat.not_lt.2 h)])
    rw [if_pos hkept]
    exact ⟨hsame, fun _ => hkept, fun _ => hsame⟩
  · rw [if_neg hkept]
    rw [not_or, Bool.not_eq_true, Nat.not_le] at hkept
    rw [if_pos hkept.2] at hread
    have hmoved := hfront.fetchFirst_moved hcount (by rw [hcalm.mask_eq, hoffset, hkept.1]) hread
      (by rw [hcalm.mask_eq, hcalm.nested]) (by rwa [hcalm.mask_eq])
    refine ⟨hmoved, fun hsame => ?_, fun h => ?_⟩
    · exact absurd (List.append_cancel_left (hmoved.unique hsame [])) offsetText_ne_rowClause
    · rcases h with h | h
      · rw [hkept.1] at h
        cases h
      · exact absurd hkept.2 (Nat.not_lt.2 h)

/-- A bind variable is no number, and its query gets a second offset. -/
theorem fetchFirst_offset_bind :
    offsetQuery [⟨'a', [], by decide, by decide⟩] [⟨'t', [], by decide, by decide⟩] [⟨'b', [], by decide, by decide⟩]
      (.bind ⟨'n', [], by decide, by decide⟩) ++ rowClause "NEXT".toList (numeral 0 5) =
      "SELECT a FROM t ORDER BY b OFFSET :n ROWS FETCH NEXT 5 ROWS ONLY".toList ∧
    (fetchFirst "SELECT a FROM t ORDER BY b OFFSET :n ROWS FETCH NEXT 5 ROWS ONLY").run [] =
      some ("SELECT a FROM t ORDER BY b OFFSET :n ROWS OFFSET 0 ROWS FETCH NEXT 5 ROWS ONLY".toList, []) ∧
    "SELECT a FROM t ORDER BY b OFFSET :n ROWS OFFSET 0 ROWS FETCH NEXT 5 ROWS ONLY".toList ≠
      "SELECT a FROM t ORDER BY b OFFSET :n ROWS FETCH NEXT 5 ROWS ONLY".toList :=
  ⟨by decide, by decide +kernel, by decide⟩

end DialectBridge.ToTsql
