import DialectBridge.Proofs.FetchPasses
import DialectBridge.Proofs.WordCounts
/-!
# `FETCH` clauses without an `OFFSET`

A `FETCH` clause is five words with nothing but white space between them, and an `OFFSET` clause with a number is
three (`exists_matches_fetchFirstClause`, `occursIn_offsetBefore`). So the clauses without an `OFFSET` can be
counted in the tokens of a query (`length_openFetches`), and an `OFFSET 0 ROWS` in front of one settles it
(`FetchCut.openFetches_lt`).
-/
namespace DialectBridge.ToTsql
open Pattern Cursor LexState

def followsOffset (m : Match) : Bool := offsetBefore.occursIn m.first.left.text.reverse

/-- The `FETCH` clauses in the code of a query that follow no `OFFSET` clause. -/
def openFetches (sql : Text) : List Match := (fetchFirstClause.findAll (mask sql)).filter (!followsOffset ·)

/-! ## Clauses as tokens -/

def isFetchClause : List Text → Bool
  | f :: k :: n :: r :: o :: _ => isFetch f && isRowCount [k, n, r] && decide (Spelled "ONLY".toList o)
  | _ => false

/-- Whether some tokens, read backwards, begin with an `OFFSET` clause. -/
def isOffsetClause : List Text → Bool
  | r :: n :: o :: _ => isRows r && isNumber n && decide (Spelled "OFFSET".toList o)
  | _ => false

section
variable {t u v w b k p q : Text} {ps : List Text}

theorem exists_of_tokens_cons (h : tokens t = p :: ps) :
    ∃ b v, t = b ++ (p ++ v) ∧ (∀ c ∈ b, Unicode.isBlank c = true) ∧ tokens v = ps ∧ Apart b (p ++ v) ∧ Apart p v := by
  obtain ⟨b, v, rfl, hb, hv, hbp, hpv⟩ := exists_of_tokens_eq (show tokens t = [] ++ p :: ps from h)
  exact ⟨b, v, rfl, isBlank_of_tokens_eq_nil hb, hv, hbp, hpv⟩

/-- Two words that follow each other have white space between them. -/
theorem exists_of_tokens_words (hp : p ≠ [] ∧ ∀ c ∈ p, Unicode.isWordChar c = true)
    (hq : q ≠ [] ∧ ∀ c ∈ q, Unicode.isWordChar c = true) (hpt : Apart p t) (h : tokens t = q :: ps) :
    ∃ b v, t = b ++ (q ++ v) ∧ b ≠ [] ∧ (∀ c ∈ b, Unicode.isBlank c = true) ∧ tokens v = ps ∧ Apart q v := by
  obtain ⟨b, v, rfl, hb, hv, -, hqv⟩ := exists_of_tokens_cons h
  refine ⟨b, v, rfl, ?_, hb, hv, hqv⟩
  rintro rfl
  obtain ⟨c, q, rfl⟩ := List.exists_cons_of_ne_nil hq.1
  have := hpt (endsInWord_of_all hp.1 hp.2)
  rw [List.nil_append, List.cons_append, beginsInWord_cons, hq.2 c (by simp)] at this
  cases this

/-- A number is no word that begins in a letter. -/
theorem not_spelled_of_isNumber {c : Char} (hn : isNumber p = true)
    (h : (Unicode.caseVariants c).all (!CharSet.digit.contains ·) = true) : ¬ Spelled (c :: t) p := by
  intro hs
  obtain ⟨d, p, hd, -, rfl⟩ := List.forall₂_cons_left_iff.1 hs
  have := List.all_eq_true.1 h d hd
  rw [(isNumber_iff.1 hn).2 d (by simp)] at this
  cases this

theorem exists_of_isRowCount (h : isRowCount ps = true) : ∃ k n r, ps = [k, n, r] := by
  unfold isRowCount at h
  split at h
  · exact ⟨_, _, _, rfl⟩
  · cases h

/-- The number of rows is made of words, and none of them is `FETCH`. -/
theorem words_of_isRowCount {k n r : Text} (h : isRowCount [k, n, r] = true) :
    (Spelled "FIRST".toList k ∨ Spelled "NEXT".toList k) ∧ isNumber n = true ∧ isRows r = true ∧
      ∀ p ∈ [k, n, r], (p ≠ [] ∧ ∀ c ∈ p, Unicode.isWordChar c = true) ∧ isFetch p = false := by
  simp only [isRowCount, Bool.and_eq_true, Bool.or_eq_true, decide_eq_true_eq] at h
  obtain ⟨⟨hk, hn⟩, hr⟩ := h
  have hword : k ≠ [] ∧ ∀ c ∈ k, Unicode.isWordChar c = true :=
    hk.elim (fun h => ⟨h.ne_nil (by decide), h.isWordChar (by decide)⟩)
      fun h => ⟨h.ne_nil (by decide), h.isWordChar (by decide)⟩
  have hfetch : isFetch k = false := decide_eq_false <|
    hk.elim (fun h => h.not_of_differ (by decide)) fun h => h.not_of_differ (by decide)
  have hrows : isFetch r = false := by
    simp only [isRows, Bool.or_eq_true, decide_eq_true_eq] at hr
    exact decide_eq_false <| hr.elim (fun h => h.not_of_differ (by decide)) fun h => h.not_of_differ (by decide)
  refine ⟨hk, hn, hr, fun p hp => ?_⟩
  simp only [List.mem_cons, List.not_mem_nil, or_false] at hp
  rcases hp with rfl | rfl | rfl
  · exact ⟨hword, hfetch⟩
  · exact ⟨isWordChar_of_isNumber hn, decide_eq_false (not_spelled_of_isNumber hn (by decide))⟩
  · exact ⟨isWordChar_of_isRows hr, hrows⟩

/-- The tokens of a `FETCH` clause are found. -/
theorem exists_matches_fetchFirstClause (hu : endsInWord u = false) (ht : beginsInWord t = true)
    (h : tokens t = ps) (hclause : isFetchClause ps = true) :
    ∃ w v, t = w ++ v ∧ Matches fetchFirstClause u w v := by
  obtain ⟨f, k, n, r, o, qs, rfl⟩ : ∃ f k n r o qs, ps = f :: k :: n :: r :: o :: qs := by
    unfold isFetchClause at hclause
    split at hclause
    · exact ⟨_, _, _, _, _, _, rfl⟩
    · cases hclause
  simp only [isFetchClause, Bool.and_eq_true, decide_eq_true_eq] at hclause
  obtain ⟨⟨hfetch, hcount⟩, honly⟩ := hclause
  have hfetch : Spelled "FETCH".toList f := of_decide_eq_true hfetch
  obtain ⟨hk, hn, hr, hwords⟩ := words_of_isRowCount hcount
  have hname : isName "FETCH".toList = true := by decide
  have hname' : isName "ONLY".toList = true := by decide
  obtain ⟨b₀, v, rfl, hb₀, hv, -, hfv⟩ := exists_of_tokens_cons h
  obtain rfl : b₀ = [] := by
    cases b₀ with
    | nil => rfl
    | cons c b₀ =>
      rw [List.cons_append, beginsInWord_cons, isWordChar_of_isBlank (hb₀ c (by simp))] at ht
      cases ht
  obtain ⟨b₁, v, rfl, hne₁, hb₁, hv₁, hkv⟩ := exists_of_tokens_words
    ⟨hfetch.ne_nil hname, hfetch.isWordChar hname⟩ (hwords k (by simp)).1 hfv hv
  obtain ⟨b₂, v, rfl, hne₂, hb₂, hv₂, hnv⟩ := exists_of_tokens_words
    (hwords k (by simp)).1 (hwords n (by simp)).1 hkv hv₁
  obtain ⟨b₃, v, rfl, hne₃, hb₃, hv₃, hrv⟩ := exists_of_tokens_words
    (hwords n (by simp)).1 (hwords r (by simp)).1 hnv hv₂
  obtain ⟨b₄, v, rfl, hne₄, hb₄, -, hov⟩ := exists_of_tokens_words
    (hwords r (by simp)).1 ⟨honly.ne_nil hname', honly.isWordChar hname'⟩ hrv hv₃
  obtain ⟨r, s, rfl, hrow, hs⟩ := isRows_iff.1 hr
  have hstart : Matches (.group 1 blanks ++ edge) u [] (f ++ (b₁ ++ (k ++ (b₂ ++ (n ++ (b₃ ++ (r ++ (s ++ (b₄ ++ (o ++ v)))))))))) := by
    refine matches_seq.2 ⟨[], [], rfl, matches_group.2 (matches_many_one.2 (by simp)), matches_edge.2 ⟨rfl, ?_⟩⟩
    rw [List.append_nil, hu, hfetch.beginsInWord hname]
    decide
  have hend : Matches edge (u ++ ([] ++ f ++ b₁ ++ k ++ b₂ ++ n ++ b₃ ++ r ++ s ++ b₄ ++ o)) [] v := by
    refine matches_edge.2 ⟨rfl, ?_⟩
    rw [← List.append_assoc u, honly.endsInWord hname', hov (by simpa using honly.endsInWord hname' [])]
    decide
  refine ⟨[] ++ f ++ b₁ ++ k ++ b₂ ++ n ++ b₃ ++ r ++ s ++ b₄ ++ o ++ [], v, by simp, ?_⟩
  refine matches_seq.2 ⟨_, _, rfl, ?_, hend⟩
  refine matches_seq.2 ⟨_, _, rfl, ?_, matches_word.2 honly⟩
  refine matches_seq.2 ⟨_, _, rfl, ?_, matches_blanks1.2 ⟨hne₄, hb₄⟩⟩
  refine matches_seq.2 ⟨_, _, rfl, ?_, matches_opt.2 (hs.imp_left matches_word.2)⟩
  refine matches_seq.2 ⟨_, _, rfl, ?_, matches_word.2 hrow⟩
  refine matches_seq.2 ⟨_, _, rfl, ?_, matches_blanks1.2 ⟨hne₃, hb₃⟩⟩
  refine matches_seq.2 ⟨_, _, rfl, ?_, matches_group.2 (matches_many1_one.2 (isNumber_iff.1 hn))⟩
  refine matches_seq.2 ⟨_, _, rfl, ?_, matches_blanks1.2 ⟨hne₂, hb₂⟩⟩
  refine matches_seq.2 ⟨_, _, rfl, ?_, matches_alt.2 (hk.imp matches_word.2 matches_word.2)⟩
  refine matches_seq.2 ⟨_, _, rfl, ?_, matches_blanks1.2 ⟨hne₁, hb₁⟩⟩
  refine matches_seq.2 ⟨[], f, rfl, ?_, matches_word.2 hfetch⟩
  simpa using hstart

/-- What the pattern of an `OFFSET` clause takes has the clause as its tokens. -/
theorem isOffsetClause_of_matches (h : Matches offsetBefore u w v) :
    isOffsetClause (tokens (u ++ w)).reverse = true := by
  have hname : isName "OFFSET".toList = true := by decide
  obtain ⟨w, e, rfl, hw, he⟩ := matches_seq.1 h
  obtain ⟨w, b₃, rfl, hw, hb₃⟩ := matches_seq.1 hw
  obtain ⟨w, s, rfl, hw, hs⟩ := matches_seq.1 hw
  obtain ⟨w, r, rfl, hw, hr⟩ := matches_seq.1 hw
  obtain ⟨w, b₂, rfl, hw, hb₂⟩ := matches_seq.1 hw
  obtain ⟨w, n, rfl, hw, hn⟩ := matches_seq.1 hw
  obtain ⟨w, b₁, rfl, hw, hb₁⟩ := matches_seq.1 hw
  obtain ⟨z, o, rfl, hz, ho⟩ := matches_seq.1 hw
  obtain ⟨rfl, -⟩ := matches_check.1 he
  obtain ⟨rfl, hedge⟩ := matches_edge.1 hz
  have hoffset := matches_word.1 ho
  have hnumber : isNumber n = true := isNumber_iff.2 (matches_many1_one.1 hn)
  have hrows : isRows (r ++ s) = true :=
    isRows_iff.2 ⟨r, s, rfl, matches_word.1 hr, (matches_opt.1 hs).imp_left matches_word.1⟩
  have hblank : ∀ c ∈ b₃, Unicode.isBlank c = true := matches_many_one.1 hb₃
  have hu : endsInWord u = false := by
    simpa [hoffset.beginsInWord hname] using hedge
  have htokens : tokens (u ++ (o ++ (b₁ ++ (n ++ (b₂ ++ ((r ++ s) ++ b₃)))))) = tokens u ++ [o, n, r ++ s] := by
    rw [tokens_append (.of_ends hu _), tokens_word_blanks ⟨hoffset.ne_nil hname, hoffset.isWordChar hname⟩
      (matches_blanks1.1 hb₁), tokens_word_blanks (isWordChar_of_isNumber hnumber) (matches_blanks1.1 hb₂),
      tokens_append (.of_begins (beginsInWord_of_blanks hblank) _),
      tokens_word (isWordChar_of_isRows hrows).1 (isWordChar_of_isRows hrows).2, tokens_blanks hblank]
    rfl
  have hsplit : u ++ ([] ++ o ++ b₁ ++ n ++ b₂ ++ r ++ s ++ b₃ ++ []) =
      u ++ (o ++ (b₁ ++ (n ++ (b₂ ++ ((r ++ s) ++ b₃))))) := by simp
  rw [hsplit, htokens, List.reverse_append]
  simp only [List.reverse_cons, List.reverse_nil, List.nil_append, List.cons_append, isOffsetClause, hrows, hnumber,
    hoffset, decide_true, Bool.and_self]

/-- The pattern of an `OFFSET` clause takes the tokens of one at the end of a text. -/
theorem exists_matches_offsetBefore (h : isOffsetClause (tokens t).reverse = true) :
    ∃ u w, t = u ++ w ∧ Matches offsetBefore u w [] := by
  have hname : isName "OFFSET".toList = true := by decide
  obtain ⟨o, n, r, qs, htokens⟩ : ∃ o n r qs, tokens t = qs ++ o :: [n, r] := by
    unfold isOffsetClause at h
    split at h
    · rename_i r n o rest hreverse
      refine ⟨o, n, r, rest.reverse, ?_⟩
      rw [← List.reverse_reverse (tokens t), hreverse]
      simp
    · cases h
  rw [htokens, List.reverse_append] at h
  simp only [List.reverse_cons, List.reverse_nil, List.nil_append, List.cons_append, isOffsetClause,
    Bool.and_eq_true, decide_eq_true_eq] at h
  obtain ⟨⟨hrows, hnumber⟩, hoffset⟩ := h
  obtain ⟨u, v, rfl, -, hv, hu, hov⟩ := exists_of_tokens_eq htokens
  obtain ⟨b₁, v, rfl, hne₁, hb₁, hv₁, hnv⟩ := exists_of_tokens_words
    ⟨hoffset.ne_nil hname, hoffset.isWordChar hname⟩ (isWordChar_of_isNumber hnumber) hov hv
  obtain ⟨b₂, v, rfl, hne₂, hb₂, hv₂, -⟩ := exists_of_tokens_words (isWordChar_of_isNumber hnumber)
    (isWordChar_of_isRows hrows) hnv hv₁
  obtain ⟨r, s, rfl, hrow, hs⟩ := isRows_iff.1 hrows
  have hend : endsInWord u = false := hu.endsInWord_eq_false (hoffset.beginsInWord hname _)
  have hedge : Matches edge u [] (o ++ (b₁ ++ (n ++ (b₂ ++ (r ++ (s ++ v)))))) :=
    matches_edge.2 ⟨rfl, by rw [hend, hoffset.beginsInWord hname]; decide⟩
  refine ⟨u, [] ++ o ++ b₁ ++ n ++ b₂ ++ r ++ s ++ v ++ [], by simp, ?_⟩
  refine matches_seq.2 ⟨_, _, rfl, ?_, matches_check.2 ⟨rfl, rfl⟩⟩
  refine matches_seq.2 ⟨_, _, rfl, ?_, matches_many_one.2 (isBlank_of_tokens_eq_nil hv₂)⟩
  refine matches_seq.2 ⟨_, _, rfl, ?_, matches_opt.2 (hs.imp_left matches_word.2)⟩
  refine matches_seq.2 ⟨_, _, rfl, ?_, matches_word.2 hrow⟩
  refine matches_seq.2 ⟨_, _, rfl, ?_, matches_blanks1.2 ⟨hne₂, hb₂⟩⟩
  refine matches_seq.2 ⟨_, _, rfl, ?_, matches_many1_one.2 (isNumber_iff.1 hnumber)⟩
  refine matches_seq.2 ⟨_, _, rfl, ?_, matches_blanks1.2 ⟨hne₁, hb₁⟩⟩
  refine matches_seq.2 ⟨[], o, rfl, ?_, matches_word.2 hoffset⟩
  simpa using hedge

/-- A text ends in an `OFFSET` clause if its tokens do. -/
theorem occursIn_offsetBefore (t : Text) : offsetBefore.occursIn t = isOffsetClause (tokens t).reverse := by
  rw [Bool.eq_iff_iff]
  constructor
  · intro h
    obtain ⟨m, hm⟩ := Option.isSome_iff_exists.1 h
    obtain ⟨u, x, rfl, hat⟩ := exists_of_find? hm
    obtain ⟨w, v, rfl, -, -, htakes⟩ := matchAt?_eq_some hat
    have hmatch : Matches offsetBefore u w v := ⟨_, _, htakes⟩
    -- the pattern asks for the end of the text
    obtain ⟨_, e, -, -, he⟩ := matches_seq.1 hmatch
    obtain rfl : v = [] := by simpa [Assertion.holds] using (matches_check.1 he).2
    rw [List.append_nil]
    exact isOffsetClause_of_matches hmatch
  · intro h
    obtain ⟨u, w, rfl, hmatch⟩ := exists_matches_offsetBefore h
    rw [← List.append_nil w]
    exact occursIn_of_matches hmatch

end

/-! ## Counting -/

/-- The number of `FETCH` clauses among some tokens that follow no `OFFSET` clause; the tokens in front of them are
`before`, the last one first. -/
def countOpen (before : List Text) : List Text → Nat
  | [] => 0
  | p :: ps => (if isFetchClause (p :: ps) && !isOffsetClause before then 1 else 0) + countOpen (p :: before) ps

section
variable {before ps qs l x x' : List Text} {p z : Text}

theorem isFetchClause_of_not (h : isFetch p = false) : isFetchClause (p :: ps) = false := by
  unfold isFetchClause
  split
  · rename_i heq
    obtain ⟨rfl, -⟩ := List.cons.inj heq
    rw [h, Bool.false_and, Bool.false_and]
  · rfl

theorem countOpen_cons_of_not (h : isFetchClause (p :: ps) = false) :
    countOpen before (p :: ps) = countOpen (p :: before) ps := by
  simp [countOpen, h]

/-- Tokens without a `FETCH` do not count. -/
theorem countOpen_append_of_not (h : ∀ p ∈ ps, isFetch p = false) :
    countOpen before (ps ++ qs) = countOpen (ps.reverse ++ before) qs := by
  induction ps generalizing before with
  | nil => rfl
  | cons p ps ih =>
    rw [List.cons_append, countOpen_cons_of_not (isFetchClause_of_not (h p (by simp))),
      ih fun q hq => h q (by simp [hq])]
    simp

/-- Behind a word that no `OFFSET` clause has, it does not matter what stands in front of it. -/
theorem countOpen_append_cons (hz : isRows z = false ∧ isNumber z = false ∧ ¬ Spelled "OFFSET".toList z)
    (l : List Text) : countOpen (l ++ z :: before) ps = countOpen l ps := by
  have hoffset : ∀ l : List Text, isOffsetClause (l ++ z :: before) = isOffsetClause l := by
    rintro (_ | ⟨r, _ | ⟨n, _ | ⟨o, l⟩⟩⟩)
    · rcases before with _ | ⟨n, _ | ⟨o, before⟩⟩ <;> simp [isOffsetClause, hz.1]
    · rcases before with _ | ⟨o, before⟩ <;> simp [isOffsetClause, hz.2.1]
    · simp only [List.cons_append, List.nil_append, isOffsetClause, decide_eq_false hz.2.2, Bool.and_false]
    · rfl
  induction ps generalizing l with
  | nil => rfl
  | cons p ps ih =>
    have hrest := ih (p :: l)
    rw [List.cons_append] at hrest
    rw [countOpen, countOpen, hrest, hoffset]

/-- Tokens with which no `FETCH` clause goes on. -/
def EndsClauses (x : List Text) : Prop := ∀ q ∈ x.head?, ¬ Spelled "FIRST".toList q ∧ ¬ Spelled "NEXT".toList q ∧
  isNumber q = false ∧ isRows q = false ∧ ¬ Spelled "ONLY".toList q

theorem isFetchClause_append (hx : EndsClauses x) :
    isFetchClause (p :: (l ++ x)) = isFetchClause (p :: l) := by
  rcases x with _ | ⟨q, x⟩
  · rw [List.append_nil]
  obtain ⟨hfirst, hnext, hnumber, hrows, honly⟩ := hx q rfl
  rcases l with _ | ⟨k, _ | ⟨n, _ | ⟨r, _ | ⟨o, l⟩⟩⟩⟩
  · rcases x with _ | ⟨n, _ | ⟨r, _ | ⟨o, x⟩⟩⟩ <;>
      simp only [List.nil_append, isFetchClause, isRowCount, decide_eq_false hfirst, decide_eq_false hnext,
        Bool.or_self, Bool.false_and, Bool.and_false]
  · rcases x with _ | ⟨r, _ | ⟨o, x⟩⟩ <;> simp [isFetchClause, isRowCount, hnumber]
  · rcases x with _ | ⟨o, x⟩ <;> simp [isFetchClause, isRowCount, hrows]
  · simp only [List.cons_append, List.nil_append, isFetchClause, decide_eq_false honly, Bool.and_false]
  · rfl

/-- If fewer clauses count behind some tokens, fewer count. -/
theorem countOpen_append_lt (hx : EndsClauses x) (hx' : EndsClauses x')
    (h : countOpen (l.reverse ++ before) x' < countOpen (l.reverse ++ before) x) :
    countOpen before (l ++ x') < countOpen before (l ++ x) := by
  induction l generalizing before with
  | nil => exact h
  | cons p l ih =>
    have hrest : countOpen (p :: before) (l ++ x') < countOpen (p :: before) (l ++ x) := ih (by simpa using h)
    rw [List.cons_append, List.cons_append, countOpen, countOpen, isFetchClause_append hx, isFetchClause_append hx']
    omega

end

/-! ## The clauses that are found -/

theorem consuming_fetchFirstClause : fetchFirstClause.Consuming := consuming_of_framed (by decide)

theorem beginsOutside_fetchFirstClause : BeginsOutside fetchFirstClause := by
  rintro u w v ⟨g, g', htakes⟩ hbegin
  obtain ⟨m, hm⟩ := Option.isSome_iff_exists.1 (isSome_matchAt?_iff.2 ⟨w, v, g, g', rfl, htakes⟩)
  obtain ⟨b, f, y, o, v', n, hsplit, hb, -, -, hu, -⟩ := exists_fetchParts hm
  obtain rfl : b = [] := by
    cases b with
    | nil => rfl
    | cons c b =>
      rw [hsplit, List.cons_append, beginsInWord_cons, isWordChar_of_isBlank (hb c (by simp))] at hbegin
      cases hbegin
  rwa [List.append_nil] at hu

/-- What stands in front of an `ONLY` does not matter behind it. -/
theorem countOpen_only {before qs : List Text} {o : Text} (ho : Spelled "ONLY".toList o) :
    countOpen (o :: before) qs = countOpen [] qs := by
  refine countOpen_append_cons ⟨?_, ?_, ho.not_of_differ (by decide)⟩ []
  · rw [isRows, decide_eq_false (ho.not_of_differ (by decide)), decide_eq_false (ho.not_of_differ (by decide))]
    rfl
  · by_contra hnumber
    exact not_spelled_of_isNumber (by simpa using hnumber) (by decide) ho

/-- A `FETCH` clause counts if it follows no `OFFSET` clause. -/
theorem countOpen_fetchClause {before qs : List Text} {f k n r o : Text} (hf : isFetch f = true)
    (hcount : isRowCount [k, n, r] = true) (ho : Spelled "ONLY".toList o) :
    countOpen before (f :: ([k, n, r] ++ o :: qs)) = (if isOffsetClause before then 0 else 1) + countOpen [] qs := by
  obtain ⟨-, -, -, hwords⟩ := words_of_isRowCount hcount
  have hclause : isFetchClause (f :: ([k, n, r] ++ o :: qs)) = true := by
    simp only [List.cons_append, List.nil_append, isFetchClause, hf, hcount, ho, decide_true, Bool.and_self]
  have honly : isFetch o = false := decide_eq_false (ho.not_of_differ (by decide))
  rw [countOpen, hclause, countOpen_append_of_not fun p hp => (hwords p hp).2,
    countOpen_cons_of_not (isFetchClause_of_not honly), countOpen_only ho]
  cases isOffsetClause before <;> rfl

/-- A character that no word holds makes no token `FETCH`. -/
theorem not_isFetch_of_sign {c : Char} (hc : Unicode.isWordChar c = false) {p : Text} (hp : p ∈ tokens [c]) :
    isFetch p = false := by
  have hpiece : p ∈ pieces [c] := List.mem_of_mem_filter hp
  rw [pieces_cons_of_not_word hc, pieces_nil, List.mem_singleton] at hpiece
  refine decide_eq_false fun hs => ?_
  have hword := hs.isWordChar (by decide) c (by simp [hpiece])
  rw [hc] at hword
  cases hword

/-- The tokens of a `FETCH` clause, in front of what is apart from it. -/
theorem tokens_fetchClause {b f y o x k n r : Text} (hb : ∀ c ∈ b, Unicode.isBlank c = true)
    (hf : Spelled "FETCH".toList f) (ho : Spelled "ONLY".toList o) (hy : tokens y = [k, n, r])
    (hbehind : beginsInWord y = false) (hbefore : endsInWord y = false) (hx : beginsInWord x = false) :
    tokens (b ++ (f ++ (y ++ o)) ++ x) = f :: ([k, n, r] ++ o :: tokens x) := by
  have hname : isName "FETCH".toList = true := by decide
  have hname' : isName "ONLY".toList = true := by decide
  have hbegin : beginsInWord (y ++ (o ++ x)) = false := by
    cases y with
    | nil => cases hy
    | cons c y => exact hbehind
  have hassoc : b ++ (f ++ (y ++ o)) ++ x = b ++ (f ++ (y ++ (o ++ x))) := by simp
  rw [hassoc, tokens_blanks_append hb, tokens_append (.of_begins hbegin f),
    tokens_word (hf.ne_nil hname) (hf.isWordChar hname), tokens_append (.of_ends hbefore _), hy,
    tokens_append (.of_begins hx o), tokens_word (ho.ne_nil hname') (ho.isWordChar hname')]
  rfl

/-- The clauses that follow no `OFFSET` are those that count among the tokens. -/
theorem length_matchesFrom_fetchFirstClause (u t : Text) (h : Apart u t) :
    ((fetchFirstClause.matchesFrom u t).filter (!followsOffset ·)).length = countOpen (tokens u).reverse (tokens t) := by
  induction u, t using pieces_induction consuming_fetchFirstClause with
  | nil u => simp [matchesFrom_nil consuming_fetchFirstClause, countOpen]
  | sign u c t hnone hc ih =>
    have hapart : Apart (u ++ [c]) t := .of_ends (by rw [endsInWord_append (by simp), endsInWord_singleton, hc]) t
    have hright : tokens (c :: t) = tokens [c] ++ tokens t :=
      tokens_append (.of_ends (by rw [endsInWord_singleton, hc]) t)
    rw [matchesFrom_cons_of_none hnone, ih hapart, hright,
      countOpen_append_of_not fun p hp => not_isFetch_of_sign hc hp,
      tokens_append (.of_begins (by rwa [beginsInWord_cons]) u), List.reverse_append]
  | word u w y hnone hne hw hy ih =>
    have hbegin : beginsInWord (w ++ y) = true := by
      obtain ⟨c, w, rfl⟩ := List.exists_cons_of_ne_nil hne
      exact hw c (by simp)
    have hu : endsInWord u = false := h.endsInWord_eq_false hbegin
    have hright : tokens (w ++ y) = w :: tokens y := by
      rw [tokens_append (.of_begins hy w), tokens_word hne hw]
      rfl
    have hnot : isFetchClause (w :: tokens y) = false := by
      by_contra hclause
      obtain ⟨w', v, hsplit, g, g', htakes⟩ :=
        exists_matches_fetchFirstClause hu hbegin hright (by simpa using hclause)
      have := isSome_matchAt?_iff.2 ⟨w', v, g, g', hsplit, htakes⟩
      rw [hnone] at this
      cases this
    rw [matchesFrom_word beginsOutside_fetchFirstClause hw hnone, ih (.of_begins hy _), hright,
      countOpen_cons_of_not hnot, tokens_append (.of_ends hu w), tokens_word hne hw, List.reverse_append]
    rfl
  | found u w v m hm hfirst hlast ih =>
    obtain ⟨b, f, y, o, v', n, hsplit, hb, hf, ho, hu, hbehind, hbefore, hcount, hv, -, -, -, -, hstop⟩ :=
      exists_fetchParts hm
    obtain ⟨hw, rfl⟩ : u ++ w = u ++ (b ++ (f ++ (y ++ o))) ∧ v = v' := by
      refine Text.append_inj_of_width (by simp [hsplit]) ?_
      rw [Match.stop, hlast, offset_between] at hstop
      rw [hstop]
      simp
    obtain rfl := List.append_cancel_left hw
    obtain ⟨k, n, r, hwords⟩ := exists_of_isRowCount hcount
    rw [hwords] at hcount
    have hbegin : beginsInWord y = false := by
      cases y with
      | nil => rfl
      | cons c y => exact hbehind
    have hclause {x : Text} (hx : beginsInWord x = false) := tokens_fetchClause hb hf ho hwords hbegin hbefore hx
    have hfollows : followsOffset m = isOffsetClause (tokens u).reverse := by
      rw [followsOffset, hfirst, left_between, List.reverse_reverse, occursIn_offsetBefore]
    have hleft : tokens (u ++ (b ++ (f ++ (y ++ o)))) = tokens u ++ (f :: ([k, n, r] ++ [o])) := by
      have hapart : Apart u (b ++ (f ++ (y ++ o))) := fun hend => by
        rw [← beginsInWord_append (by simp [hf.ne_nil (by decide)]) v]
        exact h hend
      have hnil := hclause (x := []) rfl
      rw [List.append_nil] at hnil
      rw [tokens_append hapart, hnil, tokens_nil]
    have hrest : ((fetchFirstClause.matchesFrom (u ++ (b ++ (f ++ (y ++ o)))) v).filter (!followsOffset ·)).length =
        countOpen [] (tokens v) := by
      rw [ih (.of_begins hv _), hleft, List.reverse_append]
      exact countOpen_only ho
    rw [matchesFrom_of_some consuming_fetchFirstClause hm hlast, List.filter_cons, hfollows, hclause hv,
      countOpen_fetchClause (decide_eq_true hf) hcount ho, ← hrest]
    cases isOffsetClause (tokens u).reverse
    · rw [Bool.not_false, if_pos rfl, List.length_cons, Nat.add_comm]
      rfl
    · rw [Bool.not_true, if_neg Bool.false_ne_true, if_pos rfl, Nat.zero_add]

theorem length_openFetches (sql : Text) : (openFetches sql).length = countOpen [] (tokens (mask sql)) := by
  have := length_matchesFrom_fetchFirstClause [] (mask sql) (apart_nil_left _)
  rwa [← findAll_eq_matchesFrom] at this

/-! ## One step -/

theorem isPlain_offsetText (n : Nat) : ∀ c ∈ offsetText n, isPlain c = true := by
  intro c hc
  rcases List.mem_append.1 hc with hc | hc
  · rcases List.mem_append.1 hc with hc | hc
    · exact (by decide : ∀ c ∈ "OFFSET 0 ROWS FETCH NEXT ".toList, isPlain c = true) c hc
    · exact isPlain_of_isWordChar (isWordChar_of_mem_ofNat c hc)
  · exact (by decide : ∀ c ∈ " ROWS ONLY".toList, isPlain c = true) c hc

theorem offsetText_ne_nil (n : Nat) : offsetText n ≠ [] := List.append_ne_nil_of_right_ne_nil _ (by decide)

theorem isNumber_ofNat (n : Nat) : isNumber (Text.ofNat n) = true :=
  isNumber_iff.2 ⟨Nat.toDigits_ne_nil, fun _ hc => isDigit_of_ascii (Text.isDigit_of_mem_ofNat hc)⟩

theorem tokens_offsetText_append (n : Nat) {t : Text} (ht : beginsInWord t = false) :
    tokens (offsetText n ++ t) = ["OFFSET".toList, ['0'], "ROWS".toList] ++
      ("FETCH".toList :: (["NEXT".toList, Text.ofNat n, "ROWS".toList] ++ "ONLY".toList :: tokens t)) := by
  have hnumber : isBlankText (Text.ofNat n) = false := by
    obtain ⟨c, l, hcons⟩ := List.exists_cons_of_ne_nil (Nat.toDigits_ne_nil (b := 10) (n := n))
    have hword := isWordChar_of_mem_ofNat (n := n) c (by rw [Text.ofNat, hcons]; simp)
    rw [Text.ofNat, hcons, isBlankText, List.all_cons, isBlank_of_isWordChar hword, Bool.false_and]
  have hfront : offsetPieces.filter (!isBlankText ·) = ["OFFSET".toList, ['0'], "ROWS".toList] := by decide
  have hwords : ["FETCH".toList, "NEXT".toList, "ROWS".toList, "ONLY".toList].all (!isBlankText ·) = true := by decide
  have hblank : isBlankText [' '] = true := by decide
  simp only [List.all_cons, List.all_nil, Bool.and_true, Bool.and_eq_true] at hwords
  rw [tokens, pieces_offsetText_append n ht, List.filter_append, hfront]
  simp only [List.filter_cons, hwords, hnumber, hblank, Bool.not_true, Bool.not_false,
    if_true, Bool.false_eq_true, if_false, List.nil_append, List.cons_append, tokens]

variable {sql a b f y o c : Text}

theorem FetchCut.mask_split (h : FetchCut sql a b f y o c) :
    mask sql = mask (a ++ b) ++ (f ++ (mask y ++ (o ++ mask c))) := by
  have hname : isName "ONLY".toList = true := by decide
  rw [h.mask_eq, mask_plain_between h.inner (fun d hd => isPlain_of_isWordChar (h.only.isWordChar hname d hd))
    (h.only.ne_nil hname)]

/-- The words of a clause are tokens of the query. -/
theorem FetchCut.tokens_eq (h : FetchCut sql a b f y o c) :
    tokens (mask sql) = tokens (mask (a ++ b)) ++ (f :: (tokens (mask y) ++ o :: tokens (mask c))) := by
  have hname : isName "FETCH".toList = true := by decide
  have hname' : isName "ONLY".toList = true := by decide
  have hbehind : beginsInWord (mask y ++ (o ++ mask c)) = false := by
    rw [← mask_plain_between h.inner (fun d hd => isPlain_of_isWordChar (h.only.isWordChar hname' d hd))
      (h.only.ne_nil hname'), beginsInWord_mask, h.behind]
  have hright : beginsInWord (mask c) = false := by rw [beginsInWord_mask, h.right]
  have hleft : endsInWord (mask (a ++ b)) = false := by rw [endsInWord_mask h.live, h.left]
  have hbefore : endsInWord (mask y) = false := by rw [endsInWord_mask h.inner, h.before]
  rw [h.mask_split, tokens_append (.of_ends hleft _), tokens_append (.of_begins hbehind f),
    tokens_append (.of_ends hbefore _), tokens_append (.of_begins hright o),
    tokens_word (h.fetch.ne_nil hname) (h.fetch.isWordChar hname),
    tokens_word (h.only.ne_nil hname') (h.only.isWordChar hname')]
  rfl

/-- No clause goes on with a `FETCH`. -/
theorem endsClauses_fetch {f : Text} {ps : List Text} (hf : Spelled "FETCH".toList f) : EndsClauses (f :: ps) := by
  rintro _ ⟨⟩
  have hnumber : isNumber f = false := by
    by_contra hnumber
    exact not_spelled_of_isNumber (by simpa using hnumber) (by decide) hf
  have hrows : isRows f = false := by
    rw [isRows, decide_eq_false (hf.not_of_differ (by decide)), decide_eq_false (hf.not_of_differ (by decide))]
    rfl
  exact ⟨hf.not_of_differ (by decide), hf.not_of_differ (by decide), hnumber, hrows, hf.not_of_differ (by decide)⟩

/-- An `OFFSET` in front of a `FETCH` clause settles it. -/
theorem FetchCut.openFetches_lt (h : FetchCut sql a b f y o c)
    (hoffset : offsetBefore.occursIn (mask (a ++ b)) = false) (n : Nat) :
    (openFetches (a ++ b ++ (offsetText n ++ c))).length < (openFetches sql).length := by
  have hright : beginsInWord (mask c) = false := by rw [beginsInWord_mask, h.right]
  have hleft : endsInWord (mask (a ++ b)) = false := by rw [endsInWord_mask h.live, h.left]
  obtain ⟨k, number, r, hwords⟩ := exists_of_isRowCount h.count
  have hcount := h.count
  rw [hwords] at hcount
  have hnew : tokens (mask (a ++ b ++ (offsetText n ++ c))) = tokens (mask (a ++ b)) ++
      (["OFFSET".toList, ['0'], "ROWS".toList] ++
        ("FETCH".toList :: (["NEXT".toList, Text.ofNat n, "ROWS".toList] ++ "ONLY".toList :: tokens (mask c)))) := by
    rw [mask_plain_between h.live (isPlain_offsetText n) (offsetText_ne_nil n), tokens_append (.of_ends hleft _),
      tokens_offsetText_append n hright]
  have hnone : ∀ p ∈ ["OFFSET".toList, ['0'], "ROWS".toList], isFetch p = false := by decide
  have hcount' : isRowCount ["NEXT".toList, Text.ofNat n, "ROWS".toList] = true := by
    rw [isRowCount, isNumber_ofNat]
    decide
  have hguard : isOffsetClause ((tokens (mask (a ++ b))).reverse ++ []) = false := by
    rw [List.append_nil, ← occursIn_offsetBefore, hoffset]
  rw [length_openFetches, length_openFetches, h.tokens_eq, hwords, hnew]
  refine countOpen_append_lt (endsClauses_fetch h.fetch) ?_ ?_
  · rintro _ ⟨⟩
    decide
  · rw [countOpen_append_of_not hnone, countOpen_fetchClause (by decide) hcount' (spelled_self _),
      countOpen_fetchClause (decide_eq_true h.fetch) hcount h.only, hguard]
    have hsettled : isOffsetClause (["OFFSET".toList, ['0'], "ROWS".toList].reverse ++
        ((tokens (mask (a ++ b))).reverse ++ [])) = true := by
      have hrow : isRows "ROWS".toList = true := by decide
      have hzero : isNumber ['0'] = true := by decide
      simp only [List.reverse_cons, List.reverse_nil, List.nil_append, List.cons_append, isOffsetClause, hrow, hzero,
        spelled_self, decide_true, Bool.and_self]
    rw [hsettled, if_pos rfl, if_neg Bool.false_ne_true]
    omega

end DialectBridge.ToTsql
