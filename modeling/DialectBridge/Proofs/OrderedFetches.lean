import DialectBridge.Proofs.OpenFetches
import DialectBridge.Proofs.RownumToTop
import Mathlib.Data.List.Chain
/-!
# The row limit of an ordered query

A `FETCH` clause at the end of an ordered query is its only one, if the query in front of it has none (`FetchFront`).
It stays behind an `OFFSET` clause with a number (`FetchFront.fetchFirst_kept`), and otherwise gets an
`OFFSET 0 ROWS` once (`FetchFront.fetchFirst_moved`).
-/
namespace DialectBridge.ToTsql
open Pattern Cursor LexState

/-! ## Texts in front of a word -/

section
variable {p p' t t' : Text}

/-- A place in front of a word is told by the tokens in front of it. -/
theorem append_inj_of_tokens (hp : endsInWord p = false) (hp' : endsInWord p' = false) (ht : beginsInWord t = true)
    (ht' : beginsInWord t' = true) (htokens : tokens p = tokens p') (h : p ++ t = p' ++ t') : p = p' ∧ t = t' := by
  have hnil : ∀ {p z t : Text}, endsInWord p = false → beginsInWord (z ++ t) = true → tokens (p ++ z) = tokens p →
      z = [] := by
    intro p z t hp hbegin hsame
    rw [tokens_append (.of_ends hp z)] at hsame
    have hblank := isBlank_of_tokens_eq_nil (List.append_right_eq_self.1 hsame)
    cases z with
    | nil => rfl
    | cons c z =>
      rw [List.cons_append, beginsInWord_cons, isWordChar_of_isBlank (hblank c (by simp))] at hbegin
      cases hbegin
  rcases List.append_eq_append_iff.1 h with ⟨z, rfl, rfl⟩ | ⟨z, rfl, rfl⟩
  · obtain rfl := hnil hp ht htokens.symm
    simp
  · obtain rfl := hnil hp' ht' htokens
    simp

end

/-! ## Queries without `FETCH` clauses -/

def Limitless (ps : List Text) : Prop := ∀ s, s <:+ ps → isFetchClause s = false

/-- Whether a number behind a token is no number of rows. -/
def Uncounted (p q : Text) : Prop := isNumber q = true → ¬ Spelled "FIRST".toList p ∧ ¬ Spelled "NEXT".toList p

section
variable {ps qs : List Text} {p : Text}

theorem limitless_nil : Limitless [] := by
  intro s hs
  rw [List.suffix_nil.1 hs]
  rfl

theorem limitless_cons : Limitless (p :: ps) ↔ isFetchClause (p :: ps) = false ∧ Limitless ps := by
  simp only [Limitless, List.suffix_cons_iff, forall_eq_or_imp]

theorem limitless_of_not (h : ∀ p ∈ ps, isFetch p = false) : Limitless ps := by
  induction ps with
  | nil => exact limitless_nil
  | cons p ps ih =>
    exact limitless_cons.2 ⟨isFetchClause_of_not (h p (by simp)), ih fun q hq => h q (List.mem_cons_of_mem p hq)⟩

theorem Limitless.append (hps : Limitless ps) (hqs : Limitless qs) (hends : EndsClauses qs) : Limitless (ps ++ qs) := by
  induction ps with
  | nil => exact hqs
  | cons p ps ih =>
    rw [limitless_cons] at hps
    rw [List.cons_append, limitless_cons, isFetchClause_append hends]
    exact ⟨hps.1, ih hps.2⟩

/-- The number of rows stands behind `FIRST` or `NEXT`. -/
theorem limitless_of_isChain (h : ps.IsChain Uncounted) : Limitless ps := by
  intro s hs
  have hchain : s.IsChain Uncounted := h.suffix hs
  cases hclause : isFetchClause s with
  | false => rfl
  | true =>
    unfold isFetchClause at hclause
    split at hclause
    · rename_i f k n r o rest
      simp only [Bool.and_eq_true] at hclause
      obtain ⟨hcount, hnumber, -, -⟩ := words_of_isRowCount hclause.1.2
      have huncounted := (List.isChain_cons_cons.1 (List.isChain_cons_cons.1 hchain).2).1 hnumber
      exact absurd hcount (not_or.2 huncounted)
    · cases hclause

end

/-! ## Ordered queries -/

theorem takesPhrases_orderBy : TakesPhrases orderBy := by
  have hphrase : TakesPhrases (edge ++ (word "ORDER".toList ++ blanks1 ++ word "BY".toList) ++ edge) :=
    takesPhrases_of_isPhrase rfl fun u w v => isPhrase_of_matches (by decide) (by decide)
  refine ⟨hphrase.edges, fun u w v h => ?_⟩
  obtain ⟨w, e', rfl, hw, he'⟩ := matches_seq.1 h
  obtain ⟨w, y, rfl, hw, hy⟩ := matches_seq.1 hw
  obtain ⟨w, b, rfl, hw, hb⟩ := matches_seq.1 hw
  obtain ⟨e, o, rfl, he, ho⟩ := matches_seq.1 hw
  have hwhole : Matches (edge ++ (word "ORDER".toList ++ blanks1 ++ word "BY".toList) ++ edge) u
      (e ++ (o ++ b ++ y) ++ e') v := by
    refine matches_seq.2 ⟨e ++ (o ++ b ++ y), e', rfl, ?_, by simpa using he'⟩
    refine matches_seq.2 ⟨e, o ++ b ++ y, rfl, by simpa using he, ?_⟩
    refine matches_seq.2 ⟨o ++ b, y, rfl, ?_, by simpa using hy⟩
    exact matches_seq.2 ⟨o, b, rfl, by simpa using ho, by simpa using hb⟩
  simpa using hphrase.takes _ _ _ hwhole

/-- What orders a query is found behind a text with its parentheses closed. -/
theorem zeroMatches_orderBy_ne_nil {a : Text} (ha : depth a = 0) (t : Text) :
    zeroMatches orderBy (a ++ (" ORDER BY ".toList ++ t)) ≠ [] := by
  have hspace : [' '] ≠ [] ∧ ∀ c ∈ [' '], Unicode.isBlank c = true := by decide
  have hmatch : Matches orderBy (a ++ [' ']) "ORDER BY".toList (' ' :: t) := by
    refine matches_seq.2 ⟨"ORDER BY".toList, [], by simp, ?_, matches_edge.2 ⟨rfl, ?_⟩⟩
    · refine matches_seq.2 ⟨"ORDER ".toList, "BY".toList, rfl, ?_, matches_word.2 (spelled_self _)⟩
      refine matches_seq.2 ⟨"ORDER".toList, [' '], rfl, ?_, matches_blanks1.2 hspace⟩
      refine matches_seq.2 ⟨[], "ORDER".toList, rfl, matches_edge.2 ⟨rfl, ?_⟩, matches_word.2 (spelled_self _)⟩
      rw [endsInWord_append (by simp), beginsInWord_append (by decide)]
      decide
    · rw [endsInWord_append (by decide), beginsInWord_cons]
      decide
  have hdepth : depth (a ++ [' ']) = 0 := by rw [depth_append, ha]; decide
  obtain ⟨m, hm, -⟩ := takesPhrases_orderBy.exists_mem_zeroMatches hmatch hdepth
  have hsplit : a ++ (" ORDER BY ".toList ++ t) = a ++ [' '] ++ ("ORDER BY".toList ++ ' ' :: t) := by simp
  rw [hsplit]
  exact List.ne_nil_of_mem hm

/-! ## The clause at the end -/

/-- `FETCH FIRST number ROWS ONLY`, with `k` for `FIRST`. -/
def rowClause (k number : Text) : Text := "FETCH ".toList ++ (k ++ (' ' :: (number ++ " ROWS ONLY".toList)))

def offsetHead : Text := "OFFSET 0 ROWS "

/-- The query in front of a `FETCH` clause. -/
structure FetchFront (x : Text) : Prop where
  live : (code.after x).live = true
  left : endsInWord x = false
  limitless : Limitless (tokens (mask x))

section
variable {x k number sql a b f y o c n : Text} {m : Match} {i : Nat}

theorem tokens_rowClause (hcount : isRowCount [k, number, "ROWS".toList] = true) :
    tokens (rowClause k number) = "FETCH".toList :: ([k, number, "ROWS".toList] ++ ["ONLY".toList]) := by
  obtain ⟨-, -, -, hwords⟩ := words_of_isRowCount hcount
  have hblank : [' '] ≠ [] ∧ ∀ c ∈ [' '], Unicode.isBlank c = true := by decide
  have hsplit : rowClause k number = "FETCH".toList ++ ([' '] ++ (k ++ ([' '] ++ (number ++ ([' '] ++ "ROWS ONLY".toList))))) := rfl
  rw [hsplit, tokens_word_blanks (by decide) hblank, tokens_word_blanks (hwords k (by simp)).1 hblank,
    tokens_word_blanks (hwords number (by simp)).1 hblank]
  rfl

theorem isPlain_rowClause (hcount : isRowCount [k, number, "ROWS".toList] = true) :
    ∀ c ∈ rowClause k number, isPlain c = true := by
  obtain ⟨-, -, -, hwords⟩ := words_of_isRowCount hcount
  intro c hc
  rcases List.mem_append.1 hc with hc | hc
  · exact (by decide : ∀ c ∈ "FETCH ".toList, isPlain c = true) c hc
  rcases List.mem_append.1 hc with hc | hc
  · exact isPlain_of_isWordChar ((hwords k List.mem_cons_self).1.2 c hc)
  rcases List.mem_cons.1 hc with rfl | hc
  · decide
  rcases List.mem_append.1 hc with hc | hc
  · exact isPlain_of_isWordChar ((hwords number (List.mem_cons_of_mem k List.mem_cons_self)).1.2 c hc)
  · exact (by decide : ∀ c ∈ " ROWS ONLY".toList, isPlain c = true) c hc

theorem rowClause_ne_nil : rowClause k number ≠ [] := List.append_ne_nil_of_left_ne_nil (by decide) _

theorem beginsInWord_rowClause (t : Text) : beginsInWord (rowClause k number ++ t) = true := rfl

theorem endsInWord_rowClause (t : Text) : endsInWord (t ++ rowClause k number) = true := by
  rw [endsInWord_append rowClause_ne_nil]
  change endsInWord ("FETCH ".toList ++ (k ++ ([' '] ++ (number ++ " ROWS ONLY".toList)))) = true
  rw [endsInWord_append (by simp), endsInWord_append (by simp), endsInWord_append (by simp), endsInWord_append (by decide)]
  decide

theorem FetchFront.mask_eq (h : FetchFront x) (hcount : isRowCount [k, number, "ROWS".toList] = true) :
    mask (x ++ rowClause k number) = mask x ++ rowClause k number := by
  have := mask_plain_between (b := []) h.live (isPlain_rowClause hcount) rowClause_ne_nil
  rwa [mask_nil, List.append_nil] at this

/-- The clause is the only one. -/
theorem FetchFront.cut_eq (h : FetchFront x) (hcount : isRowCount [k, number, "ROWS".toList] = true)
    (hcut : FetchCut (x ++ rowClause k number) a b f y o c) :
    a ++ b = x ∧ c = [] ∧ tokens (mask y) = [k, number, "ROWS".toList] := by
  obtain ⟨-, -, -, hwords⟩ := words_of_isRowCount hcount
  obtain ⟨k', number', r', hwords'⟩ := exists_of_isRowCount hcut.count
  have hcount' := hcut.count
  rw [hwords'] at hcount'
  have hname : isName "FETCH".toList = true := by decide
  have hleft : endsInWord (mask x) = false := by rw [endsInWord_mask h.live, h.left]
  have hleft' : endsInWord (mask (a ++ b)) = false := by rw [endsInWord_mask hcut.live, hcut.left]
  have htokens : tokens (mask (a ++ b)) ++ (f :: ([k', number', r'] ++ o :: tokens (mask c))) =
      tokens (mask x) ++ ("FETCH".toList :: ([k, number, "ROWS".toList] ++ ["ONLY".toList])) := by
    rw [← hwords', ← hcut.tokens_eq, h.mask_eq hcount, tokens_append (.of_ends hleft _), tokens_rowClause hcount]
  -- neither clause can begin in front of the other
  have hsame : tokens (mask (a ++ b)) = tokens (mask x) := by
    rcases List.append_eq_append_iff.1 htokens with ⟨_ | ⟨p, z⟩, hx, hclause⟩ | ⟨_ | ⟨p, z⟩, hab, hclause⟩
    · rw [hx, List.append_nil]
    · obtain rfl : f = p := (List.cons.inj hclause).1
      have hbehind : [k', number', r'] ++ o :: tokens (mask c) =
          z ++ "FETCH".toList :: ([k, number, "ROWS".toList] ++ ["ONLY".toList]) := (List.cons.inj hclause).2
      have hfound : isFetchClause (f :: z) = true := by
        rw [← isFetchClause_append (l := z) (endsClauses_fetch (spelled_self "FETCH".toList)), ← hbehind]
        simp only [List.cons_append, List.nil_append, isFetchClause, isFetch, hcut.fetch, hcut.only, hcount',
          decide_true, Bool.and_self]
      rw [h.limitless _ ⟨_, hx.symm⟩] at hfound
      cases hfound
    · rw [hab, List.append_nil]
    · have hmem : f ∈ [k, number, "ROWS".toList] ++ ["ONLY".toList] := by
        rw [(List.cons.inj hclause).2]
        simp
      rcases List.mem_append.1 hmem with hmem | hmem
      · exact absurd hcut.fetch (of_decide_eq_false (hwords f hmem).2)
      · obtain rfl := List.mem_singleton.1 hmem
        exact absurd hcut.fetch (by decide)
  obtain ⟨-, hwords''⟩ := List.cons.inj (List.append_cancel_left (hsame ▸ htokens))
  obtain ⟨hcounts, honly⟩ := List.append_inj hwords'' rfl
  have hc : tokens (mask c) = [] := (List.cons.inj honly).2
  have hbegin : beginsInWord (f ++ (mask y ++ (o ++ mask c))) = true := hcut.fetch.beginsInWord hname _
  have hmask : mask (a ++ b) ++ (f ++ (mask y ++ (o ++ mask c))) = mask x ++ rowClause k number := by
    rw [← hcut.mask_split, h.mask_eq hcount]
  have hfront : mask (a ++ b) = mask x := (append_inj_of_tokens hleft' hleft hbegin rfl hsame hmask).1
  refine ⟨?_, ?_, by rw [hwords', hcounts]⟩
  · refine (Text.append_inj_of_width hcut.split.symm ?_).1
    rw [← width_mask, hfront, width_mask]
  · by_contra hne
    have hblank := isBlank_of_tokens_eq_nil hc
    have hne' : mask c ≠ [] := fun hnil => absurd (width_mask c) (by rw [hnil]; exact Nat.ne_of_lt (Text.width_pos hne))
    have hend : endsInWord (mask x ++ rowClause k number) = true := endsInWord_rowClause (mask x)
    rw [← hmask, ← List.append_assoc, ← List.append_assoc, ← List.append_assoc,
      endsInWord_blanks hne' hblank] at hend
    cases hend

theorem FetchFront.found_eq (h : FetchFront x) (hcount : isRowCount [k, number, "ROWS".toList] = true)
    (hm : m ∈ fetchFirstClause.findAll (mask (x ++ rowClause k number))) :
    ∃ a b f y o, a ++ b = x ∧ FetchFound (x ++ rowClause k number) m a b f y o [] number := by
  obtain ⟨a, b, f, y, o, c, n, hfound⟩ := exists_fetchFound hm
  obtain ⟨hab, rfl, hwords⟩ := h.cut_eq hcount hfound.toFetchCut
  obtain rfl : number = n := by
    have hnumber := hfound.number
    rw [hwords] at hnumber
    exact Option.some.inj hnumber
  exact ⟨a, b, f, y, o, hab, hfound⟩

theorem FetchFront.findAll_ne_nil (h : FetchFront x) (hcount : isRowCount [k, number, "ROWS".toList] = true) :
    fetchFirstClause.findAll (mask (x ++ rowClause k number)) ≠ [] := by
  have hleft : endsInWord (mask x) = false := by rw [endsInWord_mask h.live, h.left]
  have hclause : isFetchClause ("FETCH".toList :: ([k, number, "ROWS".toList] ++ ["ONLY".toList])) = true := by
    have hwords : isFetch "FETCH".toList = true ∧ Spelled "ONLY".toList "ONLY".toList := by decide
    simp only [List.cons_append, List.nil_append, isFetchClause, hwords.1, hwords.2, hcount, decide_true, Bool.and_self]
  obtain ⟨w, v, hsplit, g, g', htakes⟩ :=
    exists_matches_fetchFirstClause hleft (beginsInWord_rowClause []) (by rw [List.append_nil, tokens_rowClause hcount]) hclause
  obtain ⟨m, hm⟩ := Option.isSome_iff_exists.1 (isSome_matchAt?_iff.2 ⟨w, v, g, g', hsplit, htakes⟩)
  rw [List.append_nil] at hm
  rw [h.mask_eq hcount]
  rcases mem_findAll_or_exists consuming_fetchFirstClause hm with hfound | ⟨m', hfound, -⟩
  · exact List.ne_nil_of_mem hfound
  · exact List.ne_nil_of_mem hfound

/-- The clause stays behind an `OFFSET` clause with a number, and with a number that is too large. -/
theorem FetchFront.gives_none (h : FetchFront x) (hcount : isRowCount [k, number, "ROWS".toList] = true)
    (hkept : isOffsetClause (tokens (mask x)).reverse = true ∨ Text.readNat? 10 (Nat.pow 2 64) number = none) :
    Gives (fetchStep (x ++ rowClause k number)) none := by
  refine gives_findSomeM?_none fun m hm => ?_
  obtain ⟨a, b, f, y, o, rfl, hfound⟩ := h.found_eq hcount hm
  exact hfound.gives_none (by rwa [occursIn_offsetBefore])

/-- Otherwise it gets an `OFFSET` if the query in front of it is ordered. -/
theorem FetchFront.gives_some (h : FetchFront x) (hcount : isRowCount [k, number, "ROWS".toList] = true)
    (hopen : isOffsetClause (tokens (mask x)).reverse = false) (hread : Text.readNat? 10 (Nat.pow 2 64) number = some i)
    (hnest : nest 0 (mask x) = some 0) (horder : zeroMatches orderBy (mask x) ≠ []) :
    Gives (fetchStep (x ++ rowClause k number)) (some (x ++ offsetText i)) := by
  refine gives_findSomeM?_some (h.findAll_ne_nil hcount) fun m hm => ?_
  obtain ⟨a, b, f, y, o, rfl, hfound⟩ := h.found_eq hcount hm
  have hstart : scopeStart (mask (a ++ b ++ rowClause k number)) (Text.width (a ++ b)) = 0 := by
    rw [h.mask_eq hcount, ← width_mask (a ++ b)]
    exact scopeStart_of_nest hnest _
  have horders := depthZeroMatches?_append [] (mask (a ++ b)) (rowClause k number) orderBy
  rw [List.nil_append, ← h.mask_eq hcount, Text.width_nil, Nat.zero_add, width_mask] at horders
  obtain ⟨r, hr, -⟩ := exists_insertTop? a [] i
  have hgives := hfound.gives_moveFetch hread (by rwa [occursIn_offsetBefore]) (by rw [hstart, horders]) hr
  rw [List.isEmpty_map, List.isEmpty_eq_false_iff.2 horder, List.append_nil] at hgives
  exact hgives

theorem isRowCount_ofNat (i : Nat) : isRowCount ["NEXT".toList, Text.ofNat i, "ROWS".toList] = true := by
  rw [isRowCount, isNumber_ofNat]
  decide

/-- The query with an `OFFSET` has no `FETCH` clause either, and ends in an `OFFSET` clause. -/
theorem FetchFront.offset (h : FetchFront x) :
    FetchFront (x ++ offsetHead) ∧
      isOffsetClause (tokens (mask (x ++ offsetHead))).reverse = true := by
  have hplain : ∀ c ∈ offsetHead, isPlain c = true := by decide
  have hleft : endsInWord (mask x) = false := by rw [endsInWord_mask h.live, h.left]
  have hmask := mask_plain_between (b := []) h.live hplain (by decide)
  have hwords : tokens offsetHead = ["OFFSET".toList, ['0'], "ROWS".toList] := by decide
  have htokens : tokens (mask (x ++ offsetHead)) =
      tokens (mask x) ++ ["OFFSET".toList, ['0'], "ROWS".toList] := by
    rw [mask_nil, List.append_nil] at hmask
    rw [hmask, tokens_append (.of_ends hleft _), hwords]
  refine ⟨⟨?_, ?_, ?_⟩, ?_⟩
  · rw [LexState.after_append, after_of_all_isPlain h.live hplain (by decide)]
    rfl
  · rw [endsInWord_append (by decide)]
    decide
  · rw [htokens]
    refine h.limitless.append (limitless_of_not (by decide)) ?_
    rintro _ ⟨⟩
    decide
  · rw [htokens, List.reverse_append]
    have hparts : isRows "ROWS".toList = true ∧ isNumber ['0'] = true := by decide
    simp only [List.reverse_cons, List.reverse_nil, List.nil_append, List.cons_append, isOffsetClause, hparts.1,
      hparts.2, spelled_self, decide_true, Bool.and_self]

theorem offsetText_eq (x : Text) (i : Nat) :
    x ++ offsetText i = x ++ offsetHead ++ rowClause "NEXT".toList (Text.ofNat i) := by
  have hhead : "OFFSET 0 ROWS FETCH NEXT ".toList =
      offsetHead ++ ("FETCH ".toList ++ ("NEXT".toList ++ [' '])) := by decide
  unfold offsetText rowClause
  rw [hhead]
  simp only [List.append_assoc, List.cons_append, List.nil_append]

theorem offsetText_ne_rowClause : offsetText i ≠ rowClause k number := fun h => by
  have hhead := congrArg List.head? h
  unfold offsetText rowClause at hhead
  rw [List.append_assoc] at hhead
  cases hhead

theorem FetchFront.fetchFirst_kept (h : FetchFront x) (hcount : isRowCount [k, number, "ROWS".toList] = true)
    (hkept : isOffsetClause (tokens (mask x)).reverse = true ∨ Text.readNat? 10 (Nat.pow 2 64) number = none) :
    Gives (fetchFirst (x ++ rowClause k number)) (x ++ rowClause k number) := by
  rw [fetchFirst]
  exact (Reaches.done (h.gives_none hcount hkept)).gives_fixpoint (Nat.zero_le _)

/-- The clause of an ordered query gets one `OFFSET`. -/
theorem FetchFront.fetchFirst_moved (h : FetchFront x) (hcount : isRowCount [k, number, "ROWS".toList] = true)
    (hopen : isOffsetClause (tokens (mask x)).reverse = false) (hread : Text.readNat? 10 (Nat.pow 2 64) number = some i)
    (hnest : nest 0 (mask x) = some 0) (horder : zeroMatches orderBy (mask x) ≠ []) :
    Gives (fetchFirst (x ++ rowClause k number)) (x ++ offsetText i) := by
  have hstep := h.gives_some hcount hopen hread hnest horder
  obtain ⟨hfront, hoffset⟩ := h.offset
  have hlast := hfront.gives_none (isRowCount_ofNat i) (.inl hoffset)
  rw [← offsetText_eq] at hlast
  rw [fetchFirst]
  exact (Reaches.more hstep (fun heq => offsetText_ne_rowClause (List.append_cancel_left heq)) (.done hlast)).gives_fixpoint
    (by decide)

end

end DialectBridge.ToTsql
