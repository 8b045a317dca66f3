import DialectBridge.Proofs.BracketedNames
import DialectBridge.Proofs.OrderedFetches
import DialectBridge.Proofs.TopToRownum
/-!
# An offset that leaves no rows out

The `OFFSET 0 ROWS` that an ordered query gets is the only one that is found in it, and leaving it out gives the
`FETCH FIRST` clause that it came from (`gives_offsetFetch_offsetText`).
-/
namespace DialectBridge.ToOracle
open Pattern Cursor LexState ToTsql

/-! ## The clause -/

section
variable {p q : Pattern} {u w v x : Text} {g g' : Groups} {n : Nat}

/-- A pattern that takes one word. -/
def OneWord (q : Pattern) : Prop :=
  ∀ {u w v g g'}, Takes q u w v g g' → w ≠ [] ∧ ∀ c ∈ w, Unicode.isWordChar c = true

theorem oneWord_word {t : Text} (hname : isName t = true) : OneWord (word t) := fun h =>
  ⟨(takes_word h).1.ne_nil hname, (takes_word h).1.isWordChar hname⟩

theorem oneWord_rows : OneWord (word "ROW".toList ++ opt "S") := fun ⟨r, s, _, hrs, hr, hs⟩ =>
  isWordChar_of_isRows (isRows_iff.2 ⟨r, s, hrs, (takes_word hr).1, (matches_opt.1 ⟨_, _, hs⟩).imp_left matches_word.1⟩)

theorem oneWord_digits (i : Nat) : OneWord (.group i digits1) := fun ⟨_, hdigits, _⟩ =>
  isWordChar_of_isNumber (isNumber_iff.2 (takes_digits1 hdigits).1)

theorem oneWord_next : OneWord (oneOf ["NEXT", "FIRST"]) := fun h =>
  h.elim (oneWord_word (by decide)) (oneWord_word (by decide))

/-- What stands behind white space and is one word is the last token. -/
theorem takes_next (hq : OneWord q) (h : Takes (p ++ blanks1 ++ q) u w v g g') :
    ∃ y t k a g₁, w = y ++ t ∧ (∀ z, beginsInWord (t ++ z) = false) ∧ (∀ z, endsInWord (z ++ t) = true) ∧
      tokens w = tokens y ++ [k] ∧ Takes p u y (t ++ v) g g₁ ∧ Takes q a k v g₁ g' := by
  obtain ⟨w, k, g₁, rfl, ⟨y, b, g₂, rfl, hy, hb⟩, hk⟩ := h
  obtain ⟨hblank, rfl⟩ := takes_blanks1 hb
  obtain ⟨hne, hword⟩ := hq hk
  refine ⟨y, b ++ k, k, _, _, by simp, fun z => ?_, fun z => ?_, ?_, by simpa using hy, hk⟩
  · rw [List.append_assoc]
    exact beginsInWord_blanks_append hblank _
  · rw [← List.append_assoc, endsInWord_append hne]
    exact endsInWord_of_all hne hword
  · rw [List.append_assoc, tokens_append (.of_begins (beginsInWord_blanks_append hblank k) y),
      tokens_blanks_append hblank.2, tokens_word hne hword]

/-- The words of an `OFFSET` with its `FETCH`; the sixth is the number of rows. -/
theorem exists_offsetWords (h : Takes offsetZeroFetch u w v [] g) :
    ∃ o t before number behind, w = o ++ t ∧ Spelled "OFFSET".toList o ∧ beginsInWord (t ++ v) = false ∧
      endsInWord u = false ∧ beginsInWord v = false ∧ tokens w = before ++ number :: behind ∧ before.length = 5 ∧
      behind.length = 2 ∧ ∃ a b, g.lookup 1 = some (between a (number ++ b), between (a ++ number) b) := by
  -- the words from the last to the first
  obtain ⟨w, e', g₁, rfl, hw, he'⟩ := h
  obtain ⟨w, t₇, y, _, g₂, rfl, -, hends, hy, hw, honly⟩ := takes_next (oneWord_word (by decide)) hw
  obtain ⟨w, t₆, r', _, g₃, rfl, -, -, hr', hw, hrows'⟩ := takes_next oneWord_rows (takes_seq_assoc.1 hw)
  obtain ⟨w, t₅, number, a, g₄, rfl, -, -, hnumber, hw, g₅, -, hgroup⟩ := takes_next (oneWord_digits 1) hw
  obtain ⟨w, t₄, k, -, g₆, rfl, -, -, hk, hw, -⟩ := takes_next oneWord_next hw
  obtain ⟨w, t₃, f, -, g₇, rfl, -, -, hf, hw, -⟩ := takes_next (oneWord_word (by decide)) hw
  obtain ⟨w, t₂, r, -, g₈, rfl, -, -, hr, hw, -⟩ := takes_next oneWord_rows (takes_seq_assoc.1 hw)
  obtain ⟨w, t₁, z, -, g₉, rfl, hbegins, -, hz, hw, -⟩ := takes_next (oneWord_word (by decide)) hw
  obtain ⟨e, o, g₁₀, rfl, he, ho⟩ := hw
  obtain ⟨⟨rfl, hedge⟩, rfl⟩ := takes_edge he
  obtain ⟨hoffset, -⟩ := takes_word ho
  obtain ⟨⟨rfl, hedge'⟩, rfl⟩ := takes_edge he'
  obtain ⟨-, rfl⟩ := takes_word honly
  obtain rfl := hrows'.groups_eq (by decide)
  refine ⟨o, t₁ ++ (t₂ ++ (t₃ ++ (t₄ ++ (t₅ ++ (t₆ ++ t₇))))), [o, z, r, f, k], number, [r', y], by simp, hoffset, ?_, ?_,
    ?_, ?_, rfl, rfl, _, _, by rw [hgroup]; rfl⟩
  · rw [List.append_assoc]
    exact hbegins _
  · rw [hoffset.beginsInWord (by decide)] at hedge
    simpa using hedge
  · rw [← List.append_assoc u, hends] at hedge'
    simpa using hedge'
  · rw [List.append_nil, hy, hr', hnumber, hk, hf, hr, hz, List.nil_append, tokens_word (oneWord_word (by decide) ho).1
      (oneWord_word (by decide) ho).2]
    rfl

theorem matches_offsetText (hx : endsInWord x = false) (n : Nat) : Matches offsetZeroFetch x (offsetText n) [] := by
  have hspace : [' '] ≠ [] ∧ ∀ c ∈ [' '], Unicode.isBlank c = true := by decide
  have hblank : ∀ u v, Matches blanks1 u [' '] v := fun u v => matches_blanks1.2 hspace
  have hword : ∀ t u v, Matches (word t) u t v := fun t u v => matches_word.2 (spelled_self t)
  have hrows : ∀ u v, Matches (opt "S") u "S".toList v := fun u v => matches_opt.2 (.inl (hword _ _ _))
  have hnumber : ∀ u v, Matches (.group 1 digits1) u (Text.ofNat n) v := fun u v =>
    matches_group.2 (matches_many1_one.2 (isNumeral_ofNat n))
  have hsplit : offsetText n = "OFFSET".toList ++ [' '] ++ "0".toList ++ [' '] ++ "ROW".toList ++ "S".toList ++ [' '] ++
      "FETCH".toList ++ [' '] ++ "NEXT".toList ++ [' '] ++ Text.ofNat n ++ [' '] ++ "ROW".toList ++ "S".toList ++ [' '] ++
      "ONLY".toList := by
    have hhead : "OFFSET 0 ROWS FETCH NEXT ".toList = "OFFSET".toList ++ [' '] ++ "0".toList ++ [' '] ++ "ROW".toList ++
        "S".toList ++ [' '] ++ "FETCH".toList ++ [' '] ++ "NEXT".toList ++ [' '] := by decide
    have htail : " ROWS ONLY".toList = [' '] ++ "ROW".toList ++ "S".toList ++ [' '] ++ "ONLY".toList := by decide
    unfold offsetText
    rw [hhead, htail]
    simp only [List.append_assoc]
  rw [hsplit]
  -- the words of the clause from the last to the first
  refine matches_seq.2 ⟨_, [], (List.append_nil _).symm, ?_, matches_edge.2 ⟨rfl, ?_⟩⟩
  · refine matches_seq.2 ⟨_, "ONLY".toList, rfl, ?_, hword _ _ _⟩
    refine matches_seq.2 ⟨_, [' '], rfl, ?_, hblank _ _⟩
    refine matches_seq.2 ⟨_, "S".toList, rfl, ?_, hrows _ _⟩
    refine matches_seq.2 ⟨_, "ROW".toList, rfl, ?_, hword _ _ _⟩
    refine matches_seq.2 ⟨_, [' '], rfl, ?_, hblank _ _⟩
    refine matches_seq.2 ⟨_, Text.ofNat n, rfl, ?_, hnumber _ _⟩
    refine matches_seq.2 ⟨_, [' '], rfl, ?_, hblank _ _⟩
    refine matches_seq.2 ⟨_, "NEXT".toList, rfl, ?_, matches_alt.2 (.inl (hword _ _ _))⟩
    refine matches_seq.2 ⟨_, [' '], rfl, ?_, hblank _ _⟩
    refine matches_seq.2 ⟨_, "FETCH".toList, rfl, ?_, hword _ _ _⟩
    refine matches_seq.2 ⟨_, [' '], rfl, ?_, hblank _ _⟩
    refine matches_seq.2 ⟨_, "S".toList, rfl, ?_, hrows _ _⟩
    refine matches_seq.2 ⟨_, "ROW".toList, rfl, ?_, hword _ _ _⟩
    refine matches_seq.2 ⟨_, [' '], rfl, ?_, hblank _ _⟩
    refine matches_seq.2 ⟨_, "0".toList, rfl, ?_, hword _ _ _⟩
    refine matches_seq.2 ⟨_, [' '], rfl, ?_, hblank _ _⟩
    refine matches_seq.2 ⟨[], "OFFSET".toList, rfl, matches_edge.2 ⟨rfl, ?_⟩, hword _ _ _⟩
    rw [hx, beginsInWord_append (by decide)]
    decide
  · rw [← List.append_assoc, endsInWord_append (by decide)]
    decide

/-! ## The rule -/

theorem consuming_offsetZeroFetch : offsetZeroFetch.Consuming := consuming_of_framed (framed_clauses _ (by simp))

/-- The offset is the only one in the query, and it is found with its number. -/
theorem exists_matchAt?_offsetText (hx : endsInWord x = false) (n : Nat) :
    ∃ m, offsetZeroFetch.matchAt? (between x (offsetText n)) = some m ∧ m.last = between (x ++ offsetText n) [] ∧
      m.groupD 1 = Text.ofNat n := by
  obtain ⟨g, g', htakes⟩ := matches_offsetText hx n
  obtain ⟨m, hm⟩ := Option.isSome_iff_exists.1 (isSome_matchAt?_iff.2 ⟨_, [], g, g', (List.append_nil _).symm, htakes⟩)
  obtain ⟨w, v, hsplit, -, hlast, htakes⟩ := matchAt?_eq_some hm
  obtain ⟨o, t, before, number, behind, -, -, -, -, hv, hwords, hbefore, hbehind, a, b, hgroup⟩ :=
    exists_offsetWords htakes
  have htokens := congrArg tokens hsplit
  have hclause := tokens_offsetText_append n (t := []) rfl
  rw [List.append_nil, tokens_nil] at hclause
  rw [hclause, tokens_append (.of_begins hv w), hwords, List.append_assoc] at htokens
  -- the words are counted
  have hcounted : ["OFFSET".toList, ['0'], "ROWS".toList, "FETCH".toList, "NEXT".toList] ++
      [Text.ofNat n, "ROWS".toList, "ONLY".toList] = before ++ number :: (behind ++ tokens v) := htokens
  obtain ⟨-, hrest⟩ := List.append_inj hcounted (by rw [hbefore]; rfl)
  obtain ⟨hnumber, hrest⟩ := List.cons.inj hrest
  have hended : ["ROWS".toList, "ONLY".toList] ++ [] = behind ++ tokens v := hrest
  obtain ⟨-, hnil⟩ := List.append_inj hended (by rw [hbehind]; rfl)
  have hblank := isBlank_of_tokens_eq_nil hnil.symm
  obtain rfl : v = [] := by
    by_contra hne
    have hend := endsInWord_blanks hne hblank w
    rw [← hsplit] at hend
    unfold offsetText at hend
    rw [endsInWord_append (by decide)] at hend
    exact absurd hend (by decide)
  rw [List.append_nil] at hsplit
  refine ⟨m, hm, by rw [hlast, hsplit], ?_⟩
  rw [hnumber]
  exact Match.groupD_eq (by decide) hgroup

theorem offsetText_eq_append (n : Nat) :
    offsetText n = "OFFSET".toList ++ (" 0 ROWS FETCH NEXT ".toList ++ (Text.ofNat n ++ fetchTail)) := by
  have hhead : "OFFSET 0 ROWS FETCH NEXT ".toList = "OFFSET".toList ++ " 0 ROWS FETCH NEXT ".toList := by decide
  unfold offsetText fetchTail
  rw [hhead]
  simp only [List.append_assoc]

/-- Leaving the offset out gives the clause that it came from. -/
theorem replaceAllBy_offsetText (hx : endsInWord x = false) (hspares : Spares ["OFFSET"] x) (n : Nat) :
    offsetZeroFetch.replaceAllBy fetchText (x ++ offsetText n) = x ++ rowClause "FIRST".toList (Text.ofNat n) := by
  have hname : isName "OFFSET".toList = true := by decide
  obtain ⟨m, hm, hlast, hnumber⟩ := exists_matchAt?_offsetText hx n
  -- no other offset begins in the query
  have hnone : ∀ a c b, x = a ++ c :: b → offsetZeroFetch.matchAt? (between a (c :: (b ++ offsetText n))) = none := by
    intro a c b hcut
    by_contra hne
    obtain ⟨m', hm'⟩ := Option.ne_none_iff_exists'.1 hne
    obtain ⟨w, v, hsplit, -, -, htakes⟩ := matchAt?_eq_some hm'
    obtain ⟨o, t, -, -, -, rfl, ho, ht, ha, -⟩ := exists_offsetWords htakes
    have hwhole : a ++ (o ++ (t ++ v)) = x ++ ("OFFSET".toList ++ (" 0 ROWS FETCH NEXT ".toList ++ (Text.ofNat n ++ fetchTail))) := by
      rw [← List.append_assoc o, ← hsplit, hcut, ← offsetText_eq_append]
      simp
    have hbehind : Spares ["OFFSET"] (" 0 ROWS FETCH NEXT ".toList ++ (Text.ofNat n ++ fetchTail)) := by
      refine spares_append (by decide) (spares_append (spares_digits (by decide) ?_) (by decide) ?_) (.of_ends (by decide) _)
      · exact fun _ hc => Text.isDigit_of_mem_ofNat hc
      · exact .of_begins (by decide) _
    have hbegins : beginsInWord (" 0 ROWS FETCH NEXT ".toList ++ (Text.ofNat n ++ fetchTail)) = false := by
      rw [beginsInWord_append (by decide)]
      decide
    have hsame := (name_inj hname ho (spelled_self _) ha ht hx hbegins (fun p hp => hspares p hp _ (by simp))
      (fun p hp => hbehind p hp _ (by simp)) hwhole).1
    rw [hcut] at hsame
    simp at hsame
  rw [replaceAllBy_eq_replaceFrom, replaceFrom_append_of_none (by simpa using hnone), List.nil_append]
  have hclause := replaceFrom_of_some (f := fetchText) consuming_offsetZeroFetch (v := []) (by rwa [List.append_nil]) hlast
  rw [List.append_nil, replaceFrom_nil consuming_offsetZeroFetch, List.append_nil] at hclause
  rw [hclause, fetchText, hnumber, (by decide : fetchHead = "FETCH ".toList ++ ("FIRST".toList ++ [' ']))]
  unfold rowClause fetchTail
  simp only [List.append_assoc, List.cons_append, List.nil_append]

/-- The rule leaves the offset out. -/
theorem gives_offsetFetch_offsetText (hlive : (code.after x).live = true) (hmask : mask x = x) (hx : endsInWord x = false)
    (hspares : Spares ["OFFSET"] x) (n : Nat) :
    Gives (offsetFetch (x ++ offsetText n)) (x ++ rowClause "FIRST".toList (Text.ofNat n)) := by
  have hwhole : mask (x ++ offsetText n) = x ++ offsetText n := by
    have := mask_plain_between (b := []) hlive (isPlain_offsetText n) (offsetText_ne_nil n)
    rwa [mask_nil, List.append_nil, hmask] at this
  rw [← replaceAllBy_offsetText hx hspares n]
  exact gives_offsetFetch hwhole

end

end DialectBridge.ToOracle
