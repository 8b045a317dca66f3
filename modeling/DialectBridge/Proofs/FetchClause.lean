import DialectBridge.Proofs.TopInsertion
/-!
# Moving a `FETCH` clause

`moveFetch` takes the clause out and puts a `TOP` into the heading, or puts an `OFFSET` in front of
it. It never fails, and what it gives is made of the texts before and behind the clause
(`exists_moveFetch`).
-/
namespace DialectBridge.ToTsql
open Pattern Cursor LexState

/-- The text of the clause that replaces a `FETCH` in an ordered block. -/
def offsetText (n : Nat) : Text :=
  "OFFSET 0 ROWS FETCH NEXT ".toList ++ Text.ofNat n ++ " ROWS ONLY".toList

/-- The block in front of a place can be searched. -/
theorem exists_depthZeroMatches?_scopeStart (z z' : Text) (p : Pattern) :
    ∃ ms, depthZeroMatches? (z ++ z') (scopeStart (z ++ z') (Text.width z)) (Text.width z) p =
      some ms := by
  obtain ⟨x, y, rfl, -, hstart⟩ := exists_scopeStart z z'
  rw [hstart, Text.width_append]
  exact ⟨_, depthZeroMatches?_append x y z' p⟩

def isNumber (p : Text) : Bool := !p.isEmpty && p.all CharSet.digit.contains

def isRows (p : Text) : Bool := decide (Spelled "ROW".toList p) || decide (Spelled "ROWS".toList p)

/-- Whether some words are what stands between `FETCH` and `ONLY`. -/
def isRowCount : List Text → Bool
  | [k, n, r] => (decide (Spelled "FIRST".toList k) || decide (Spelled "NEXT".toList k)) && isNumber n && isRows r
  | _ => false

theorem isDigit_of_ascii {c : Char} (h : c.isDigit = true) : CharSet.digit.contains c = true := by
  have hsorted : Unicode.digitRanges.Sorted := by
    unfold Unicode.Ranges.Sorted
    decide
  rw [CharSet.contains, Unicode.Ranges.contain, CharSet.digit, Unicode.Ranges.has_eq_true_iff hsorted]
  refine ⟨(0x30, 0x39), by decide, ?_⟩
  simpa [Char.isDigit, UInt32.le_iff_toNat_le] using h

theorem isNumber_iff {p : Text} : isNumber p = true ↔ p ≠ [] ∧ ∀ c ∈ p, CharSet.digit.contains c = true := by
  simp [isNumber]

theorem isRows_iff {p : Text} :
    isRows p = true ↔ ∃ r s, p = r ++ s ∧ Spelled "ROW".toList r ∧ (Spelled "S".toList s ∨ s = []) := by
  rw [isRows, Bool.or_eq_true, decide_eq_true_eq, decide_eq_true_eq]
  constructor
  · rintro (h | h)
    · exact ⟨p, [], by simp, h, .inr rfl⟩
    · refine ⟨p.take 3, p.drop 3, by simp, ?_, .inl ?_⟩
      · exact List.forall₂_take 3 h
      · exact List.forall₂_drop 3 h
  · rintro ⟨r, s, rfl, hr, hs | rfl⟩
    · exact .inr (List.rel_append hr hs)
    · rw [List.append_nil]
      exact .inl hr

theorem isWordChar_of_isNumber {p : Text} (h : isNumber p = true) :
    p ≠ [] ∧ ∀ c ∈ p, Unicode.isWordChar c = true :=
  ⟨(isNumber_iff.1 h).1, fun c hc => isWordChar_of_isDigit ((isNumber_iff.1 h).2 c hc)⟩

theorem isWordChar_of_isRows {p : Text} (h : isRows p = true) :
    p ≠ [] ∧ ∀ c ∈ p, Unicode.isWordChar c = true := by
  rw [isRows, Bool.or_eq_true, decide_eq_true_eq, decide_eq_true_eq] at h
  rcases h with h | h
  · exact ⟨h.ne_nil (by decide), h.isWordChar (by decide)⟩
  · exact ⟨h.ne_nil (by decide), h.isWordChar (by decide)⟩

/-- White space parts the words of a text. -/
theorem tokens_word_blanks {w b : Text} (hw : w ≠ [] ∧ ∀ c ∈ w, Unicode.isWordChar c = true)
    (hb : b ≠ [] ∧ ∀ c ∈ b, Unicode.isBlank c = true) (t : Text) : tokens (w ++ (b ++ t)) = w :: tokens t := by
  rw [tokens_append (.of_begins (beginsInWord_blanks_append hb t) w), tokens_word hw.1 hw.2, tokens_blanks_append hb.2]
  rfl

/-- The parts of a `FETCH` clause: white space, `FETCH`, what is between, `ONLY`. -/
theorem exists_fetchParts {u x : Text} {m : Match}
    (h : fetchFirstClause.matchAt? (between u x) = some m) :
    ∃ b f y o v n, x = b ++ (f ++ (y ++ (o ++ v))) ∧ (∀ c ∈ b, Unicode.isBlank c = true) ∧
      Spelled "FETCH".toList f ∧ Spelled "ONLY".toList o ∧ endsInWord (u ++ b) = false ∧
      beginsInWord (y ++ (o ++ v)) = false ∧ endsInWord y = false ∧ isRowCount (tokens y) = true ∧
      beginsInWord v = false ∧ m.groupSpan? 1 = some ⟨Text.width u, Text.width (u ++ b)⟩ ∧
      m.group? 2 = some n ∧ (tokens y)[1]? = some n ∧ m.start = Text.width u ∧
      m.stop = Text.width (u ++ b ++ f ++ y ++ o) := by
  obtain ⟨w, v, rfl, hfirst, hlast, hw⟩ := matchAt?_eq_some h
  obtain ⟨w, e', g₁, rfl, hw, he'⟩ := hw
  obtain ⟨w, o, g₂, rfl, hw, ho⟩ := hw
  obtain ⟨w, b₄, g₃, rfl, hw, hb₄⟩ := hw
  obtain ⟨w, s, g₄, rfl, hw, hs⟩ := hw
  obtain ⟨w, r, g₅, rfl, hw, hr⟩ := hw
  obtain ⟨w, b₃, g₆, rfl, hw, hb₃⟩ := hw
  obtain ⟨w, n, g₇, rfl, hw, g₈, hn, rfl⟩ := hw
  obtain ⟨w, b₂, g₉, rfl, hw, hb₂⟩ := hw
  obtain ⟨w, k, g₁₀, rfl, hw, hk⟩ := hw
  obtain ⟨w, b₁, g₁₁, rfl, hw, hb₁⟩ := hw
  obtain ⟨w, f, g₁₂, rfl, hw, hf⟩ := hw
  obtain ⟨b, e, g₁₃, rfl, ⟨g₁₄, hb, rfl⟩, he⟩ := hw
  obtain ⟨⟨rfl, hedge⟩, rfl⟩ := takes_edge he
  obtain ⟨⟨rfl, hedge'⟩, rfl⟩ := takes_edge he'
  obtain ⟨hblank, rfl⟩ := takes_blanks hb
  obtain ⟨hfetch, rfl⟩ := takes_word hf
  obtain ⟨hblank₁, rfl⟩ := takes_blanks1 hb₁
  obtain ⟨hblank₂, rfl⟩ := takes_blanks1 hb₂
  obtain ⟨hnumber, rfl⟩ := takes_digits1 hn
  obtain ⟨hblank₃, rfl⟩ := takes_blanks1 hb₃
  obtain ⟨hrow, rfl⟩ := takes_word hr
  obtain ⟨hblank₄, rfl⟩ := takes_blanks1 hb₄
  obtain ⟨honly, rfl⟩ := takes_word ho
  obtain rfl := hk.groups_eq (by decide)
  have hgroups := hs.groups_eq (by decide)
  have hnext : Spelled "FIRST".toList k ∨ Spelled "NEXT".toList k :=
    (matches_alt.1 ⟨_, _, hk⟩).imp matches_word.1 matches_word.1
  have hrows : isRows (r ++ s) = true :=
    isRows_iff.2 ⟨r, s, rfl, hrow, (matches_opt.1 ⟨_, _, hs⟩).imp_left matches_word.1⟩
  have hname : isName "FETCH".toList = true := by decide
  have hname' : isName "ONLY".toList = true := by decide
  have hword : k ≠ [] ∧ ∀ c ∈ k, Unicode.isWordChar c = true :=
    hnext.elim (fun h => ⟨h.ne_nil (by decide), h.isWordChar (by decide)⟩)
      fun h => ⟨h.ne_nil (by decide), h.isWordChar (by decide)⟩
  have hwords : tokens (b₁ ++ k ++ b₂ ++ n ++ b₃ ++ r ++ s ++ b₄) = [k, n, r ++ s] := by
    have hsplit : b₁ ++ k ++ b₂ ++ n ++ b₃ ++ r ++ s ++ b₄ =
        b₁ ++ (k ++ (b₂ ++ (n ++ (b₃ ++ ((r ++ s) ++ (b₄ ++ [])))))) := by simp
    rw [hsplit, tokens_blanks_append hblank₁.2, tokens_word_blanks hword hblank₂,
      tokens_word_blanks (isWordChar_of_isNumber (isNumber_iff.2 hnumber)) hblank₃,
      tokens_word_blanks (isWordChar_of_isRows hrows) hblank₄, tokens_nil]
  refine ⟨b, f, b₁ ++ k ++ b₂ ++ n ++ b₃ ++ r ++ s ++ b₄, o, v, n, by simp, hblank, hfetch, honly, ?_,
    ?_, ?_, ?_, ?_, ?_, ?_, by rw [hwords]; rfl, by simp [Match.start, hfirst], by simp [Match.stop, hlast]⟩
  · rw [hfetch.beginsInWord hname] at hedge
    simpa using hedge
  · simp only [List.append_assoc]
    exact beginsInWord_blanks_append hblank₁ _
  · exact endsInWord_blanks hblank₄.1 hblank₄.2 _
  · rw [hwords, isRowCount, isNumber_iff.2 hnumber, hrows, Bool.and_true, Bool.and_true, Bool.or_eq_true,
      decide_eq_true_eq, decide_eq_true_eq]
    exact hnext
  · rw [← List.append_assoc, honly.endsInWord hname'] at hedge'
    simpa using hedge'
  · simp [Match.groupSpan?, hgroups, List.lookup_cons]
  · exact Match.group?_eq_some (by decide) (by rw [hgroups]; rfl)

/-- A query cut at a `FETCH` clause in its code. -/
structure FetchCut (sql a b f y o c : Text) : Prop where
  split : sql = a ++ b ++ (f ++ (y ++ (o ++ c)))
  fetch : Spelled "FETCH".toList f
  only : Spelled "ONLY".toList o
  live : (code.after (a ++ b)).live = true
  front : Apart a b
  left : endsInWord (a ++ b) = false
  behind : beginsInWord (y ++ (o ++ c)) = false
  before : endsInWord y = false
  inner : (code.after y).live = true
  count : isRowCount (tokens (mask y)) = true
  right : beginsInWord c = false

/-- A `FETCH` clause that is found, with what its rule reads of it. -/
structure FetchFound (sql : Text) (m : Match) (a b f y o c n : Text) : Prop extends FetchCut sql a b f y o c where
  space : m.groupSpan? 1 = some ⟨Text.width a, Text.width (a ++ b)⟩
  group : m.group? 2 = some n
  number : (tokens (mask y))[1]? = some n
  start : m.start = Text.width a
  stop : m.stop = Text.width (a ++ b ++ (f ++ (y ++ o)))

theorem exists_fetchFound {sql : Text} {m : Match} (hm : m ∈ fetchFirstClause.findAll (mask sql)) :
    ∃ a b f y o c n, FetchFound sql m a b f y o c n := by
  have hframed : fetchFirstClause.framed = true := by decide
  obtain ⟨⟨a, r, hsplit, hstart⟩, -, -⟩ := isBoundary_of_mem_findAll hframed hm
  obtain ⟨u, x, hmask, hat⟩ := exists_of_mem_findAll hm
  have hside := isBlank_of_mem_findAll hframed (hmask ▸ hm) hat
  obtain ⟨b', f, y', o, v, n, rfl, hblank, hf, ho, hleft, hbehind, hbefore, hcount, hright, hspan, hgroup,
    hnumber, hstart', hstop⟩ := exists_fetchParts hat
  have hname : isName "FETCH".toList = true := by decide
  have hname' : isName "ONLY".toList = true := by decide
  rw [← List.append_assoc] at hmask
  obtain ⟨e, t, hcut, he, ht, hlive, -⟩ := exists_cut_word (hf.ne_nil hname) (hf.isWordChar hname) hmask
  obtain ⟨y, c, rfl, hy, hc, hlive', -⟩ := exists_cut_word (ho.ne_nil hname') (ho.isWordChar hname') ht
  have hwidth : Text.width e = Text.width (u ++ b') := by rw [← width_mask, he]
  have hwidth' : Text.width y = Text.width y' := by rw [← width_mask, hy]
  have hsame : Text.width a = Text.width u := by rw [hstart, hstart']
  obtain ⟨b, rfl, -⟩ := Text.exists_of_width_le (hsplit.symm.trans hcut) (by
    rw [hwidth, hsame, Text.width_append]
    omega)
  refine ⟨a, b, f, y, o, c, n, ⟨hcut, hf, ho, hlive, ?_, ?_, ?_, ?_, hlive', ?_, ?_⟩, ?_, hgroup, ?_, hstart.symm, ?_⟩
  · obtain ⟨hb, -, -⟩ := cut_of_mask_eq he hlive hsame hblank (hside.imp id (eq_nil_of_blanks hblank))
    refine .of_begins ?_ a
    rw [← beginsInWord_mask, hb, beginsInWord_of_blanks hblank]
  · rw [← endsInWord_mask hlive, he, hleft]
  · rw [← beginsInWord_mask, ht, hbehind]
  · rw [← endsInWord_mask hlive', hy, hbefore]
  · rw [hy, hcount]
  · rw [← beginsInWord_mask, hc, hright]
  · rw [hspan, hwidth, hsame]
  · rw [hy, hnumber]
  · rw [hstop, Text.width_append _ o, Text.width_append _ y', Text.width_append _ f, ← hwidth, ← hwidth']
    simp only [Text.width_append]
    omega

/-- What orders a query. -/
def orderBy : Pattern := edge ++ "ORDER" ++ blanks1 ++ "BY" ++ edge

section
variable {sql a b f y o c n : Text} {m : Match} {k : Nat} {orders : List Span} {r : Option Text}

theorem FetchCut.mask_eq (h : FetchCut sql a b f y o c) : mask sql = mask (a ++ b) ++ (f ++ mask (y ++ (o ++ c))) := by
  have hname : isName "FETCH".toList = true := by decide
  rw [h.split, mask_plain_between h.live _ (h.fetch.ne_nil hname)]
  exact fun d hd => isPlain_of_isWordChar (h.fetch.isWordChar hname d hd)

theorem FetchFound.upTo?_eq (h : FetchFound sql m a b f y o c n) :
    Text.upTo? (mask sql) (Text.width (a ++ b)) = some (mask (a ++ b)) := by
  rw [h.mask_eq, ← width_mask (a ++ b)]
  exact Text.upTo?_append _ _

/-- A clause behind an `OFFSET` with a number stays, and so does one whose number is too large. -/
theorem FetchFound.gives_none (h : FetchFound sql m a b f y o c n)
    (hkept : offsetBefore.occursIn (mask (a ++ b)) = true ∨ Text.readNat? 10 (Nat.pow 2 64) n = none) :
    Gives (moveFetch sql (mask sql) m) none := by
  unfold moveFetch
  rw [h.space, h.group]
  cases hread : (some n).bind (Text.readNat? 10 (Nat.pow 2 64)) with
  | none => exact gives_pure none
  | some limit =>
    have hoffset : offsetBefore.occursIn (mask (a ++ b)) = true :=
      hkept.resolve_right fun hnone => by simp [hnone] at hread
    exact (gives_lift h.upTo?_eq).bind (by rw [if_pos hoffset]; exact gives_pure none)

/-- Any other clause gets an `OFFSET` in an ordered block, and is taken out of another. -/
theorem FetchFound.gives_moveFetch (h : FetchFound sql m a b f y o c n)
    (hread : Text.readNat? 10 (Nat.pow 2 64) n = some k) (hoffset : offsetBefore.occursIn (mask (a ++ b)) = false)
    (horders : depthZeroMatches? (mask sql) (scopeStart (mask sql) (Text.width (a ++ b))) (Text.width (a ++ b))
      orderBy = some orders) (hinsert : insertTop? (a ++ c) (Text.width a) k = some r) :
    Gives (moveFetch sql (mask sql) m)
      (if !orders.isEmpty then some (a ++ b ++ (offsetText k ++ c)) else r) := by
  unfold moveFetch
  rw [h.space, h.group, Option.bind_some, hread]
  refine (gives_lift h.upTo?_eq).bind ?_
  rw [if_neg (by simp [hoffset])]
  refine (gives_lift horders).bind ?_
  split_ifs with horder
  · have hsplice : Text.splice? sql (Text.width (a ++ b)) m.stop (offsetText k) =
        some (a ++ b ++ (offsetText k ++ c)) := by
      have hsql : sql = a ++ b ++ (f ++ (y ++ o)) ++ c := by rw [h.split]; simp
      rw [hsql, h.stop, Text.width_append (a ++ b), Text.splice?_append, List.append_assoc]
    exact (gives_lift hsplice).bind (gives_pure _)
  · have hsplice : Text.splice? sql m.start m.stop [] = some (a ++ c) := by
      have hsql : sql = a ++ (b ++ (f ++ (y ++ o))) ++ c := by rw [h.split]; simp
      have hwidth : Text.width (a ++ b ++ (f ++ (y ++ o))) =
          Text.width a + Text.width (b ++ (f ++ (y ++ o))) := by
        rw [List.append_assoc, Text.width_append]
      rw [hsql, h.start, h.stop, hwidth, Text.splice?_append, List.append_nil]
    rw [← h.start] at hinsert
    refine (gives_lift hsplice).bind ((gives_lift hinsert).bind ?_)
    cases r with
    | none => exact (gives_warnOnce _ _).bind (gives_pure none)
    | some out => exact gives_pure _

end

/-- `moveFetch` never fails; it puts an `OFFSET` in front of the clause, or a `TOP` into the query
without it. -/
theorem exists_moveFetch {sql : Text} {m : Match} (hm : m ∈ fetchFirstClause.findAll (mask sql)) :
    Yields (moveFetch sql (mask sql) m) fun r => ∀ next ∈ r, ∃ a b f y o c n,
      FetchCut sql a b f y o c ∧ offsetBefore.occursIn (mask (a ++ b)) = false ∧
      (next = a ++ b ++ (offsetText n ++ c) ∨
        ∃ x s z, a = x ++ (s ++ z) ∧ IsHeadWord s ∧ endsInWord x = false ∧
          beginsInWord (z ++ c) = false ∧ next = x ++ s ++ (topText n ++ (z ++ c))) := by
  obtain ⟨a, b, f, y, o, c, n, h⟩ := exists_fetchFound hm
  cases hread : Text.readNat? 10 (Nat.pow 2 64) n with
  | none => exact ⟨none, h.gives_none (.inr hread), by simp⟩
  | some limit =>
  cases hoffset : offsetBefore.occursIn (mask (a ++ b)) with
  | true => exact ⟨none, h.gives_none (.inl hoffset), by simp⟩
  | false =>
  obtain ⟨orders, horders⟩ :=
    exists_depthZeroMatches?_scopeStart (mask (a ++ b)) (f ++ mask (y ++ (o ++ c))) orderBy
  rw [← h.mask_eq, width_mask] at horders
  obtain ⟨r, hr, htop⟩ := exists_insertTop? a c limit
  refine ⟨_, h.gives_moveFetch hread hoffset horders hr, fun next hnext => ⟨a, b, f, y, o, c, limit, h.toFetchCut, hoffset, ?_⟩⟩
  split_ifs at hnext
  · cases hnext
    exact .inl rfl
  · obtain ⟨x, s, z, ha, hs, hx, hz, -, hout⟩ := htop next hnext (.of_begins h.right _)
    exact .inr ⟨x, s, z, ha, hs, hx, hz, hout⟩

end DialectBridge.ToTsql
