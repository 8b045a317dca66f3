import DialectBridge.Proofs.CallSeams
import DialectBridge.Proofs.Captures
import DialectBridge.ToTsql.Aggregates
/-!
# The parts of a `LISTAGG`

What the rule for `LISTAGG` takes out of a query it takes out whole: the list of the clause behind a
call (`exists_withinGroup`), the value behind `DISTINCT` (`exists_distinctArgument`) and the last part of
a name (`sanePart_skeletonColumn`).
-/
namespace DialectBridge
open Pattern LexState Cursor

/-! ## Words and white space -/

section
variable {b n t name : Text}

theorem pieces_blanks_append (hb : ∀ c ∈ b, Unicode.isBlank c = true) (t : Text) :
    pieces (b ++ t) = pieces b ++ pieces t := by
  by_cases hne : b = []
  · simp [hne]
  · exact pieces_append (.of_ends (by simpa using endsInWord_blanks hne hb []) t)

theorem pieces_spelled_append (hname : isName name = true) (hn : Spelled name n) (ht : beginsInWord t = false) :
    pieces (n ++ t) = n :: pieces t := by
  rw [pieces_append (.of_begins ht n), pieces_word (hn.ne_nil hname) (hn.isWordChar hname)]
  rfl

/-- Two words with white space between them. -/
def IsPair (first second t : Text) : Prop :=
  ∃ m b n, t = m ++ (b ++ n) ∧ Spelled first m ∧ (b ≠ [] ∧ ∀ c ∈ b, Unicode.isBlank c = true) ∧ Spelled second n

theorem IsPair.isPlain {first second : Text} (hfirst : isName first = true) (hsecond : isName second = true)
    (h : IsPair first second t) : ∀ c ∈ t, isPlain c = true := by
  obtain ⟨m, b, n, rfl, hm, hb, hn⟩ := h
  simp only [List.mem_append]
  rintro c (hc | hc | hc)
  · exact isPlain_of_isWordChar (hm.isWordChar hfirst c hc)
  · exact isPlain_of_isBlank (hb.2 c hc)
  · exact isPlain_of_isWordChar (hn.isWordChar hsecond c hc)

/-- The pieces of two words that are in no mark. -/
theorem IsPair.exists_pieces {first second : Text} (hfirst : isName first = true ∧ Unmarked first)
    (hsecond : isName second = true ∧ Unmarked second) (h : IsPair first second n) (ht : beginsInWord t = false) :
    ∃ l, IsFiller l ∧ pieces (n ++ t) = l ++ pieces t := by
  obtain ⟨m, b, k, rfl, hm, ⟨hne, hb⟩, hk⟩ := h
  have hbegin : beginsInWord (b ++ (k ++ t)) = false := beginsInWord_blanks_append ⟨hne, hb⟩ _
  refine ⟨[m] ++ (pieces b ++ [k]), (IsFiller.of_spelled hfirst.2 hm).append_right
    ((inert_blanks hb).append (inert_spelled hsecond.2 hk)), ?_⟩
  rw [List.append_assoc, List.append_assoc, pieces_spelled_append hfirst.1 hm hbegin, pieces_blanks_append hb,
    pieces_spelled_append hsecond.1 hk ht]
  simp

end

/-! ## Plain matches -/

theorem mem_of_not_isPlain {c : Char} (h : ¬ isPlain c = true) : c ∈ ['\'', '"', '-', '/', '*'] := by
  simpa [isPlain, imp_iff_not_or, or_assoc] using h

theorem Pattern.isPlain_of_takes {p : Pattern}
    (hsets : ∀ s ∈ p.charSets, ∀ c ∈ ['\'', '"', '-', '/', '*'], s.contains c = false) {u w v : Text} {g g' : Groups}
    (h : Takes p u w v g g') : ∀ c ∈ w, isPlain c = true :=
  h.forall_mem fun s hs c hc => by
    by_contra hnot
    rw [hsets s hs c (mem_of_not_isPlain hnot)] at hc
    exact absurd hc (by decide)

section
variable {S : List Text} {names : List String} {t y : Text}

theorem SanePart.exists_trim (h : SanePart S names t) : SanePart S names (Text.trim t) ∧
    ∃ b e, Inert b ∧ Inert e ∧ codePieces t = b ++ (codePieces (Text.trim t) ++ e) := by
  have hpiece : Piece S t := ⟨h.clean, h.live⟩
  obtain ⟨b, e, hb, he, hpieces⟩ := hpiece.exists_codePieces_trim
  refine ⟨⟨⟨hpiece.trim.1, fun p hp => h.spares p ?_⟩, hpiece.trim.2⟩, b, e, hb, he, hpieces⟩
  change p ∈ codePieces t
  rw [hpieces]
  exact List.mem_append_right _ (List.mem_append_left _ hp)

/-- The words `ORDER BY` at the front of a list, which are taken off with the white space behind them. -/
theorem exists_orderByHead {m : Match} (h : orderByHead.find? t = some m) :
    ∃ p c v, t = p ++ (c ++ v) ∧ IsPair "ORDER".toList "BY".toList p ∧ (c ≠ [] ∧ ∀ d ∈ c, Unicode.isBlank d = true) ∧
      orderByHead.replaceFirstBy (fun _ => []) t = v := by
  obtain ⟨u, x, rfl, hat⟩ := exists_of_find? h
  obtain ⟨w, v, rfl, hfirst, hlast, hw⟩ := matchAt?_eq_some hat
  obtain ⟨w, c, rfl, hw, hc⟩ := matches_seq.1 (show Matches orderByHead u w v from ⟨_, _, hw⟩)
  obtain ⟨w, k, rfl, hw, hk⟩ := matches_seq.1 hw
  obtain ⟨w, b, rfl, hw, hb⟩ := matches_seq.1 hw
  obtain ⟨e, n, rfl, he, hn⟩ := matches_seq.1 hw
  obtain ⟨rfl, rfl⟩ := matches_textStart.1 he
  refine ⟨n ++ (b ++ k), c, v, by simp, ⟨n, b, k, rfl, matches_word.1 hn, matches_blanks1.1 hb, matches_word.1 hk⟩,
    matches_blanks1.1 hc, ?_⟩
  rw [replaceFirstBy, h]
  have hnone := upTo_between [] [] ([] ++ n ++ b ++ k ++ c ++ v)
  change (Cursor.atStart _).upTo m.first ++ [] ++ m.last.right = v
  rw [hfirst, hlast]
  exact congrArg (· ++ [] ++ v) hnone

/-- Two words and the white space behind them are plain. -/
theorem isPlain_pair_append {first second p c : Text} (hfirst : isName first = true) (hsecond : isName second = true)
    (hp : IsPair first second p) (hc : ∀ d ∈ c, Unicode.isBlank d = true) : ∀ d ∈ p ++ c, isPlain d = true := fun d hd =>
  (List.mem_append.1 hd).elim (hp.isPlain hfirst hsecond d) fun hd => isPlain_of_isBlank (hc d hd)

/-- The words `ORDER BY` are taken off the front of a list. -/
theorem SanePart.exists_order (h : SanePart S names t) :
    SanePart S names (orderByHead.replaceFirstBy (fun _ => []) t) ∧
      ∃ l, Inert l ∧ codePieces t = l ++ codePieces (orderByHead.replaceFirstBy (fun _ => []) t) := by
  cases hfind : orderByHead.find? t with
  | none =>
    rw [replaceFirstBy, hfind]
    exact ⟨h, [], by simp [Inert], rfl⟩
  | some m =>
    obtain ⟨p, c, v, rfl, hpair, ⟨hne, hc⟩, hright⟩ := exists_orderByHead hfind
    -- the words are plain, and white space ends them
    have hplain := isPlain_pair_append (by decide) (by decide) hpair hc
    have hfront : Front (p ++ c) := ⟨after_of_all_isPlain rfl hplain (by simp [hne]), endsInWord_blanks hne hc _⟩
    obtain ⟨l, hl, hpieces⟩ := hpair.exists_pieces (by decide) (by decide) (beginsInWord_of_blanks hc)
    rw [hright]
    rw [← List.append_assoc] at h ⊢
    refine ⟨⟨h.toSane.right (hfront.splits v), ?_⟩, l ++ pieces c, ?_, ?_⟩
    · have hlive := h.live
      rwa [after_append, hfront.code] at hlive
    · exact Inert.append hl.spared (inert_blanks hc)
    · rw [(hfront.splits v).codePieces_eq, codePieces, mask_of_all_isPlain hplain, hpieces]

/-- The words at the head of the clause behind a call. -/
theorem exists_groupHead {u w v : Text} (h : Matches withinGroupHead u w v) :
    ∃ a, u = [] ∧ w = a ++ ['('] ∧ IsFiller (pieces a) := by
  obtain ⟨w, p, rfl, hw, hp⟩ := matches_seq.1 h
  obtain rfl := matches_sym.1 hp
  obtain ⟨w, b', rfl, hw, hb'⟩ := matches_seq.1 hw
  obtain ⟨w, k, rfl, hw, hk⟩ := matches_seq.1 hw
  obtain ⟨w, b, rfl, hw, hb⟩ := matches_seq.1 hw
  obtain ⟨w, n, rfl, hw, hn⟩ := matches_seq.1 hw
  obtain ⟨e, b₀, rfl, he, hb₀⟩ := matches_seq.1 hw
  obtain ⟨rfl, rfl⟩ := matches_textStart.1 he
  have hb₀ := matches_many_one.1 hb₀
  have hb' := matches_many_one.1 hb'
  have hpair : IsPair "WITHIN".toList "GROUP".toList (n ++ (b ++ k)) :=
    ⟨n, b, k, rfl, matches_word.1 hn, matches_blanks1.1 hb, matches_word.1 hk⟩
  obtain ⟨l, hl, hpieces⟩ := hpair.exists_pieces (by decide) (by decide) (beginsInWord_of_blanks hb')
  have hsplit : [] ++ b₀ ++ n ++ b ++ k ++ b' = b₀ ++ (n ++ (b ++ k) ++ b') := by simp
  refine ⟨[] ++ b₀ ++ n ++ b ++ k ++ b', rfl, rfl, ?_⟩
  rw [hsplit, pieces_blanks_append hb₀, hpieces]
  exact (hl.append_right (inert_blanks hb')).append_left (inert_blanks hb₀)

/-- A text cut at the clause that stands at its head: `a` is the words of the clause. -/
structure GroupCut (y order : Text) (n : Nat) (a inside z : Text) : Prop where
  split : y = a ++ '(' :: (inside ++ ')' :: z)
  found : ∃ head, withinGroupHead.find? (mask y) = some head ∧ head.stop = Text.width a + 1
  shut : matchingParen? (mask y) (Text.width a) = some (Text.width (a ++ '(' :: inside))
  head : IsFiller (codePieces a)
  live : (code.after a).live = true
  closed : (code.after inside).live = true
  order_eq : order = Text.trim (orderByHead.replaceFirstBy (fun _ => []) (Text.trim inside))
  width_eq : n = Text.width (a ++ '(' :: (inside ++ [')']))

theorem exists_groupCut {order : Text} {n : Nat} (h : withinGroup? y = some (some (order, n))) :
    ∃ a inside z, GroupCut y order n a inside z := by
  have hopen : '('.utf8Size = 1 := by decide
  have hclose : ')'.utf8Size = 1 := by decide
  rw [withinGroup?] at h
  split at h
  · cases h
  rename_i head hhead
  split at h
  · cases h
  rename_i closing hclosing
  -- the parentheses
  obtain ⟨u, x, hmask, hat⟩ := exists_of_find? hhead
  obtain ⟨w, v, rfl, -, hlast, hw⟩ := matchAt?_eq_some hat
  obtain ⟨a, rfl, rfl, hfiller⟩ := exists_groupHead ⟨_, _, hw⟩
  have hstop : head.stop = Text.width a + 1 := by simp [Match.stop, hlast, hopen]
  have hmask : mask y = a ++ '(' :: v := by rw [hmask]; simp
  have hshut := hclosing
  rw [hmask, hstop, Nat.add_sub_cancel] at hclosing
  obtain ⟨i, e, rfl, rfl, -⟩ := exists_nest_of_matchingParen? hclosing
  obtain ⟨k, r, rfl, rfl, hr, hjk⟩ := exists_of_mask_eq (by decide) hmask
  obtain ⟨inside, z, rfl, rfl, -, hji⟩ := exists_of_mask_eq (by decide) hr
  have hinner : Text.slice? (k ++ '(' :: (inside ++ ')' :: z)) head.stop
      (Text.width (mask k ++ '(' :: mask inside)) = some inside := by
    have hslice := Text.slice?_append (k ++ ['(']) inside (')' :: z)
    have hstart : head.stop = Text.width (k ++ ['(']) := by simp [hstop, hopen, width_mask]
    have hend : Text.width (mask k ++ '(' :: mask inside) = Text.width (k ++ ['(']) + Text.width inside := by
      simp [width_mask, hopen, Nat.add_assoc]
    rw [hstart, hend]
    simpa using hslice
  rw [hinner] at h
  obtain ⟨rfl, rfl⟩ := Prod.mk.inj (Option.some.inj (Option.some.inj h))
  have hshut : matchingParen? (mask (k ++ '(' :: (inside ++ ')' :: z))) (Text.width k) =
      some (Text.width (k ++ '(' :: inside)) := by
    rw [hstop, Nat.add_sub_cancel, width_mask] at hshut
    rw [hshut]
    simp [width_mask]
  refine ⟨k, inside, z, rfl, ⟨head, hhead, by rw [hstop, width_mask]⟩, hshut, hfiller, live_of_joins hjk (by decide), live_of_joins hji (by decide), rfl, ?_⟩
  simp [width_mask, hopen, hclose]
  omega

/-- The clause behind a call is sewn of its list. -/
theorem Sane.exists_withinGroup (h : Sane S names y) {order : Text} {n : Nat}
    (hclause : withinGroup? y = some (some (order, n))) :
    SanePart S names order ∧ ∃ k z, y = k ++ z ∧ Text.width k = n ∧ Front k ∧
      Sewn IsFiller [codePieces order] (codePieces k) := by
  obtain ⟨a, inside, z, rfl, -, -, hhead, hlive, hclosed, rfl, rfl⟩ := exists_groupCut hclause
  have houter : ∀ t, Splits a ('(' :: t) := fun t =>
    ⟨joins_of_live hlive (by decide), .of_begins (by rw [beginsInWord_mask]; rfl) _⟩
  have hopened : Splits ['('] (inside ++ ')' :: z) := (Front.mk rfl rfl).splits _
  have hinner : ∀ t, Splits inside (')' :: t) := fun t => (Behind.of_close t).splits hclosed
  -- the list is the text between the parentheses, less what is at its ends
  have hinside : SanePart S names inside := ⟨((h.right (houter _)).right hopened).left (hinner z), hclosed⟩
  obtain ⟨htrim, b, e, hb, he, hpieces⟩ := hinside.exists_trim
  obtain ⟨horder, l, hl, hpieces'⟩ := htrim.exists_order
  obtain ⟨htrim', b', e', hb', he', hpieces''⟩ := horder.exists_trim
  refine ⟨htrim', a ++ '(' :: (inside ++ [')']), z, by simp, rfl, ?_, ?_⟩
  · have hcode : (code.after (a ++ '(' :: inside)).live = true := by
      rw [after_append, after_cons, step_of_joins (joins_of_live hlive (t := []) (by decide))]
      exact hclosed
    have hfront := Front.of_plain (u := [')']) hcode (by decide) (by simp) (by decide)
    simpa using hfront
  · have hfront : IsFiller (codePieces a ++ ([['(']] ++ (b ++ (l ++ b')))) :=
      hhead.append_right ((show Inert [['(']] by decide).append (hb.append (hl.append hb')))
    have hend : IsFiller (e' ++ (e ++ [[')']])) :=
      IsFiller.append_left (IsFiller.append_left ⟨by decide, by decide⟩ he) he'
    have hsewn := Sewn.part (p := codePieces (Text.trim (orderByHead.replaceFirstBy (fun _ => []) (Text.trim inside))))
      hfront (.last hend)
    rw [(houter _).codePieces_eq, codePieces_cons (by decide) (by decide), (hinner []).codePieces_eq,
      codePieces_cons (by decide) (by decide), codePieces_nil, hpieces, hpieces', hpieces'']
    simpa only [List.append_assoc, List.cons_append, List.nil_append] using hsewn

/-! ## The skeleton -/

namespace ToTsql

/-- What stands behind `DISTINCT`. -/
theorem exists_distinctValue {expr : Text} {m : Match} (h : distinctArgument.find? expr = some m) :
    ∃ n b, expr = n ++ (b ++ m.groupD 1) ∧ Spelled "DISTINCT".toList n ∧
      (b ≠ [] ∧ ∀ c ∈ b, Unicode.isBlank c = true) ∧ m.groupD 1 ≠ [] := by
  obtain ⟨u, x, rfl, hat⟩ := exists_of_find? h
  obtain ⟨w, v, rfl, -, -, hw⟩ := matchAt?_eq_some hat
  obtain ⟨w, e, g₁, rfl, hw, he⟩ := hw
  obtain ⟨w, r, g₂, rfl, hw, g₃, hr, rfl⟩ := hw
  obtain ⟨w, b, g₄, rfl, hw, hb⟩ := hw
  obtain ⟨s, n, g₅, rfl, hs, hn⟩ := hw
  obtain ⟨rfl, rfl⟩ := matches_textStart.1 ⟨_, _, hs⟩
  obtain ⟨rfl, rfl⟩ := matches_textEnd.1 ⟨_, _, he⟩
  have hgroup : m.groupD 1 = r := Match.groupD_eq (by decide) (by rw [he.groups_eq rfl]; rfl)
  obtain ⟨hne, -⟩ := matches_many1_one.1 ⟨_, _, hr⟩
  exact ⟨n, b, by simp [hgroup], (takes_word hn).1, (takes_blanks1 hb).1, by rwa [hgroup]⟩

theorem sanePart_distinctValue {expr : Text} {m : Match} (h : SanePart S names expr)
    (hm : distinctArgument.find? expr = some m) : SanePart S names (Text.trim (m.groupD 1)) := by
  obtain ⟨n, b, rfl, hn, ⟨hne, hb⟩, -⟩ := exists_distinctValue hm
  have hplain : ∀ c ∈ n ++ b, isPlain c = true := fun c hc => (List.mem_append.1 hc).elim
    (fun hc => isPlain_of_isWordChar (hn.isWordChar (by decide) c hc)) fun hc => isPlain_of_isBlank (hb c hc)
  have hfront : Front (n ++ b) :=
    ⟨after_of_all_isPlain rfl hplain (by simp [hne]), endsInWord_blanks hne hb _⟩
  rw [← List.append_assoc] at h
  have hlive := h.live
  rw [after_append, hfront.code] at hlive
  exact (SanePart.exists_trim ⟨h.toSane.right (hfront.splits _), hlive⟩).1

/-- A name in parts has nothing but plain characters. -/
theorem isPlain_of_isIdentifierPath {value : Text} (h : isIdentifierPath value = true) :
    ∀ c ∈ value, isPlain c = true := by
  obtain ⟨m, hm⟩ := Option.isSome_iff_exists.1 h
  obtain ⟨u, x, rfl, hat⟩ := exists_of_find? hm
  obtain ⟨w, v, rfl, -, -, hw⟩ := matchAt?_eq_some hat
  have hsets : ∀ s ∈ identifierPath.charSets, ∀ c ∈ ['\'', '"', '-', '/', '*'], s.contains c = false := by
    decide
  have hplain := isPlain_of_takes hsets hw
  obtain ⟨w, e, rfl, hw, he⟩ := matches_seq.1 (show Matches identifierPath u w v from ⟨_, _, hw⟩)
  obtain ⟨rfl, rfl⟩ := matches_textEnd.1 he
  obtain ⟨w, r, rfl, hw, -⟩ := matches_seq.1 hw
  obtain ⟨s, i, rfl, hs, -⟩ := matches_seq.1 hw
  obtain ⟨rfl, rfl⟩ := matches_textStart.1 hs
  simpa using hplain

theorem exists_splitOn_eq (p : Char → Bool) (t : Text) : ∃ l c, Text.splitOn p t = l ++ [c] ∧
    ((l = [] ∧ t = c) ∨ (l ≠ [] ∧ ∃ a d, p d = true ∧ t = a ++ d :: c)) := by
  induction t with
  | nil => exact ⟨[], [], rfl, .inl ⟨rfl, rfl⟩⟩
  | cons e t ih =>
    obtain ⟨l, c, hsplit, h⟩ := ih
    by_cases he : p e = true
    · refine ⟨[] :: l, c, by simp [Text.splitOn, he, hsplit], .inr ⟨by simp, ?_⟩⟩
      rcases h with ⟨-, rfl⟩ | ⟨-, a, d, hd, rfl⟩
      · exact ⟨[], e, he, rfl⟩
      · exact ⟨e :: a, d, hd, rfl⟩
    · rcases h with ⟨rfl, rfl⟩ | ⟨hl, a, d, hd, rfl⟩
      · exact ⟨[], e :: t, by simp [Text.splitOn, he, hsplit, Text.consFirst], .inl ⟨rfl, rfl⟩⟩
      · obtain ⟨q, l, rfl⟩ := List.exists_cons_of_ne_nil hl
        exact ⟨(e :: q) :: l, c, by simp [Text.splitOn, he, hsplit, Text.consFirst], .inr ⟨by simp, e :: a, d, hd, rfl⟩⟩

/-- The column of a skeleton is a part of the value, or made up. -/
theorem sanePart_skeletonColumn {value : Text} (h : SanePart S names value) (hval : Spares names "val".toList) :
    SanePart S names (skeletonColumn value) := by
  have hmade : SanePart S names "val".toList := ⟨sane_of_isPlain (by decide) hval, by decide⟩
  rw [skeletonColumn]
  split_ifs with hpath
  · have hplain := isPlain_of_isIdentifierPath hpath
    obtain ⟨l, c, hsplit, hcases⟩ := exists_splitOn_eq (· == '.') value
    have hlast : ((Text.splitOn (· == '.') value).getLast?).getD "val".toList = c := by simp [hsplit]
    rw [hlast]
    rcases hcases with ⟨-, rfl⟩ | ⟨-, a, d, hd, rfl⟩
    · exact h
    · obtain rfl : d = '.' := by simpa using hd
      have hfront : Front (a ++ ['.']) :=
        ⟨after_of_all_isPlain rfl (fun e he => hplain e (by rw [List.mem_append] at he ⊢; exact he.imp_right (by simp_all)))
          (by simp), by rw [endsInWord_append (by simp)]; rfl⟩
      rw [← List.singleton_append, ← List.append_assoc] at h
      have hlive := h.live
      rw [after_append, hfront.code] at hlive
      exact ⟨h.toSane.right (hfront.splits c), hlive⟩
  · exact hmade

end ToTsql

end

end DialectBridge
