import DialectBridge.Proofs.Commentless
import DialectBridge.Proofs.SaneRules
import DialectBridge.Proofs.TypePatterns
/-!
# The parts of a `CAST`

The rule for casts looks for `AS` and the type in the raw text of an argument, so it may find them in a
literal. A type that it rewrites gives way to plain text; the lexer reads what follows as before, in code
and in a literal (`SanePart.exchange`).
-/
namespace DialectBridge
open Pattern Cursor LexState

section
variable {S : List Text} {names : List String} {q : Quote} {u v o n p e x b : Text}

/-- Plain text keeps the lexer in a literal. -/
theorem after_quoted_of_isPlain (hx : ∀ c ∈ x, isPlain c = true) :
    (quoted q).after x = quoted q ∧ Quiet (quoted q) x := by
  induction x with
  | nil => exact ⟨rfl, quiet_nil.2 rfl⟩
  | cons c x ih =>
    have hstep : (quoted q).step c = quoted q := if_neg (ne_quote_of_isPlain (hx c (by simp)) q)
    rw [after_cons, quiet_cons, hstep]
    obtain ⟨hafter, hquiet⟩ := ih fun d hd => hx d (by simp [hd])
    exact ⟨hafter, rfl, hquiet⟩

theorem pieces_around_blanks (hb : ∀ c ∈ b, Unicode.isBlank c = true) (hne : b ≠ []) (u v : Text) :
    pieces (u ++ (b ++ v)) = pieces u ++ (pieces b ++ pieces v) := by
  have hbegins : beginsInWord (b ++ v) = false := by
    rw [beginsInWord_append hne]
    exact beginsInWord_of_blanks hb
  rw [pieces_append (.of_begins hbegins u), pieces_blanks_append hb]

theorem mem_pieces_spaces {k : Nat} (hk : 0 < k) {w : Text} : w ∈ pieces (Text.spaces k) ↔ w = [' '] := by
  rw [pieces_blanks isBlank_of_mem_spaces, Text.spaces, List.map_replicate, List.mem_replicate]
  exact and_iff_right (Nat.ne_of_gt hk)

/-- In the mask of a literal the plain texts are blanks. -/
theorem exists_maskFrom_quoted (hv : code.after v = quoted q) : ∃ m, ∀ o p, (∀ c ∈ o, isPlain c = true) → o ≠ [] →
    mask (v ++ (o ++ p)) = m ++ (Text.spaces (Text.width o) ++ maskFrom (quoted q) p) := by
  obtain ⟨m, hm, -⟩ := exists_maskFrom_append (s := code) (a := v) (by rw [hv]; rfl)
  refine ⟨m, fun o p ho hne => ?_⟩
  have hdull : ∀ c ∈ o, isDull (quoted q) c = true := fun c hc => by simp [isDull, ho c hc]
  rw [← maskFrom_code, hm _ (by simp [hne]), hv, maskFrom_dull_append rfl hdull hne]
  rfl

/-- White space at the end of a text without comments is read in code if what follows it is. -/
theorem live_of_quiet_blanks {s : LexState} (hquiet : Quiet s p) (he : ∀ c ∈ e, Unicode.isBlank c = true)
    (hlive : ((s.after p).after e).live = true) : (s.after p).live = true := by
  by_contra hnot
  rw [Bool.not_eq_true] at hnot
  rw [live_after_dull hnot] at hlive
  · exact absurd hlive (by simp)
  · have hline : s.after p ≠ line := fun h => absurd hquiet.after (by simp [h, LexState.isComment])
    exact fun c hc => by simp [isDull, isPlain_of_isBlank (he c hc), hline]

/-- What is exchanged for what: plain texts, each behind a blank. -/
structure Swap (names : List String) (o n : Text) : Prop where
  plain : ∀ c ∈ o ++ n, isPlain c = true
  ne_nil : o ≠ [] ∧ n ≠ []
  blank : beginsInWord o = false ∧ beginsInWord n = false
  spares : Spares names n

theorem Swap.exchange_code (hswap : Swap names o n) (h : SanePart S names (v ++ (o ++ (p ++ e))))
    (hv : (code.after v).live = true) (hp : beginsInWord p = false) (he : ∀ c ∈ e, Unicode.isBlank c = true) :
    SanePart S names (v ++ (n ++ p)) := by
  have hplain : ∀ x, x = o ∨ x = n → (∀ c ∈ x, isPlain c = true) ∧ x ≠ [] ∧ beginsInWord x = false := by
    rintro x (rfl | rfl)
    · exact ⟨fun c hc => hswap.plain c (by simp [hc]), hswap.ne_nil.1, hswap.blank.1⟩
    · exact ⟨fun c hc => hswap.plain c (by simp [hc]), hswap.ne_nil.2, hswap.blank.2⟩
  have houter : ∀ x y, x = o ∨ x = n → Splits v (x ++ y) ∧ code.after x = code := by
    intro x y hx
    obtain ⟨hx, hne, hbegin⟩ := hplain x hx
    exact ⟨⟨mask_cut hv hx hne, .of_begins (by rwa [beginsInWord_mask, beginsInWord_append hne]) _⟩,
      after_of_all_isPlain rfl hx hne⟩
  have hpe : beginsInWord (p ++ e) = false := by
    by_cases hnil : p = []
    · rw [hnil]
      exact beginsInWord_of_blanks he
    · rwa [beginsInWord_append hnil]
  have hrest := h.toSane.right (houter o _ (.inl rfl)).1
  have hrest := hrest.right ⟨by rw [(houter o [] (.inl rfl)).2]; exact joins_code _, .of_begins (by rwa [beginsInWord_mask]) _⟩
  have hlive := h.live
  simp only [after_append] at hlive
  rw [after_of_all_isPlain hv (hplain o (.inl rfl)).1 hswap.ne_nil.1] at hlive
  have hlive := live_of_plain (hrest.clean.unlined p (List.prefix_append p e)) (fun c hc => isPlain_of_isBlank (he c hc))
    (by rwa [after_append])
  have hp' := hrest.left ⟨joins_of_head?_isPlain hlive fun c hc => isPlain_of_isBlank (he c (List.mem_of_head? hc)),
    .of_begins (by rw [beginsInWord_mask, beginsInWord_of_blanks he]) _⟩
  have hn : Sane S names n := sane_of_isPlain (hplain n (.inr rfl)).1 hswap.spares
  have hnew := hn.append hp' ⟨by rw [(houter n [] (.inr rfl)).2]; exact joins_code _, .of_begins (by rwa [beginsInWord_mask]) _⟩
  refine ⟨(h.toSane.left (houter o _ (.inl rfl)).1).append hnew (houter n p (.inr rfl)).1, ?_⟩
  rw [after_append, after_append, after_of_all_isPlain hv (hplain n (.inr rfl)).1 hswap.ne_nil.2]
  exact hlive

theorem Swap.exchange_quoted (hswap : Swap names o n) (h : SanePart [] names (v ++ (o ++ (p ++ e))))
    (hv : code.after v = quoted q) (he : ∀ c ∈ e, Unicode.isBlank c = true) : SanePart [] names (v ++ (n ++ p)) := by
  obtain ⟨hquiet, hold⟩ := sane_nil_iff.1 h.toSane
  obtain ⟨ho, hoq⟩ := after_quoted_of_isPlain (q := q) fun c hc => hswap.plain c (List.mem_append_left n hc)
  obtain ⟨hn, hnq⟩ := after_quoted_of_isPlain (q := q) fun c hc => hswap.plain c (List.mem_append_right o hc)
  have hlive := h.live
  simp only [after_append, hv, ho] at hlive
  rw [quiet_append, quiet_append, quiet_append, hv, ho] at hquiet
  obtain ⟨hvq, -, hpq, -⟩ := hquiet
  have hlive := live_of_quiet_blanks hpq he hlive
  have hquiet : Quiet code (v ++ (n ++ p)) := by
    rw [quiet_append, quiet_append, hv, hn]
    exact ⟨hvq, hnq, hpq⟩
  refine ⟨sane_nil_iff.2 ⟨hquiet, fun w hw => ?_⟩, by rwa [after_append, after_append, hv, hn]⟩
  obtain ⟨m, hm⟩ := exists_maskFrom_quoted hv
  have hjoins : ((quoted q).after p).joins e = true :=
    joins_of_head?_isPlain hlive fun c hc => isPlain_of_isBlank (he c (List.mem_of_head? hc))
  have hspaces : ∀ {x : Text}, x ≠ [] → Text.spaces (Text.width x) ≠ [] := fun hx => by
    simpa [Text.spaces] using Nat.ne_of_gt (Text.width_pos hx)
  rw [hm n p (fun c hc => hswap.plain c (List.mem_append_right o hc)) hswap.ne_nil.2,
    pieces_around_blanks isBlank_of_mem_spaces (hspaces hswap.ne_nil.2)] at hw
  refine hold w ?_
  rw [hm o (p ++ e) (fun c hc => hswap.plain c (List.mem_append_left n hc)) hswap.ne_nil.1,
    pieces_around_blanks isBlank_of_mem_spaces (hspaces hswap.ne_nil.1), maskFrom_append hjoins,
    pieces_append (.of_begins (by rw [maskFrom_code, beginsInWord_mask, beginsInWord_of_blanks he]) _)]
  simp only [List.mem_append, mem_pieces_spaces (Text.width_pos hswap.ne_nil.1),
    mem_pieces_spaces (Text.width_pos hswap.ne_nil.2)] at hw ⊢
  tauto

/-- A plain text behind `v` gives way to another one, and blanks at the end are left out. -/
theorem Swap.exchange (hswap : Swap names o n) (h : SanePart [] names (v ++ (o ++ (p ++ e))))
    (hp : beginsInWord p = false) (he : ∀ c ∈ e, Unicode.isBlank c = true) : SanePart [] names (v ++ (n ++ p)) := by
  have hquiet := (quiet_append.1 (sane_nil_iff.1 h.toSane).1).1.after
  cases hs : code.after v with
  | quoted q => exact hswap.exchange_quoted h hs he
  | code | minus | slash | closed q => exact hswap.exchange_code h (by rw [hs]; rfl) hp he
  | line | block | star => exact absurd hquiet (by rw [hs]; decide)

end

/-! ## Types -/

namespace DataType

/-- A cast in its parts. -/
theorem exists_castTarget {arg : Text} {m : Match} (h : castTarget.find? arg = some m) : ∃ b a b',
    arg = m.groupD 1 ++ (b ++ (a ++ (b' ++ m.groupD 2))) ∧ (b ≠ [] ∧ ∀ c ∈ b, Unicode.isBlank c = true) ∧
      Spelled "AS".toList a ∧ (b' ≠ [] ∧ ∀ c ∈ b', Unicode.isBlank c = true) := by
  obtain ⟨u, x, rfl, hat⟩ := exists_of_find? h
  obtain ⟨w, v, rfl, -, -, hw⟩ := matchAt?_eq_some hat
  obtain ⟨w, e, g₁, rfl, hw, he⟩ := hw
  obtain ⟨w, t, g₂, rfl, hw, g₃, ht, rfl⟩ := hw
  obtain ⟨w, b', g₄, rfl, hw, hb'⟩ := hw
  obtain ⟨w, a, g₅, rfl, hw, ha⟩ := hw
  obtain ⟨w, b, g₆, rfl, hw, hb⟩ := hw
  obtain ⟨s, r, g₇, rfl, hs, g₈, hr, rfl⟩ := hw
  obtain ⟨rfl, rfl⟩ := matches_textStart.1 ⟨_, _, hs⟩
  obtain ⟨rfl, rfl⟩ := matches_textEnd.1 ⟨_, _, he⟩
  have hgroups := he.groups_eq rfl
  rw [ht.groups_eq rfl, hb'.groups_eq rfl, ha.groups_eq rfl, hb.groups_eq rfl] at hgroups
  have hvalue : m.groupD 1 = r := Match.groupD_eq (by decide) (by rw [hgroups]; rfl)
  have htype : m.groupD 2 = t := Match.groupD_eq (by decide) (by rw [hgroups]; rfl)
  exact ⟨b, a, b', by simp [hvalue, htype], (takes_blanks1 hb).1, (takes_word ha).1, (takes_blanks1 hb').1⟩

/-- What stands behind a value gives way to one `AS` and to another type. -/
theorem swap_castLink {names : List String} {b a b' t k : Text} (hb : b ≠ [] ∧ ∀ c ∈ b, Unicode.isBlank c = true)
    (ha : Spelled "AS".toList a) (hb' : ∀ c ∈ b', Unicode.isBlank c = true) (ht : ∀ c ∈ t, isPlain c = true)
    (hk : ∀ c ∈ k, isPlain c = true) (hspares : Spares names (" AS ".toList ++ k)) :
    Swap names (b ++ (a ++ (b' ++ t))) (" AS ".toList ++ k) := by
  have has : ∀ c ∈ " AS ".toList, isPlain c = true := by decide
  refine ⟨fun c hc => ?_, by simp [hb.1], ?_, hspares⟩
  · simp only [List.mem_append] at hc
    rcases hc with (hc | hc | hc | hc) | hc | hc
    · exact isPlain_of_isBlank (hb.2 c hc)
    · exact isPlain_of_isWordChar (ha.isWordChar (by decide) c hc)
    · exact isPlain_of_isBlank (hb' c hc)
    · exact ht c hc
    · exact has c hc
    · exact hk c hc
  · rw [beginsInWord_blanks_append hb]
    exact ⟨rfl, rfl⟩

/-- A type of characters, with its length. -/
theorem exists_oracleChar {t : Text} {m : Match} (h : oracleChar.find? t = some m) : (∀ c ∈ t, isPlain c = true) ∧
    (m.groupD 1 = [] ∨ Spelled "N".toList (m.groupD 1)) ∧
      m.groupD 2 ≠ [] ∧ ∀ c ∈ m.groupD 2, CharSet.digit.contains c = true := by
  obtain ⟨⟨-, -, -, -, -, hn, -⟩, ⟨g, g', ht⟩, u, v, hd⟩ := charType_oracleChar.isCharType h
  exact ⟨isPlain_of_takes (by decide) ht, hn, matches_many1_one.1 hd⟩

/-- A number, with its precision as it is written. -/
theorem exists_oracleNumber {t : Text} {m : Match} (h : oracleNumber.find? t = some m) : ∃ n b p,
    t = n ++ (b ++ p) ∧ Spelled "NUMBER".toList n ∧ (∀ c ∈ b, Unicode.isBlank c = true) ∧ IsPrecision p ∧
      Remembers m p := by
  obtain ⟨n, b, p, ht, hn, hb, hp, hm⟩ := exists_of_numberType (groupless_word _) h
  exact ⟨n, b, p, ht, matches_word.1 hn, hb, hp, hm⟩

theorem exists_trim (t : Text) : ∃ b e, t = b ++ (Text.trim t ++ e) ∧ (∀ c ∈ b, Unicode.isBlank c = true) ∧
    ∀ c ∈ e, Unicode.isBlank c = true := by
  obtain ⟨b, hb, hblank, -⟩ := exists_trimStart t
  obtain ⟨e, he, hblank'⟩ := Text.exists_eq_dropTrailing_append Unicode.isBlank (Text.trimStart t)
  change Text.trimStart t = Text.trim t ++ e at he
  exact ⟨b, e, by rw [← he, ← hb], hblank, hblank'⟩

/-- A type of characters is no word for tables and row limits. -/
theorem spares_charType {n d : Text} (hn : n = [] ∨ Spelled "N".toList n)
    (hd : d ≠ [] ∧ ∀ c ∈ d, CharSet.digit.contains c = true) :
    (∀ c ∈ n ++ "VARCHAR(".toList ++ d ++ ")".toList, isPlain c = true) ∧
      Spares limitWords (n ++ "VARCHAR(".toList ++ d ++ ")".toList) := by
  have hword : ∀ c ∈ n ++ "VARCHAR".toList, Unicode.isWordChar c = true := fun c hc => by
    have hvarchar : ∀ c ∈ "VARCHAR".toList, Unicode.isWordChar c = true := by decide
    rcases List.mem_append.1 hc with hc | hc
    · rcases hn with rfl | hn
      · simp at hc
      · exact hn.isWordChar (by decide) c hc
    · exact hvarchar c hc
  have hdigit : ∀ c ∈ d, Unicode.isWordChar c = true := fun c hc => isWordChar_of_isDigit (hd.2 c hc)
  have hsplit : n ++ "VARCHAR(".toList ++ d ++ ")".toList = n ++ "VARCHAR".toList ++ '(' :: (d ++ [')']) := by simp
  have hpieces : pieces (n ++ "VARCHAR".toList ++ '(' :: (d ++ [')'])) = [n ++ "VARCHAR".toList, ['('], d, [')']] := by
    rw [pieces_append (.of_begins rfl _), pieces_word (by simp) hword, pieces_cons_of_not_word (by decide),
      pieces_append (.of_begins rfl d), pieces_word hd.1 hdigit]
    rfl
  rw [hsplit]
  refine ⟨fun c hc => ?_, fun p hp name hname hspelled => ?_⟩
  · have hsymbol : isPlain '(' = true ∧ isPlain ')' = true := by decide
    rcases List.mem_append.1 hc with hc | hc
    · exact isPlain_of_isWordChar (hword c hc)
    rcases List.mem_cons.1 hc with rfl | hc
    · exact hsymbol.1
    rcases List.mem_append.1 hc with hc | hc
    · exact isPlain_of_isWordChar (hdigit c hc)
    · exact List.mem_singleton.1 hc ▸ hsymbol.2
  · have hlengths : ∀ name ∈ limitWords, 1 < name.toList.length ∧ name.toList.length < 7 := by decide
    have hletters : ∀ name ∈ limitWords, ∀ l ∈ name.toList, ∀ c ∈ Unicode.caseVariants l, CharSet.digit.contains c = false := by
      decide
    have hlength := List.Forall₂.length_eq hspelled
    have := hlengths name hname
    rw [hpieces] at hp
    simp only [List.mem_cons, List.not_mem_nil, or_false] at hp
    rcases hp with rfl | rfl | rfl | rfl
    · have hvarchar : "VARCHAR".toList.length = 7 := rfl
      rw [List.length_append, hvarchar] at hlength
      omega
    · simp only [List.length_singleton] at hlength
      omega
    · obtain ⟨l, hl, c, hc, hlc⟩ : ∃ l ∈ name.toList, ∃ c ∈ p, c ∈ Unicode.caseVariants l := by
        obtain ⟨c, d, rfl⟩ := List.exists_cons_of_ne_nil hd.1
        obtain ⟨l, name', hl, -, hsplit⟩ := List.forall₂_cons_right_iff.1 hspelled
        exact ⟨l, by simp [hsplit], c, by simp, hl⟩
      have := hletters name hname l hl c hlc
      rw [hd.2 c hc] at this
      exact absurd this (by decide)
    · simp only [List.length_singleton] at hlength
      omega

/-- The spelling of a type: plain text gives way to plain text in front of what is kept. -/
theorem exists_toTsql? {type new : Text} (h : toTsql? type = some new) : ∃ t p e k,
    type = t ++ (p ++ e) ∧ new = k ++ p ∧ (∀ c ∈ t, isPlain c = true) ∧ (∀ c ∈ k, isPlain c = true) ∧
      Spares limitWords k ∧ beginsInWord p = false ∧ ∀ c ∈ e, Unicode.isBlank c = true := by
  obtain ⟨b, e, hsplit, hb, he⟩ := exists_trim type
  have hplain : (∀ c ∈ Text.trim type, isPlain c = true) → ∀ c ∈ type, isPlain c = true := fun h c hc => by
    rw [hsplit] at hc
    simp only [List.mem_append] at hc
    rcases hc with hc | hc | hc
    · exact isPlain_of_isBlank (hb c hc)
    · exact h c hc
    · exact isPlain_of_isBlank (he c hc)
  unfold toTsql? at h
  cases hchar : oracleChar.find? (Text.trim type) with
  | some m =>
    simp only [hchar] at h
    obtain rfl := Option.some.inj h
    obtain ⟨htype, hn, hd⟩ := exists_oracleChar hchar
    obtain ⟨hk, hspares⟩ := spares_charType hn hd
    exact ⟨type, [], [], _, by simp, by simp, hplain htype, hk, hspares, rfl, by simp⟩
  | none =>
  simp only [hchar] at h
  cases hnumber : oracleNumber.find? (Text.trim type) with
  | some m =>
    simp only [hnumber] at h
    obtain ⟨n, b', p, htype, hn, hb', hp, hgroup⟩ := exists_oracleNumber hnumber
    have hplain' : ∀ c ∈ b ++ n ++ b', isPlain c = true := fun c hc => by
      simp only [List.mem_append] at hc
      rcases hc with (hc | hc) | hc
      · exact isPlain_of_isBlank (hb c hc)
      · exact isPlain_of_isWordChar (hn.isWordChar (by decide) c hc)
      · exact isPlain_of_isBlank (hb' c hc)
    rw [hgroup] at h
    rcases hp with rfl | ⟨x, rfl, -⟩
    · obtain rfl := Option.some.inj h
      exact ⟨_, [], e, "FLOAT".toList, by rw [hsplit, htype]; simp, by simp, hplain', by decide, by decide, rfl, he⟩
    · obtain rfl := Option.some.inj h
      exact ⟨_, _, e, "DECIMAL".toList, by rw [hsplit, htype]; simp, rfl, hplain', by decide, by decide, rfl, he⟩
  | none =>
  simp only [hnumber] at h
  obtain ⟨entry, hentry, rfl⟩ := Option.map_eq_some_iff.1 h
  have hname : entry.1.toList = Text.upper (Text.trim type) := by simpa using List.find?_some hentry
  have hnames : ∀ entry ∈ oracleNames, (∀ c ∈ entry.1.toList, isPlain c = true) ∧ (∀ c ∈ entry.2.toList, isPlain c = true) ∧
      Spares limitWords entry.2.toList := by
    decide
  obtain ⟨hold, hnew, hspares⟩ := hnames entry (List.mem_of_find?_eq_some hentry)
  refine ⟨type, [], [], _, by simp, by simp, hplain fun c hc => ?_, hnew, hspares, rfl, by simp⟩
  have hupper := hold c.toUpper (by rw [hname]; exact List.mem_map.2 ⟨c, hc, rfl⟩)
  by_contra hnot
  have hsame : ∀ c ∈ ['\'', '"', '-', '/', '*'], isPlain c.toUpper = false := by decide
  rw [hsame c (mem_of_not_isPlain hnot)] at hupper
  exact absurd hupper (by decide)

end DataType

namespace ToTsql

theorem keeps_castTypes : Keeps [] limitWords castTypes := by
  refine keeps_rewritten (by decide) fun call raised hparts => ?_
  split
  · rename_i arg hargs
    have harg := hparts arg (by simp [hargs])
    refine leads_pure fun t ht => ?_
    obtain ⟨m, hm, ht⟩ := Option.bind_eq_some_iff.1 ht
    obtain ⟨type, htype, ht⟩ := Option.bind_eq_some_iff.1 ht
    obtain rfl := Option.some.inj ht
    obtain ⟨b, a, b', harg', hb, ha, hb'⟩ := DataType.exists_castTarget hm
    obtain ⟨t, p, e, k, htype', rfl, ht, hk, hspares, hp, he⟩ := DataType.exists_toTsql? htype
    have hswap := DataType.swap_castLink (t := t) (k := k) hb ha hb'.2 ht hk (by
      have has : Spares limitWords " AS " := by decide
      rw [Spares, pieces_append (.of_ends (by decide) k)]
      exact fun w hw => (List.mem_append.1 hw).elim (has w) (hspares w))
    have hpart := hswap.exchange (v := m.groupD 1) (p := p) (e := e) (by rw [harg', htype'] at harg; simpa using harg) hp he
    have hjoints : Joints [] limitWords ["CAST(".toList, ")".toList] := joints_templates _ (by decide)
    obtain ⟨hjoint, -⟩ := isJoint_stitch [m.groupD 1 ++ (" AS ".toList ++ k ++ p)] hjoints rfl (by simpa using hpart)
    simpa [stitch] using hjoint.fits
  · exact leads_none

end ToTsql

end DialectBridge
