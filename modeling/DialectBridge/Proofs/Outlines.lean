import DialectBridge.Proofs.CallComments
import DialectBridge.Proofs.SegmentEdits
/-!
# Queries that differ inside literals

The outline of a query is what is left to see of it when the insides of its literals are hidden. An outline
is put together from the outlines of the parts of a query (`outline_append`), and where it can be cut the
query can be cut (`exists_cut_of_outline`). Two queries have one outline if and only if they have segments of
the same kinds in the same places and differ, if at all, in bytes of literals that are not the first or the
last of their segment (`differInLiterals_iff`).
-/
namespace DialectBridge
open Pattern LexState Segment

def bytes (t : Text) : List UInt8 := t.flatMap String.utf8EncodeChar

/-- Whether two segments are of the same kind and size, and the same but for bytes of a literal that are
neither the first nor the last one. -/
structure Segment.DiffersInside (s s' : Segment) : Prop where
  kind : s.kind = s'.kind
  width : Text.width s.text = Text.width s'.text
  text : s.kind ≠ .literal → s.text = s'.text
  first : (bytes s.text).head? = (bytes s'.text).head?
  last : (bytes s.text).getLast? = (bytes s'.text).getLast?

/-- Whether two queries have segments of the same kinds in the same places, and differ inside literals only. -/
def DifferInLiterals (a b : Text) : Prop := List.Forall₂ Segment.DiffersInside (segments a) (segments b)

/-- What is seen of a piece of a query: a character of code, the quotes of a literal with its size and its
last byte, or another segment. -/
inductive Glimpse where
  | code (c : Char)
  | literal (masked : Text) (last : Option UInt8)
  | other (kind : SegmentKind) (text : Text)
  deriving DecidableEq

def Segment.glimpses (s : Segment) : List Glimpse :=
  match s.kind with
  | .code => s.text.map .code
  | .literal => [.literal s.masked (bytes s.text).getLast?]
  | kind => [.other kind s.text]

/-- What is seen of a query. -/
def outline (t : Text) : List Glimpse := (segments t).flatMap Segment.glimpses

/-! ## Cutting -/

section
variable {a b c t y : Text} {o o' : List Glimpse}

@[simp] theorem outline_nil : outline [] = [] := by simp [outline, segments]

theorem outline_append (h : (code.after a).joins b = true) : outline (a ++ b) = outline a ++ outline b := by
  rw [outline, segments_append h]
  refine flatMap_glue fun x _ y _ hx hy => ?_
  rw [glimpses, glimpses, glimpses, hx, hy]
  exact List.map_append

theorem glimpses_of_kind_ne_code {s : Segment} (h : s.kind ≠ .code) :
    ∃ g, s.glimpses = [g] ∧ ∀ c, g ≠ .code c := by
  obtain ⟨kind, text⟩ := s
  cases kind with
  | code => exact absurd rfl h
  | literal | identifier | comment => exact ⟨_, rfl, by simp⟩

theorem glimpses_ne_nil {s : Segment} (h : s.text ≠ []) : s.glimpses ≠ [] := by
  by_cases hcode : s.kind = .code
  · rw [glimpses, hcode]
    simpa using h
  · obtain ⟨g, hg, -⟩ := glimpses_of_kind_ne_code hcode
    simp [hg]

theorem outline_singleton {c : Char} {t : Text} (h : opens (c :: t) = false) : outline [c] = [.code c] := by
  have hopens : opens [c] = false := by
    simp only [opens, Bool.or_eq_false_iff] at h ⊢
    simp [h]
  rw [outline, segments, next_of_opens_eq_false hopens]
  simp [splitCode, segments, glimpses]

/-- The first piece that is seen of a query. -/
theorem exists_cut_of_outline_cons {g : Glimpse} (h : outline y = g :: o) :
    ∃ a b, y = a ++ b ∧ outline a = [g] ∧ outline b = o ∧ (code.after a).joins b = true ∧
      ∀ c, g = .code c → a = [c] := by
  cases y with
  | nil => simp at h
  | cons c t =>
    by_cases hopens : opens (c :: t) = true
    · obtain ⟨g', hg, hcode⟩ := glimpses_of_kind_ne_code (kind_next_of_opens hopens)
      have hfirst : outline (Segment.next c t).1.text = [g'] := by
        rw [outline, (segments_next c t).1, List.flatMap_singleton, hg]
      rw [← next_append c t, outline_append (joins_rest c t), hfirst] at h
      obtain ⟨rfl, hrest⟩ := List.cons.inj h
      exact ⟨_, _, (next_append c t).symm, hfirst, hrest, joins_rest c t, fun d hd => absurd hd (hcode d)⟩
    · rw [Bool.not_eq_true] at hopens
      have hfirst := outline_singleton hopens
      have hjoins : (code.after [c]).joins t = true := joins_of_not_opens hopens
      rw [← List.singleton_append, outline_append hjoins, hfirst] at h
      obtain ⟨rfl, hrest⟩ := List.cons.inj h
      exact ⟨[c], t, rfl, hfirst, hrest, hjoins, by simp⟩

/-- Where an outline can be cut, the query can be cut. -/
theorem exists_cut_of_outline (h : outline y = o ++ o') :
    ∃ a b, y = a ++ b ∧ outline a = o ∧ outline b = o' ∧ (code.after a).joins b = true := by
  induction o generalizing y with
  | nil => exact ⟨[], y, rfl, by simp, h, joins_code y⟩
  | cons g o ih =>
    obtain ⟨p, v, rfl, hp, hv, hjoins, -⟩ := exists_cut_of_outline_cons h
    obtain ⟨a, b, rfl, ha, hb, hjoins'⟩ := ih hv
    by_cases hne : a = []
    · subst hne
      exact ⟨p, b, rfl, by simpa [hp] using ha, hb, hjoins⟩
    · have hpa : (code.after p).joins a = true := by rwa [joins_append hne] at hjoins
      refine ⟨p ++ a, b, by simp, by rw [outline_append hpa, hp, ha]; rfl, hb, ?_⟩
      rwa [after_append, after_of_joins hpa hne]

theorem eq_nil_of_outline (h : outline t = []) : t = [] := by
  cases t with
  | nil => rfl
  | cons c t =>
    rw [outline, segments, List.flatMap_cons, List.append_eq_nil_iff] at h
    exact absurd h.1 (glimpses_ne_nil (next_text_ne_nil c t))

/-- Code is seen as it is. -/
theorem eq_of_outline_eq_map (h : outline t = c.map .code) : t = c := by
  induction c generalizing t with
  | nil => exact eq_nil_of_outline h
  | cons d c ih =>
    obtain ⟨a, b, rfl, -, hb, -, ha⟩ := exists_cut_of_outline_cons h
    rw [ih hb, ha d rfl]
    rfl

theorem outline_of_isPlain (h : ∀ c ∈ t, isPlain c = true) : outline t = t.map .code := by
  induction t with
  | nil => simp
  | cons c t ih =>
    have hc := h c (by simp)
    have hopens : opens (c :: t) = false := by
      simp only [isPlain, Bool.and_eq_true, bne_iff_ne] at hc
      simp [opens, hc]
    have hjoins : (code.after [c]).joins t = true := joins_of_not_opens hopens
    rw [← List.singleton_append, outline_append hjoins, outline_singleton hopens, ih fun d hd => h d (by simp [hd])]
    rfl

/-! ## What an outline tells -/

/-- What the mask shows of a piece. -/
def Glimpse.masked : Glimpse → Text
  | code c => [c]
  | literal masked _ => masked
  | other kind text => Segment.masked ⟨kind, text⟩

theorem mask_eq_flatMap (t : Text) : mask t = (outline t).flatMap Glimpse.masked := by
  rw [mask, outline, List.flatMap_assoc]
  refine List.flatMap_congr fun s _ => ?_
  obtain ⟨kind, text⟩ := s
  cases kind with
  | code => simp [masked, glimpses, List.flatMap_map, Glimpse.masked]
  | literal | identifier | comment => simp [glimpses, Glimpse.masked]

def Alike (a b : Text) : Prop := outline a = outline b

theorem Alike.symm (h : Alike a b) : Alike b a := Eq.symm h

theorem Alike.mask_eq (h : Alike a b) : mask a = mask b := by rw [mask_eq_flatMap, mask_eq_flatMap, h]

theorem Alike.width_eq (h : Alike a b) : Text.width a = Text.width b := by
  rw [← width_mask, h.mask_eq, width_mask]

theorem Alike.beginsInWord_eq (h : Alike a b) : beginsInWord a = beginsInWord b := by
  rw [← beginsInWord_mask, h.mask_eq, beginsInWord_mask]

theorem Alike.eq_of_isPlain (h : Alike a b) (ha : ∀ c ∈ a, isPlain c = true) : b = a :=
  eq_of_outline_eq_map (by rw [← outline_of_isPlain ha]; exact h.symm)

theorem Alike.eq_nil (h : Alike [] b) : b = [] := h.eq_of_isPlain (by simp)

theorem Alike.append {a' b' : Text} (ha : Alike a a') (hb : Alike b b') (h : (code.after a).joins b = true)
    (h' : (code.after a').joins b' = true) : Alike (a ++ b) (a' ++ b') := by
  rw [Alike, outline_append h, outline_append h', ha, hb]

/-- Two queries that are alike can be cut in the same place. -/
theorem Alike.cut {y' : Text} (h : Alike (a ++ b) y') (hjoins : (code.after a).joins b = true) :
    ∃ a' b', y' = a' ++ b' ∧ Alike a a' ∧ Alike b b' ∧ (code.after a').joins b' = true := by
  rw [Alike, outline_append hjoins] at h
  obtain ⟨a', b', rfl, ha, hb, hjoins'⟩ := exists_cut_of_outline h.symm
  exact ⟨a', b', rfl, ha.symm, hb.symm, hjoins'⟩

/-- Plain text at the start of a query stands at the start of the queries that are alike. -/
theorem Alike.drop_plain {x y' : Text} (h : Alike (x ++ b) y') (hx : ∀ c ∈ x, isPlain c = true) :
    ∃ b', y' = x ++ b' ∧ Alike b b' := by
  by_cases hne : x = []
  · exact ⟨y', by simp [hne], by simpa [hne] using h⟩
  have hcode : code.after x = code := after_of_all_isPlain rfl hx hne
  obtain ⟨x', b', rfl, hx', hb, -⟩ := h.cut (by rw [hcode]; exact joins_code b)
  obtain rfl := hx'.eq_of_isPlain hx
  exact ⟨b', rfl, hb⟩

/-! ## Queries side by side -/

/-- Two queries that are alike, without comments to the end of the line. -/
structure Paired (a b : Text) : Prop where
  alike : Alike a b
  left : Unlined a
  right : Unlined b

theorem Paired.symm (h : Paired a b) : Paired b a := ⟨h.alike.symm, h.right, h.left⟩

theorem Paired.append {a' b' : Text} (ha : Paired a a') (hb : Paired b b') (h : (code.after a).joins b = true)
    (h' : (code.after a').joins b' = true) : Paired (a ++ b) (a' ++ b') :=
  ⟨ha.alike.append hb.alike h h', ha.left.append hb.left h, ha.right.append hb.right h'⟩

/-- What stands in the same place of two queries. -/
theorem Paired.parts {a' b' : Text} (h : Paired (a ++ b) (a' ++ b')) (hjoins : (code.after a).joins b = true)
    (hwidth : Text.width a = Text.width a') : Paired a a' ∧ Paired b b' := by
  obtain ⟨x, y, hsplit, hx, hy, hjoins'⟩ := h.alike.cut hjoins
  obtain ⟨rfl, rfl⟩ := Text.append_inj_of_width hsplit (by rw [← hwidth, hx.width_eq])
  exact ⟨⟨hx, h.left.left, h.right.left⟩, hy, h.left.right hjoins, h.right.right hjoins'⟩

theorem Paired.of_cons {c : Char} (hc : isPlain c = true) (h : Paired (c :: a) (c :: b)) : Paired a b := by
  have hcode : code.after [c] = code := after_of_all_isPlain rfl (by simpa using hc) (by simp)
  exact (Paired.parts (show Paired ([c] ++ a) ([c] ++ b) from h) (by rw [hcode, joins_code]) rfl).2

/-! ## Parts -/

/-- Whether a text has no comment to the end of the line and ends in code. -/
structure Whole (t : Text) : Prop where
  unlined : Unlined t
  live : (code.after t).live = true

theorem whole_of_isPlain (h : ∀ c ∈ t, isPlain c = true) : Whole t := by
  refine ⟨unlined_of_isPlain h, ?_⟩
  by_cases hne : t = []
  · simp [hne, live]
  · rw [after_of_all_isPlain rfl h hne]
    rfl

theorem Whole.piece (h : Whole t) : Piece (comments t) t := ⟨⟨h.unlined, fun _ hc => hc⟩, h.live⟩

theorem Whole.append (ha : Whole a) (hb : Whole b) (h : (code.after a).joins b = true) : Whole (a ++ b) := by
  refine ⟨ha.unlined.append hb.unlined h, ?_⟩
  rw [after_append]
  by_cases hne : b = []
  · simpa [hne] using ha.live
  · rw [after_of_joins h hne]
    exact hb.live

/-- Plain text at the end of a part is seen. -/
theorem Whole.outline_append {e : Text} (h : Whole (t ++ e)) (he : ∀ c ∈ e, isPlain c = true) :
    Whole t ∧ outline (t ++ e) = outline t ++ e.map .code ∧ (code.after t).joins e = true := by
  have hlive := live_of_plain (h.unlined.left t List.prefix_rfl) he h.live
  have hjoins := joins_of_head?_isPlain hlive fun c hc => he c (List.mem_of_head? hc)
  exact ⟨⟨h.unlined.left, hlive⟩, by rw [DialectBridge.outline_append hjoins, outline_of_isPlain he], hjoins⟩

def Glimpse.isBlank : Glimpse → Bool
  | code c => Unicode.isBlank c
  | _ => false

/-- An outline without the white space at its two ends. -/
def trimmed (o : List Glimpse) : List Glimpse :=
  ((o.dropWhile Glimpse.isBlank).reverse.dropWhile Glimpse.isBlank).reverse

theorem trimmed_eq {before o after : List Glimpse} (hbefore : ∀ g ∈ before, g.isBlank = true)
    (hafter : ∀ g ∈ after, g.isBlank = true) (hhead : ∀ g ∈ o.head?, g.isBlank = false)
    (hlast : ∀ g ∈ o.getLast?, g.isBlank = false) : trimmed (before ++ (o ++ after)) = o := by
  have hstop : ∀ l : List Glimpse, (∀ g ∈ l.head?, g.isBlank = false) → l.dropWhile Glimpse.isBlank = l := by
    intro l hl
    cases l with
    | nil => rfl
    | cons g l => exact List.dropWhile_cons_of_neg (by simp [hl g rfl])
  rw [trimmed, List.dropWhile_append_of_pos hbefore]
  by_cases ho : o = []
  · have hnil : (after ++ []).dropWhile Glimpse.isBlank = [] := List.dropWhile_append_of_pos hafter
    rw [List.append_nil] at hnil
    rw [ho, List.nil_append, hnil]
    rfl
  · rw [hstop (o ++ after) (by rwa [List.head?_append_of_ne_nil _ ho]), List.reverse_append,
      List.dropWhile_append_of_pos (by simpa using hafter), hstop _ (by simpa using hlast), List.reverse_reverse]

theorem head?_trim (t : Text) : ∀ c ∈ (Text.trim t).head?, Unicode.isBlank c = false := by
  intro c hc
  obtain ⟨e, he, -⟩ := Text.exists_eq_dropTrailing_append Unicode.isBlank (Text.trimStart t)
  change Text.trimStart t = Text.trim t ++ e at he
  have hhead := List.head?_dropWhile_not Unicode.isBlank t
  have hstart : (Text.trimStart t).head? = some c := by rw [he, List.head?_append, Option.mem_def.1 hc]; rfl
  rw [Text.trimStart] at hstart
  simpa [hstart] using hhead

theorem getLast?_trim (t : Text) : ∀ c ∈ (Text.trim t).getLast?, Unicode.isBlank c = false := by
  intro c hc
  have hhead := List.head?_dropWhile_not Unicode.isBlank (Text.trimStart t).reverse
  rw [Text.trim, Text.trimEnd, Text.dropTrailing, List.getLast?_reverse] at hc
  simpa [Option.mem_def.1 hc] using hhead

theorem outline_plain_append {x : Text} (hx : ∀ c ∈ x, isPlain c = true) (b : Text) :
    outline (x ++ b) = x.map .code ++ outline b := by
  by_cases hne : x = []
  · simp [hne]
  have hcode : code.after x = code := after_of_all_isPlain rfl hx hne
  rw [outline_append (by rw [hcode]; exact joins_code b), outline_of_isPlain hx]

/-- Plain text at the start of a part. -/
theorem Whole.drop_plain {x : Text} (h : Whole (x ++ b)) (hx : ∀ c ∈ x, isPlain c = true) : Whole b := by
  by_cases hne : x = []
  · simpa [hne] using h
  have hcode : code.after x = code := after_of_all_isPlain rfl hx hne
  have hlive := h.live
  rw [after_append, hcode] at hlive
  exact ⟨h.unlined.right (by rw [hcode]; exact joins_code b), hlive⟩

/-- What is seen of a trimmed part is what is seen of the part, trimmed. -/
theorem Whole.outline_trim (h : Whole t) : Whole (Text.trim t) ∧ outline (Text.trim t) = trimmed (outline t) := by
  obtain ⟨b, e, ht, hb, he, hclean, hlive⟩ := h.piece.exists_trim
  refine ⟨⟨hclean.unlined, hlive⟩, ?_⟩
  have hb' : ∀ c ∈ b, isPlain c = true := fun c hc => isPlain_of_isBlank (hb c hc)
  have he' : ∀ c ∈ e, isPlain c = true := fun c hc => isPlain_of_isBlank (he c hc)
  have hsplit : outline t = b.map .code ++ (outline (Text.trim t) ++ e.map .code) := by
    have hwhole := h
    rw [ht] at hwhole
    conv => lhs; rw [ht]
    rw [outline_plain_append hb', ((hwhole.drop_plain hb').outline_append he').2.1]
  rw [hsplit, trimmed_eq (by simpa [Glimpse.isBlank] using hb) (by simpa [Glimpse.isBlank] using he)]
  · rintro (c | _ | _) hc
    · obtain ⟨o, ho⟩ := List.head?_eq_some_iff.1 hc
      obtain ⟨a, b, hcut, -, -, -, ha⟩ := exists_cut_of_outline_cons ho
      exact head?_trim t c (by rw [hcut, ha c rfl]; rfl)
    all_goals rfl
  · rintro (c | _ | _) hc
    · obtain ⟨o, ho⟩ := List.getLast?_eq_some_iff.1 hc
      obtain ⟨a, b, hcut, -, hb, -⟩ := exists_cut_of_outline ho
      obtain rfl := eq_of_outline_eq_map (c := [c]) hb
      exact getLast?_trim t c (by rw [hcut]; simp)
    all_goals rfl

/-- Two parts that are alike. -/
structure Twin (a b : Text) : Prop where
  alike : Alike a b
  left : Whole a
  right : Whole b

theorem Twin.symm (h : Twin a b) : Twin b a := ⟨h.alike.symm, h.right, h.left⟩

theorem twin_of_isPlain (h : ∀ c ∈ t, isPlain c = true) : Twin t t := ⟨rfl, whole_of_isPlain h, whole_of_isPlain h⟩

theorem Twin.paired (h : Twin a b) : Paired a b := ⟨h.alike, h.left.unlined, h.right.unlined⟩

theorem Paired.twin (h : Paired a b) (ha : (code.after a).live = true) (hb : (code.after b).live = true) : Twin a b :=
  ⟨h.alike, ⟨h.left, ha⟩, ⟨h.right, hb⟩⟩

theorem Twin.append {a' b' : Text} (ha : Twin a a') (hb : Twin b b') (h : (code.after a).joins b = true)
    (h' : (code.after a').joins b' = true) : Twin (a ++ b) (a' ++ b') :=
  ⟨ha.alike.append hb.alike h h', ha.left.append hb.left h, ha.right.append hb.right h'⟩

theorem Twin.trim (h : Twin a b) : Twin (Text.trim a) (Text.trim b) :=
  ⟨by rw [Alike, h.left.outline_trim.2, h.right.outline_trim.2, h.alike], h.left.outline_trim.1,
    h.right.outline_trim.1⟩

theorem Twin.endsInWord_eq (h : Twin a b) : endsInWord a = endsInWord b := by
  rw [← endsInWord_mask h.left.live, h.alike.mask_eq, endsInWord_mask h.right.live]

/-- Plain text at the start of a part. -/
theorem Twin.drop_plain {x y' : Text} (h : Twin (x ++ b) y') (hx : ∀ c ∈ x, isPlain c = true) :
    ∃ b', y' = x ++ b' ∧ Twin b b' := by
  obtain ⟨b', rfl, hb⟩ := h.alike.drop_plain hx
  exact ⟨b', rfl, hb, h.left.drop_plain hx, h.right.drop_plain hx⟩

theorem Twin.dropLast_plain {e y' : Text} (h : Twin (a ++ e) y') (he : ∀ c ∈ e, isPlain c = true) :
    ∃ a', y' = a' ++ e ∧ Twin a a' := by
  obtain ⟨ha, -, hjoins⟩ := h.left.outline_append he
  obtain ⟨a', e', rfl, ha', he', -⟩ := h.alike.cut hjoins
  obtain rfl := he'.eq_of_isPlain he
  exact ⟨a', rfl, ha', ha, (h.right.outline_append he).1⟩

end

/-! ## Queries that differ inside literals -/

section
variable {a b t : Text} {s s' : Segment}

/-- The last byte of a character is that of a quote for the quote alone. -/
theorem lastByte_eq_quote_iff {c : Char} : (String.utf8EncodeChar c).getLast? = some 0x27 ↔ c = '\'' := by
  constructor
  · intro h
    have hlead : ∀ n : Nat, UInt8.ofNat (n % 64 + 128) ≠ 0x27 := fun n hn => by
      have htoNat := congrArg UInt8.toNat hn
      rw [UInt8.toNat_ofNat'] at htoNat
      have hquote : (0x27 : UInt8).toNat = 39 := rfl
      omega
    unfold String.utf8EncodeChar at h
    simp only at h
    split_ifs at h with h1
    · have hbyte : (UInt8.ofNat c.val.toNat).toNat = _ := congrArg UInt8.toNat (Option.some.inj h)
      rw [UInt8.toNat_ofNat'] at hbyte
      refine Char.ext (UInt32.toNat_inj.1 ?_)
      have hquote : (0x27 : UInt8).toNat = 39 ∧ '\''.val.toNat = 39 := ⟨rfl, rfl⟩
      omega
    all_goals exact absurd (Option.some.inj h) (hlead _)
  · rintro rfl
    rfl

theorem getLast?_bytes_append (t : Text) (c : Char) :
    (bytes (t ++ [c])).getLast? = (String.utf8EncodeChar c).getLast? := by
  rw [bytes, List.flatMap_append, List.flatMap_singleton, List.getLast?_append_of_ne_nil _ String.utf8EncodeChar_ne_nil]

theorem getLast?_bytes_eq_quote_iff : (bytes t).getLast? = some 0x27 ↔ t.getLast? = some '\'' := by
  rcases List.eq_nil_or_concat t with rfl | ⟨t, c, rfl⟩
  · simp [bytes]
  · rw [List.concat_eq_append, getLast?_bytes_append, lastByte_eq_quote_iff]
    simp

theorem head?_of_literal (hs : s ∈ segments t) (hkind : s.kind = .literal) : s.text.head? = some '\'' := by
  fun_induction segments t with
  | case1 => simp at hs
  | case2 c t ih =>
    rcases List.mem_cons.1 hs with rfl | hs
    · unfold Segment.next at hkind ⊢
      split_ifs at hkind ⊢ with h1
      simp [h1]
    · exact ih hs

theorem getLast?_bytes_cons {inside : Text} (h : inside ≠ []) (c : Char) :
    (bytes (c :: inside)).getLast? = (bytes inside).getLast? := by
  obtain ⟨front, d, rfl⟩ := (List.eq_nil_or_concat inside).resolve_left h
  rw [List.concat_eq_append, ← List.cons_append, getLast?_bytes_append, getLast?_bytes_append]

theorem masked_literal_eq {inside inside' : Text} (hwidth : Text.width inside = Text.width inside')
    (hlast : (bytes ('\'' :: inside)).getLast? = (bytes ('\'' :: inside')).getLast?) :
    Segment.masked ⟨.literal, '\'' :: inside⟩ = Segment.masked ⟨.literal, '\'' :: inside'⟩ := by
  have hquote : inside.getLast? = some '\'' ↔ inside'.getLast? = some '\'' := by
    by_cases hnil : inside = []
    · rw [hnil, Text.width_nil] at hwidth
      have hnil' : inside' = [] := by
        by_contra hne
        exact absurd (Text.width_pos hne) (by omega)
      rw [hnil, hnil']
    · have hnil' : inside' ≠ [] := by
        rintro rfl
        exact absurd (Text.width_pos hnil) (by rw [hwidth]; simp)
      rw [← getLast?_bytes_eq_quote_iff, ← getLast?_bytes_eq_quote_iff, ← getLast?_bytes_cons hnil '\'',
        ← getLast?_bytes_cons hnil' '\'', hlast]
  simp only [Segment.masked, hquote, hwidth]

theorem Segment.DiffersInside.glimpses_eq (h : DiffersInside s s') (hs : s.kind = .literal → s.text.head? = some '\'')
    (hs' : s'.kind = .literal → s'.text.head? = some '\'') : s.glimpses = s'.glimpses := by
  obtain ⟨kind, text⟩ := s
  obtain ⟨kind', text'⟩ := s'
  obtain rfl : kind = kind' := h.kind
  by_cases hliteral : kind = .literal
  · subst hliteral
    obtain ⟨inside, rfl⟩ := List.head?_eq_some_iff.1 (hs rfl)
    obtain ⟨inside', rfl⟩ := List.head?_eq_some_iff.1 (hs' rfl)
    have hlast := h.last
    have hwidth : Text.width inside = Text.width inside' := by simpa using h.width
    simp only [glimpses] at hlast ⊢
    rw [masked_literal_eq hwidth hlast, hlast]
  · obtain rfl : text = text' := h.text hliteral
    rfl

theorem DifferInLiterals.alike (h : DifferInLiterals a b) : Alike a b := by
  have key : ∀ l l' : List Segment, List.Forall₂ Segment.DiffersInside l l' → (∀ s ∈ l, s ∈ segments a) →
      (∀ s ∈ l', s ∈ segments b) → l.flatMap Segment.glimpses = l'.flatMap Segment.glimpses := by
    intro l l' hl
    induction hl with
    | nil => exact fun _ _ => rfl
    | cons hs _ ih =>
      intro ha hb
      rw [List.forall_mem_cons] at ha hb
      rw [List.flatMap_cons, List.flatMap_cons, ih ha.2 hb.2,
        hs.glimpses_eq (head?_of_literal ha.1) (head?_of_literal hb.1)]
  exact key _ _ h (fun _ => id) fun _ => id

theorem Segment.DiffersInside.refl (s : Segment) : s.DiffersInside s := ⟨rfl, rfl, fun _ => rfl, rfl, rfl⟩

/-- Segments that are not code and look the same differ inside of a literal, if they differ. -/
theorem differsInside_of_glimpses (hcode : s.kind ≠ .code) (hs : s.kind = .literal → s.text.head? = some '\'')
    (hs' : s'.kind = .literal → s'.text.head? = some '\'') (h : s.glimpses = s'.glimpses) : s.DiffersInside s' := by
  obtain ⟨kind, text⟩ := s
  obtain ⟨kind', text'⟩ := s'
  cases kind with
  | code => exact absurd rfl hcode
  | identifier | comment =>
    cases kind' with
    | code => cases text' <;> simp [glimpses] at h
    | literal => simp [glimpses] at h
    | identifier | comment =>
      simp only [glimpses, List.cons.injEq, Glimpse.other.injEq, and_true, reduceCtorEq, false_and, true_and] at h
      all_goals obtain rfl := h
      all_goals exact .refl _
  | literal =>
    cases kind' with
    | code => cases text' <;> simp [glimpses] at h
    | identifier | comment => simp [glimpses] at h
    | literal =>
      obtain ⟨inside, rfl⟩ := List.head?_eq_some_iff.1 (hs rfl)
      obtain ⟨inside', rfl⟩ := List.head?_eq_some_iff.1 (hs' rfl)
      simp only [glimpses, List.cons.injEq, Glimpse.literal.injEq, and_true] at h
      refine ⟨rfl, ?_, fun hne => absurd rfl hne, rfl, h.2⟩
      rw [← width_masked, h.1, width_masked]

/-- What looks like a segment is a segment. -/
theorem exists_segment_of_glimpses {x : Text} (hs : s ∈ segments t) (h : outline x = s.glimpses) :
    ∃ s', segments x = [s'] ∧ s.DiffersInside s' := by
  by_cases hcode : s.kind = .code
  · obtain rfl : x = s.text := eq_of_outline_eq_map (by rw [h, glimpses, hcode])
    exact ⟨s, segments_of_mem hs, .refl s⟩
  obtain ⟨g, hg, -⟩ := glimpses_of_kind_ne_code hcode
  cases x with
  | nil => simp [hg] at h
  | cons c x =>
    have hsegments : segments (c :: x) = (Segment.next c x).1 :: segments (Segment.next c x).2 := by rw [segments]
    rw [outline, hsegments, List.flatMap_cons, hg] at h
    rcases List.append_eq_singleton_iff.1 h with ⟨hnil, -⟩ | ⟨hfirst, hrest⟩
    · exact absurd hnil (glimpses_ne_nil (next_text_ne_nil c x))
    have hnil : (Segment.next c x).2 = [] := eq_nil_of_outline hrest
    rw [hnil, segments] at hsegments
    refine ⟨_, hsegments, differsInside_of_glimpses hcode (head?_of_literal hs) ?_ (by rw [hg, hfirst])⟩
    exact head?_of_literal (t := c :: x) (by simp [hsegments])

theorem Alike.differInLiterals (h : Alike a b) : DifferInLiterals a b := by
  rw [DifferInLiterals]
  fun_induction segments a generalizing b with
  | case1 => simp [h.eq_nil, segments]
  | case2 c t ih =>
    rw [← next_append c t] at h
    obtain ⟨x, r, rfl, hx, hr, hjoins⟩ := h.cut (joins_rest c t)
    have hmem : (Segment.next c t).1 ∈ segments (c :: t) := by rw [segments]; simp
    have hglimpses : outline x = (Segment.next c t).1.glimpses := by
      rw [← hx, outline, (segments_next c t).1, List.flatMap_singleton]
    obtain ⟨s, hs, hsame⟩ := exists_segment_of_glimpses hmem hglimpses
    have hrest := ih hr
    rw [segments_append hjoins, hs, glue_singleton]
    · exact .cons hsame hrest
    · rintro ⟨hcode, s', hs', hkind⟩
      obtain ⟨l', hl'⟩ := List.head?_eq_some_iff.1 hs'
      rw [hl'] at hrest
      obtain ⟨s₀, l, hdiffers, -, hl⟩ := List.forall₂_cons_right_iff.1 hrest
      refine (segments_next c t).2 (hsame.kind.trans hcode) s₀ (by rw [hl]; rfl) (hdiffers.kind.trans hkind)

/-- Two queries have one outline if and only if they differ inside literals only. -/
theorem differInLiterals_iff : DifferInLiterals a b ↔ Alike a b := ⟨DifferInLiterals.alike, Alike.differInLiterals⟩

end

end DialectBridge
