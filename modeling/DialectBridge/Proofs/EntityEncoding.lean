import DialectBridge.Entity
import DialectBridge.Proofs.Captures
import DialectBridge.Proofs.Lexing
import DialectBridge.Proofs.Replacing
/-!
# Encoded queries

`encode` writes the five characters that mean something in a web page as entities. In the encoded text no
quote is left, and no cut of the lexer falls into an entity (`exists_segments_encode`). Decoding gives back
what stands outside comments (`replaceAllBy_encode`) and leaves comments alone; so it undoes the encoding just
of those texts of which no entity ends up in a comment (`decode_encode_iff`). A literal may become a comment
when its quotes are encoded: `'--'` does not come back (`decode_encode_dashes`).
-/
namespace DialectBridge.Entity
open Pattern Cursor Segment LexState

def encodeChar (c : Char) : Text :=
  if c = '&' then "&amp;" else if c = '<' then "&lt;" else if c = '>' then "&gt;"
  else if c = '"' then "&quot;" else if c = '\'' then "&apos;" else [c]

/-- A text as it is written in a web page. -/
def encode (t : Text) : Text := t.flatMap encodeChar

@[simp] theorem encode_nil : encode [] = [] := rfl

@[simp] theorem encode_cons (c : Char) (t : Text) : encode (c :: t) = encodeChar c ++ encode t := rfl

@[simp] theorem encode_append (a b : Text) : encode (a ++ b) = encode a ++ encode b := List.flatMap_append

section
variable {c d : Char} {t u v w x rest : Text}

/-! ## One character -/

/-- The characters that have a name. -/
def special : List Char := ['&', '<', '>', '"', '\'']

/-- A character stays, or an entity stands for it. -/
theorem encodeChar_eq (c : Char) : (c ∉ special ∧ encodeChar c = [c]) ∨
    ∃ name : Text, encodeChar c = '&' :: (name ++ [';']) ∧ name ≠ [] ∧ (∀ d ∈ name, letters.contains d = true) ∧
      decodeName? name = some c := by
  unfold encodeChar
  split_ifs with h1 h2 h3 h4 h5
  · exact .inr ⟨"amp".toList, rfl, by decide, by decide, by rw [h1]; decide⟩
  · exact .inr ⟨"lt".toList, rfl, by decide, by decide, by rw [h2]; decide⟩
  · exact .inr ⟨"gt".toList, rfl, by decide, by decide, by rw [h3]; decide⟩
  · exact .inr ⟨"quot".toList, rfl, by decide, by decide, by rw [h4]; decide⟩
  · exact .inr ⟨"apos".toList, rfl, by decide, by decide, by rw [h5]; decide⟩
  · exact .inl ⟨by simp [special, h1, h2, h3, h4, h5], rfl⟩

theorem encodeChar_of_not_mem (h : c ∉ special) : encodeChar c = [c] := by
  simp only [special, List.mem_cons, List.not_mem_nil, or_false, not_or] at h
  simp [encodeChar, h]

/-- A letter is plain, and neither a semicolon nor a line feed. -/
theorem isPlain_of_letter (h : letters.contains c = true) : isPlain c = true ∧ c ≠ ';' ∧ c ≠ '\n' := by
  have key : ∀ d ∈ ['\'', '"', '-', '/', '*', ';', '\n'], letters.contains d = false := by decide
  have hne : ∀ d ∈ ['\'', '"', '-', '/', '*', ';', '\n'], c ≠ d := by
    rintro d hd rfl
    rw [key c hd] at h
    cases h
  simp only [List.mem_cons, List.not_mem_nil, or_false, forall_eq_or_imp, forall_eq] at hne
  simp [isPlain, hne]

/-- A special character is written in plain characters. -/
theorem isPlain_of_mem_encodeChar (hc : c ∈ special) : ∀ d ∈ encodeChar c, isPlain d = true ∧ d ≠ '\n' := by
  rcases encodeChar_eq c with ⟨hnot, -⟩ | ⟨name, heq, -, hname, -⟩
  · exact absurd hc hnot
  · rw [heq]
    intro d hd
    simp only [List.mem_cons, List.mem_append, List.not_mem_nil, or_false] at hd
    rcases hd with rfl | hd | rfl
    · decide
    · exact ⟨(isPlain_of_letter (hname d hd)).1, (isPlain_of_letter (hname d hd)).2.2⟩
    · decide

theorem encodeChar_ne_nil (c : Char) : encodeChar c ≠ [] := by
  rcases encodeChar_eq c with ⟨-, heq⟩ | ⟨name, heq, -⟩ <;> simp [heq]

theorem length_le_encode (t : Text) : t.length ≤ (encode t).length := by
  induction t with
  | nil => simp
  | cons c t ih =>
    have hpos := List.length_pos_iff.2 (encodeChar_ne_nil c)
    rw [encode_cons, List.length_append, List.length_cons]
    omega

/-! ## Decoding what stands outside comments -/

/-- What an entity is: an ampersand and a name or a number, up to the next semicolon. -/
theorem takes_pattern {g g' : Groups} (h : Takes pattern u w v g g') :
    ∃ body, w = '&' :: (body ++ [';']) ∧ ';' ∉ body ∧
      g' = (1, between (u ++ ['&']) (body ++ (';' :: v)), between (u ++ ['&'] ++ body) (';' :: v)) :: g := by
  obtain ⟨a, b, h1, rfl, ⟨amp, body, h2, rfl, hamp, h3, hbody, rfl⟩, hsemi⟩ := h
  obtain ⟨rfl, rfl⟩ := takes_sym hamp
  obtain ⟨rfl, rfl⟩ := takes_sym hsemi
  obtain rfl := hbody.groups_eq rfl
  have hchars : ∀ c ∈ body, c ≠ ';' := by
    refine hbody.forall_mem (P := (· ≠ ';')) fun s hs c hc => ?_
    rintro rfl
    have key : ∀ s ∈ (oneOf [sym '#' ++ many1 (one digits), sym '#' ++ oneOf [sym 'x', sym 'X'] ++
      many1 (one hexDigits), many1 (one letters)]).charSets, s.contains ';' = false := by decide
    rw [key s hs] at hc
    cases hc
  exact ⟨body, by simp, fun hmem => hchars _ hmem rfl, by simp⟩

theorem consuming_pattern : pattern.Consuming := by
  rintro u w v ⟨g, g', h⟩
  obtain ⟨body, rfl, -⟩ := takes_pattern h
  simp

/-- Nothing but an ampersand begins an entity. -/
theorem matchAt?_of_ne (hc : c ≠ '&') (u t : Text) : pattern.matchAt? (between u (c :: t)) = none := by
  by_contra hne
  obtain ⟨m, hm⟩ := Option.ne_none_iff_exists'.1 hne
  obtain ⟨w, v, hsplit, -, -, htakes⟩ := matchAt?_eq_some hm
  obtain ⟨body, rfl, -⟩ := takes_pattern htakes
  exact hc (List.cons.inj hsplit).1

/-- The entity of a name is found, and its name is group 1. -/
theorem exists_matchAt?_named {name : Text} (hne : name ≠ []) (hname : ∀ d ∈ name, letters.contains d = true)
    (u v : Text) : ∃ m, pattern.matchAt? (between u ('&' :: (name ++ [';']) ++ v)) = some m ∧
      m.last = between (u ++ '&' :: (name ++ [';'])) v ∧ m.groupD 1 = name := by
  have hmatches : Matches pattern u ('&' :: (name ++ [';'])) v := by
    refine matches_seq.2 ⟨'&' :: name, [';'], rfl, matches_seq.2 ⟨['&'], name, rfl, matches_sym.2 rfl, ?_⟩,
      matches_sym.2 rfl⟩
    exact matches_group.2 (matches_oneOf.2 ⟨_, by simp, matches_many1_one.2 ⟨hne, hname⟩⟩)
  obtain ⟨g, g', htakes⟩ := hmatches
  obtain ⟨m, hm⟩ := Option.isSome_iff_exists.1 (isSome_matchAt?_iff.2 ⟨_, v, g, g', rfl, htakes⟩)
  obtain ⟨w', v', hsplit, -, hlast, htakes'⟩ := matchAt?_eq_some hm
  obtain ⟨body, rfl, hbody, hgroups⟩ := takes_pattern htakes'
  -- the entity ends at the first semicolon
  have hsemi : ';' ∉ name := fun hmem => (isPlain_of_letter (hname _ hmem)).2.1 rfl
  obtain ⟨rfl, rfl⟩ := Text.append_cons_inj (a := name) (b := v) (c := ';') (by simpa using hsplit) hsemi hbody
  exact ⟨m, hm, hlast, Match.groupD_eq (by decide) (by rw [hgroups]; rfl)⟩

theorem replaceFrom_encode (u t : Text) : pattern.replaceFrom decodeMatch u (encode t) = t := by
  induction t generalizing u with
  | nil => exact replaceFrom_nil consuming_pattern _ _
  | cons c t ih =>
    rcases encodeChar_eq c with ⟨hc, heq⟩ | ⟨name, heq, hne, hname, hdecode⟩
    · have hamp : c ≠ '&' := fun h => hc (by simp [h, special])
      rw [encode_cons, heq, List.singleton_append, replaceFrom_cons_of_none (matchAt?_of_ne hamp u _), ih]
    · obtain ⟨m, hm, hlast, hgroup⟩ := exists_matchAt?_named hne hname u (encode t)
      rw [encode_cons, heq, replaceFrom_of_some consuming_pattern hm hlast, ih, decodeMatch, hgroup, hdecode]
      rfl

/-- Decoding gives back an encoded text. -/
theorem replaceAllBy_encode (t : Text) : pattern.replaceAllBy decodeMatch (encode t) = t := by
  rw [replaceAllBy_eq_replaceFrom, replaceFrom_encode]

/-! ## Cuts of an encoded text -/

theorem head?_encode (hd : d ∉ special) (t : Text) : (encode t).head? = some d ↔ t.head? = some d := by
  cases t with
  | nil => rfl
  | cons c t =>
    rcases encodeChar_eq c with ⟨-, heq⟩ | ⟨name, heq, -, -, -⟩
    · simp [heq]
    · have hc : c ≠ d := by
        rintro rfl
        simp [encodeChar_of_not_mem hd] at heq
      have hamp : '&' ≠ d := fun h => hd (by simp [← h, special])
      simp [heq, hc, hamp]

theorem mem_encode (hd : d ∉ special) (hplain : isPlain d = false ∨ d = '\n') : d ∈ encode t ↔ d ∈ t := by
  induction t with
  | nil => rfl
  | cons c t ih =>
    by_cases hc : c ∈ special
    · have hne : d ≠ c := fun h => hd (h ▸ hc)
      have hnot : d ∉ encodeChar c := fun hmem => by
        obtain ⟨hd, hline⟩ := isPlain_of_mem_encodeChar hc d hmem
        simp [hd, hline] at hplain
      simp [ih, hne, hnot]
    · simp [ih, encodeChar_of_not_mem hc]

theorem blockEnd_infix_append (hw : '*' ∉ w) : ['*', '/'] <:+: w ++ t ↔ ['*', '/'] <:+: t := by
  induction w with
  | nil => rfl
  | cons c w ih =>
    simp only [List.mem_cons, not_or] at hw
    rw [List.cons_append, blockEnd_infix_cons, ih hw.2]
    simp [Ne.symm hw.1]

theorem blockEnd_infix_encode : ['*', '/'] <:+: encode t ↔ ['*', '/'] <:+: t := by
  induction t with
  | nil => rfl
  | cons c t ih =>
    by_cases hc : c ∈ special
    · have hstar : '*' ∉ encodeChar c := fun hmem => by
        have := (isPlain_of_mem_encodeChar hc _ hmem).1
        cases this
      have hne : c ≠ '*' := fun h => absurd (h ▸ hc) (by decide)
      rw [encode_cons, blockEnd_infix_append hstar, ih, blockEnd_infix_cons]
      simp [hne]
    · rw [encode_cons, encodeChar_of_not_mem hc, List.singleton_append, blockEnd_infix_cons,
        blockEnd_infix_cons, ih, head?_encode (by decide)]

theorem endsLine_encode (h : EndsLine x rest) : EndsLine (encode x) (encode rest) := by
  refine ⟨by rw [mem_encode (by decide) (.inr rfl)]; exact h.1, h.2.imp (fun hrest => ?_) fun hrest => ?_⟩
  · rwa [head?_encode (by decide)]
  · rw [hrest, encode_nil]

theorem endsBlock_encode (h : EndsBlock x rest) : EndsBlock (encode x) (encode rest) := by
  rcases h with ⟨inside, rfl, hinside⟩ | ⟨hx, rfl⟩
  · refine .inl ⟨encode inside, by rw [encode_append]; rfl, ?_⟩
    have hstar : encode inside ++ ['*'] = encode (inside ++ ['*']) := by rw [encode_append]; rfl
    rwa [hstar, blockEnd_infix_encode]
  · exact .inr ⟨by rwa [blockEnd_infix_encode], rfl⟩

theorem isCode_append (hw : ∀ c ∈ w, isPlain c = true) (h : IsCode x rest) : IsCode (w ++ x) rest := by
  induction w with
  | nil => exact h
  | cons c w ih =>
    refine isCode_cons.2 ⟨?_, ih fun d hd => hw d (List.mem_cons_of_mem c hd)⟩
    have hc := hw c (by simp)
    simp only [isPlain, Bool.and_eq_true, bne_iff_ne, ne_eq] at hc
    simp [opens, hc]

/-- A text up to the first place where its encoding is not code. -/
theorem exists_isCode_encode (t : Text) : ∃ a b, t = a ++ b ∧ IsCode (encode a) (encode b) ∧
    (encode b = [] ∨ opens (encode b) = true) := by
  induction t with
  | nil => exact ⟨[], [], rfl, isCode_nil _, .inl rfl⟩
  | cons c t ih =>
    by_cases hopens : opens (encode (c :: t)) = true
    · exact ⟨[], c :: t, rfl, isCode_nil _, .inr hopens⟩
    · obtain ⟨a, b, rfl, hcode, hrest⟩ := ih
      refine ⟨c :: a, b, rfl, ?_, hrest⟩
      by_cases hc : c ∈ special
      · exact isCode_append (fun d hd => (isPlain_of_mem_encodeChar hc d hd).1) hcode
      · rw [encode_cons, encodeChar_of_not_mem hc] at hopens ⊢
        exact isCode_cons.2 ⟨by simpa using hopens, hcode⟩

/-- An encoded text holds no quote. -/
theorem not_quote_prefix_encode (q : Quote) : ¬ [q.char] <+: encode t := by
  rintro ⟨z, hz⟩
  have hmem : q.char ∈ encode t := by rw [← hz]; simp
  obtain ⟨c, -, hc⟩ := List.mem_flatMap.1 hmem
  have hquote : isPlain q.char = false := by cases q <;> rfl
  by_cases hspecial : c ∈ special
  · rw [(isPlain_of_mem_encodeChar hspecial _ hc).1] at hquote
    cases hquote
  · rw [encodeChar_of_not_mem hspecial, List.mem_singleton] at hc
    exact hspecial (hc ▸ by cases q <;> decide)

/-- Two characters that stay stand in front of an encoded text if they stand in front of the text. -/
theorem exists_of_pair_prefix (hc : c ∉ special) (hd : d ∉ special) (h : [c, d] <+: encode t) :
    ∃ y, t = c :: d :: y := by
  obtain ⟨z, hz⟩ := h
  obtain ⟨y, rfl⟩ := List.head?_eq_some_iff.1 ((head?_encode hc t).1 (by rw [← hz]; rfl))
  rw [encode_cons, encodeChar_of_not_mem hc] at hz
  have hrest : d :: z = encode y := (List.cons.inj hz).2
  obtain ⟨y, rfl⟩ := List.head?_eq_some_iff.1 ((head?_encode hd y).1 (by rw [← hrest]; rfl))
  exact ⟨y, rfl⟩

/-- What is not code at the start of an encoded text is the encoding of a comment. -/
theorem exists_comment_encode (h : opens (encode t) = true) :
    ∃ a b, t = a ++ b ∧ a ≠ [] ∧ Formed .comment (encode a) (encode b) := by
  obtain ⟨p, hp, hprefix⟩ := opens_iff.1 h
  simp only [openers, List.mem_cons, List.not_mem_nil, or_false] at hp
  rcases hp with rfl | rfl | rfl | rfl
  · exact absurd hprefix (not_quote_prefix_encode .single)
  · exact absurd hprefix (not_quote_prefix_encode .double)
  · obtain ⟨y, rfl⟩ := exists_of_pair_prefix (by decide) (by decide) hprefix
    exact ⟨'-' :: '-' :: (splitLine y).1, (splitLine y).2, by simp [splitLine_append], by simp,
      .inl ⟨encode (splitLine y).1, rfl, endsLine_encode (ends_splitLine y)⟩⟩
  · obtain ⟨y, rfl⟩ := exists_of_pair_prefix (by decide) (by decide) hprefix
    exact ⟨'/' :: '*' :: (splitBlock y).1, (splitBlock y).2, by simp [splitBlock_append], by simp,
      .inr ⟨encode (splitBlock y).1, rfl, endsBlock_encode (ends_splitBlock y)⟩⟩

/-- The first segment of an encoded text is the encoding of a part of the text. -/
theorem exists_formed_encode (hne : t ≠ []) : ∃ kind a b, t = a ++ b ∧ a ≠ [] ∧ Formed kind (encode a) (encode b) ∧
    (kind = .code → encode b = [] ∨ opens (encode b) = true) := by
  obtain ⟨a, b, rfl, hcode, hrest⟩ := exists_isCode_encode t
  by_cases ha : a = []
  · subst ha
    have hopens : opens (encode b) = true := by
      refine hrest.resolve_left fun hnil => hne ?_
      have hle := length_le_encode b
      rw [hnil] at hle
      simpa using hle
    obtain ⟨a', b', rfl, ha', hformed⟩ := exists_comment_encode hopens
    exact ⟨.comment, a', b', rfl, ha', hformed, fun h => nomatch h⟩
  · exact ⟨.code, a, b, rfl, ha, hcode, fun _ => hrest⟩

/-- The segments of an encoded text are the encodings of parts of the text. -/
theorem exists_segments_encode (t : Text) : ∃ ss : List Segment,
    segments (encode t) = ss.map (fun s => ⟨s.kind, encode s.text⟩) ∧ ss.flatMap Segment.text = t := by
  by_cases hne : t = []
  · exact ⟨[], by simp [hne, segments], hne.symm⟩
  · obtain ⟨kind, a, b, rfl, ha, hformed, hrest⟩ := exists_formed_encode hne
    obtain ⟨ss, hss, hflat⟩ := exists_segments_encode b
    have hencode : encode a ≠ [] := by
      obtain ⟨c, a, rfl⟩ := List.exists_cons_of_ne_nil ha
      simp [encodeChar_ne_nil]
    refine ⟨⟨kind, a⟩ :: ss, ?_, by simp [hflat]⟩
    rw [encode_append, segments_of_formed hencode hformed hrest, hss, List.map_cons]
termination_by t.length
decreasing_by
  have hpos := List.length_pos_iff.2 ha
  subst_vars
  simp only [List.length_append]
  omega

/-! ## Decoding an encoded text -/

/-- A text is its own encoding if this holds no ampersand. -/
theorem encode_eq_self_iff : encode t = t ↔ '&' ∉ encode t := by
  induction t with
  | nil => simp
  | cons c t ih =>
    rcases encodeChar_eq c with ⟨hc, heq⟩ | ⟨name, heq, hne, -, -⟩
    · have hamp : '&' ≠ c := fun h => hc (by simp [← h, special])
      simp [heq, ih, hamp]
    · refine iff_of_false (fun hself => ?_) (by simp [heq])
      have hlength := congrArg List.length hself
      have hle := length_le_encode t
      simp only [encode_cons, heq, List.cons_append, List.length_cons, List.length_append] at hlength
      omega

/-- Parts that are encoded or not make up the text just where the encoded ones are as they were. -/
theorem flatMap_encode_eq_iff {p : Segment → Prop} [DecidablePred p] (ss : List Segment) :
    (ss.flatMap fun s => if p s then s.text else encode s.text) = ss.flatMap Segment.text ↔
      ∀ s ∈ ss, ¬ p s → encode s.text = s.text := by
  have hlength : ∀ ss : List Segment, (ss.flatMap Segment.text).length ≤
      (ss.flatMap fun s => if p s then s.text else encode s.text).length := by
    intro ss
    induction ss with
    | nil => simp
    | cons s ss ih =>
      have hle := length_le_encode s.text
      rw [List.flatMap_cons, List.flatMap_cons, List.length_append, List.length_append]
      split_ifs <;> omega
  induction ss with
  | nil => simp
  | cons s ss ih =>
    rw [List.flatMap_cons, List.flatMap_cons, List.forall_mem_cons]
    by_cases hs : p s
    · simp [hs, ih]
    · simp only [hs, if_false, not_false_eq_true, true_imp_iff]
      constructor
      · intro h
        have hle := length_le_encode s.text
        have hmore := hlength ss
        have hsum := congrArg List.length h
        rw [List.length_append, List.length_append] at hsum
        obtain ⟨hself, hrest⟩ := List.append_inj h (by omega)
        exact ⟨hself, ih.1 hrest⟩
      · rintro ⟨hself, hrest⟩
        rw [hself, ih.2 hrest]

/-- Decoding undoes the encoding of a text if and only if no comment that is seen in the encoded text holds an
entity. -/
theorem decode_encode_iff : decode (encode t) = t ↔ ∀ c ∈ comments (encode t), '&' ∉ c := by
  obtain ⟨ss, hss, hflat⟩ := exists_segments_encode t
  have hdecode : decode (encode t) =
      ss.flatMap fun s => if s.kind ≠ .comment then s.text else encode s.text := by
    rw [decode, mapOutsideComments, mapSegments, hss, List.flatMap_map]
    refine List.flatMap_congr fun s _ => ?_
    simp [replaceAllBy_encode]
  have hcomments : comments (encode t) = (ss.filter fun s => s.kind == .comment).map fun s => encode s.text := by
    rw [comments, hss, List.filter_map, List.map_map]
    rfl
  rw [hdecode, hcomments]
  conv_lhs => rw [← hflat]
  rw [flatMap_encode_eq_iff]
  simp only [not_not, encode_eq_self_iff, List.forall_mem_map, List.mem_filter, beq_iff_eq, and_imp]

/-- A text without comments that does not come back: its literal reads as a comment when it is encoded. -/
theorem decode_encode_dashes : comments "SELECT '--' FROM t" = [] ∧
    decode (encode "SELECT '--' FROM t") = "SELECT '--&apos; FROM t".toList ∧
    decode (encode "SELECT '--' FROM t") ≠ "SELECT '--' FROM t".toList := by
  decide +kernel

end
end DialectBridge.Entity
