import DialectBridge.Proofs.Lexing
import DialectBridge.Proofs.SegmentEdits
/-!
# What the lexer finds in a mask

A mask is read by the same lexer as the query. Each segment gives way to one that stands wherever the old one
stands and in front of whatever stands behind it (`Recast`), so the segments of the new text are the new
segments, with runs of code that meet made one (`segments_recast`). A comment gives way to blanks of code; a
literal or an identifier to one of its kind, because the quote that the mask leaves at its end closes it, or
ends the text (`recast_quoted`). So a mask has no comments, keeps the literals and the identifiers of the
query where they are, and is its own mask.
-/
namespace DialectBridge
open Segment LexState Text

section
variable {s s' : Segment} {t x : Text} {q : Quote}

/-! ## Segments that give way to others -/

/-- What may stand in the place of a segment, of whatever kind. -/
structure Recast (s s' : Segment) : Prop where
  alone : segments s'.text = [s']
  front : ∀ l : LexState, l.joins s.text = true → l.joins s'.text = true
  behind : ∀ y, (code.after s.text).joins y = true → (code.after s'.text).joins y = true

theorem Recast.ne_nil (h : Recast s s') : s'.text ≠ [] := by
  intro hnil
  have halone := h.alone
  rw [hnil] at halone
  simp [segments] at halone

/-- Segments in a row, where code that meets code is one segment. -/
def glued (ss : List Segment) : List Segment := ss.foldr (fun s r => glue [s] r) []

@[simp] theorem glued_nil : glued [] = [] := rfl

theorem glued_cons (s : Segment) (ss : List Segment) : glued (s :: ss) = glue [s] (glued ss) := rfl

/-- The segments of a text whose segments gave way to others. -/
theorem segments_recast {g : Segment → Segment} (h : ∀ s ∈ segments t, Recast s (g s)) :
    segments ((segments t).flatMap fun s => (g s).text) = glued ((segments t).map g) := by
  -- what stands in front of the text also stands in front of the new text
  suffices hjoins : segments ((segments t).flatMap fun s => (g s).text) = glued ((segments t).map g) ∧
      ∀ l : LexState, l.joins t = true → l.joins ((segments t).flatMap fun s => (g s).text) = true from hjoins.1
  fun_induction segments t with
  | case1 => simp [segments]
  | case2 c t ih =>
    obtain ⟨hfirst, hmore⟩ := List.forall_mem_cons.1 h
    obtain ⟨hrest, hjoins⟩ := ih hmore
    rw [List.flatMap_cons]
    refine ⟨?_, fun l hl => ?_⟩
    · rw [segments_append (hfirst.behind _ (hjoins _ (joins_rest c t))), hfirst.alone, hrest, List.map_cons,
        glued_cons]
    · rw [joins_append hfirst.ne_nil]
      refine hfirst.front l ?_
      rwa [← next_append c t, joins_append (next_text_ne_nil c t)] at hl

theorem recast_of_mem (h : s ∈ segments t) : Recast s s := ⟨segments_of_mem h, fun _ => id, fun _ => id⟩

/-- A segment of a text is well formed at the end of a text. -/
theorem formed_of_mem (h : s ∈ segments t) : Formed s.kind s.text [] := by
  have halone := segments_of_mem h
  obtain ⟨c, u, hcu⟩ := List.exists_cons_of_ne_nil (text_ne_nil_of_mem_segments h)
  rw [hcu, segments] at halone
  obtain ⟨hnext, hnil⟩ := List.cons.inj halone
  have hrest : (Segment.next c u).2 = [] := by
    by_contra hne
    exact segments_ne_nil hne hnil
  have hformed := (formed_next c u).1
  rwa [hrest, hnext] at hformed

/-! ## Comments give way to blanks -/

theorem segments_spaces {n : Nat} (hn : n ≠ 0) : segments (spaces n) = [⟨.code, spaces n⟩] := by
  have hne : spaces n ≠ [] := by simpa [spaces] using hn
  have hplain : ∀ c ∈ spaces n, isPlain c = true := fun c hc => isPlain_of_isBlank (isBlank_of_mem_spaces c hc)
  have hunquoted : ∀ c ∈ spaces n, c ≠ '\'' ∧ c ≠ '"' := fun c hc =>
    ⟨ne_quote_of_isPlain (hplain c hc) .single, ne_quote_of_isPlain (hplain c hc) .double⟩
  exact CodeRun.segments_eq ⟨quiet_of_isPlain rfl hplain, hunquoted⟩ hne

theorem recast_comment (h : s ∈ segments t) (hkind : s.kind = .comment) :
    Recast s ⟨.code, spaces (width s.text)⟩ := by
  have hn : width s.text ≠ 0 := (width_pos (text_ne_nil_of_mem_segments h)).ne'
  obtain ⟨n, hn'⟩ := Nat.exists_eq_succ_of_ne_zero hn
  have hspaces : spaces (width s.text) = ' ' :: spaces n := by rw [hn', spaces, List.replicate_succ, spaces]
  have hplain : ∀ c ∈ spaces (width s.text), isPlain c = true :=
    fun c hc => isPlain_of_isBlank (isBlank_of_mem_spaces c hc)
  refine ⟨segments_spaces hn, fun l hl => ?_, fun y _ => ?_⟩
  · have hlive : l.live = true := by
      have hformed := formed_of_mem h
      rw [hkind] at hformed
      rcases hformed with ⟨y, hy, -⟩ | ⟨y, hy, -⟩ <;> rw [hy] at hl <;> exact live_of_joins hl (by decide)
    rw [hspaces]
    exact joins_of_live hlive (by decide)
  · rw [after_of_all_isPlain (s := code) rfl hplain (by simp [hspaces])]
    exact joins_code y

/-! ## Literals and identifiers keep their quotes -/

def Quote.kind : Quote → SegmentKind
  | .single => .literal
  | .double => .identifier

def SegmentKind.isQuoted : SegmentKind → Bool
  | .literal | .identifier => true
  | .code | .comment => false

theorem SegmentKind.isQuoted_iff {kind : SegmentKind} : kind.isQuoted = true ↔ ∃ q : Quote, kind = q.kind := by
  refine ⟨fun h => ?_, ?_⟩
  · cases kind with
    | literal => exact ⟨.single, rfl⟩
    | identifier => exact ⟨.double, rfl⟩
    | code | comment => cases h
  · rintro ⟨q, rfl⟩
    cases q <;> rfl

theorem formed_quote {rest : Text} :
    Formed q.kind x rest ↔ ∃ y, x = q.char :: y ∧ EndsQuoted q.char y rest := by
  cases q <;> rfl

theorem masked_quote (inside : Text) :
    (⟨q.kind, q.char :: inside⟩ : Segment).masked = q.char :: maskInside q.char inside := by
  cases q <;> simp only [Quote.kind, masked, maskInside] <;> split <;> rfl

theorem after_doubled (h : Doubled q.char x) : (quoted q).after x = quoted q := by
  induction h with
  | nil => rfl
  | other hc _ ih => rw [after_cons, step, if_neg hc, ih]
  | pair _ ih => simpa [step] using ih

theorem doubled_spaces (q : Quote) (n : Nat) : Doubled q.char (spaces n) := by
  induction n with
  | zero => exact .nil
  | succ n ih => exact .other (by cases q <;> decide) ih

theorem maskInside_concat (q : Quote) (x : Text) : maskInside q.char (x ++ [q.char]) = spaces (width x) ++ [q.char] := by
  simp [maskInside]

theorem maskInside_of_getLast?_ne (h : x.getLast? ≠ some q.char) : maskInside q.char x = spaces (width x) := by
  rw [maskInside, if_neg h]

/-- The inside of a masked literal is blank, but for a quote at its end. -/
theorem maskInside_eq (q : Quote) (x : Text) :
    ∃ n, maskInside q.char x = spaces n ∨ maskInside q.char x = spaces n ++ [q.char] := by
  rw [maskInside]
  split
  · exact ⟨_, .inr rfl⟩
  · exact ⟨_, .inl rfl⟩

theorem maskInside_maskInside (q : Quote) (x : Text) : maskInside q.char (maskInside q.char x) = maskInside q.char x := by
  obtain ⟨n, hn | hn⟩ := maskInside_eq q x
  · have hlast : (spaces n).getLast? ≠ some q.char := fun hlast => by
      have hmem := List.eq_of_mem_replicate (List.mem_of_getLast? hlast)
      cases q <;> revert hmem <;> decide
    rw [hn, maskInside_of_getLast?_ne hlast, width_spaces]
  · rw [hn, maskInside_concat, width_spaces]

theorem exists_inside (h : s ∈ segments t) (hquoted : s.kind.isQuoted = true) :
    ∃ (q : Quote) (inside : Text), s = ⟨q.kind, q.char :: inside⟩ ∧ EndsQuoted q.char inside [] := by
  obtain ⟨q, hq⟩ := SegmentKind.isQuoted_iff.1 hquoted
  have hformed := formed_of_mem h
  rw [hq, formed_quote] at hformed
  obtain ⟨inside, htext, hends⟩ := hformed
  exact ⟨q, inside, by rw [← hq, ← htext], hends⟩

/-- A quoted segment is closed by the last quote of its mask, or else it ends the text. -/
theorem recast_quoted {inside : Text} (hends : EndsQuoted q.char inside []) :
    Recast ⟨q.kind, q.char :: inside⟩ ⟨q.kind, q.char :: maskInside q.char inside⟩ := by
  have hopen : code.step q.char = quoted q := by cases q <;> rfl
  refine ⟨?_, fun l hl => ?_, fun y hy => ?_⟩
  · have hnew : EndsQuoted q.char (maskInside q.char inside) [] := by
      obtain ⟨n, hn | hn⟩ := maskInside_eq q inside
      · exact .inr ⟨hn ▸ doubled_spaces q n, rfl⟩
      · exact .inl ⟨spaces n, hn, doubled_spaces q n, by simp⟩
    have hformed : Formed q.kind (q.char :: maskInside q.char inside) [] := formed_quote.2 ⟨_, rfl, hnew⟩
    have hsegments := segments_of_formed (by simp) hformed fun hcode => by cases q <;> cases hcode
    simpa [segments] using hsegments
  · exact (joins_cons_append l q.char [] _).trans ((joins_cons_append l q.char [] _).symm.trans hl)
  · rw [after_cons, hopen] at hy ⊢
    rcases hends with ⟨inside, rfl, hdoubled, -⟩ | ⟨hdoubled, -⟩
    · rw [maskInside_concat, after_append, after_doubled (doubled_spaces q _)]
      rwa [after_append, after_doubled hdoubled] at hy
    · -- nothing stands behind a quote that is still open
      rw [after_doubled hdoubled] at hy
      cases y with
      | nil => exact joins_nil _
      | cons c y => exact absurd hy (by simp [joins])

/-! ## Runs of code made one -/

theorem isQuoted_ne_code {kind : SegmentKind} (h : kind.isQuoted = true) : kind ≠ .code := by
  rintro rfl
  cases h

theorem flatMap_masked_glued (ss : List Segment) : (glued ss).flatMap masked = ss.flatMap masked := by
  induction ss with
  | nil => rfl
  | cons s ss ih =>
    have hcode : ∀ x ∈ [s].getLast?, ∀ y ∈ (glued ss).head?, x.kind = .code → y.kind = .code →
        masked ⟨.code, x.text ++ y.text⟩ = x.masked ++ y.masked := by
      intro x _ y _ hx hy
      rw [masked, masked, masked, hx, hy]
    rw [glued_cons, flatMap_glue hcode, ih, List.flatMap_singleton, List.flatMap_cons]

/-- A segment is put in front, or it is code and runs into the code that stands there. -/
theorem glue_cases (s : Segment) (r : List Segment) : glue [s] r = s :: r ∨
    ∃ a b r', s = ⟨.code, a⟩ ∧ r = ⟨.code, b⟩ :: r' ∧ glue [s] r = ⟨.code, a ++ b⟩ :: r' := by
  by_cases hcode : s.kind = .code ∧ ∃ s' ∈ r.head?, s'.kind = .code
  · obtain ⟨hs, ⟨_, b⟩, hhead, rfl⟩ := hcode
    obtain ⟨_, a⟩ := s
    obtain ⟨r', rfl⟩ := List.head?_eq_some_iff.1 hhead
    obtain rfl : _ = SegmentKind.code := hs
    exact .inr ⟨a, b, r', rfl, rfl, rfl⟩
  · exact .inl (glue_singleton hcode)

theorem mem_or_code_of_mem_glued {ss : List Segment} (h : s ∈ glued ss) : s ∈ ss ∨ s.kind = .code := by
  induction ss with
  | nil => exact .inl h
  | cons first ss ih =>
    rw [glued_cons] at h
    rcases glue_cases first (glued ss) with hglue | ⟨a, b, r, rfl, hr, hglue⟩ <;> rw [hglue] at h <;>
      rcases List.mem_cons.1 h with rfl | h
    · exact .inl List.mem_cons_self
    · exact (ih h).imp_left (List.mem_cons_of_mem _)
    · exact .inr rfl
    · exact (ih (hr ▸ List.mem_cons_of_mem _ h)).imp_left (List.mem_cons_of_mem _)

/-- Where the literals and the identifiers stand does not depend on how the code is cut. -/
theorem filter_spansFrom_glued (i : Nat) (ss : List Segment) :
    (spansFrom i (glued ss)).filter (fun s => s.1.isQuoted) = (spansFrom i ss).filter fun s => s.1.isQuoted := by
  induction ss generalizing i with
  | nil => rfl
  | cons first ss ih =>
    rw [glued_cons]
    rcases glue_cases first (glued ss) with hglue | ⟨a, b, r, rfl, hr, hglue⟩
    · rw [hglue, spansFrom, spansFrom, List.filter_cons, List.filter_cons, ih]
    · have hrest := ih (i + width a)
      rw [hr] at hrest
      simpa [hglue, spansFrom, SegmentKind.isQuoted, Nat.add_assoc] using hrest

theorem filter_spansFrom_map {g : Segment → Segment} (i : Nat) {ss : List Segment}
    (hkind : ∀ s ∈ ss, (g s).kind = s.kind ∨ (g s).kind.isQuoted = false ∧ s.kind.isQuoted = false)
    (hwidth : ∀ s ∈ ss, width (g s).text = width s.text) :
    (spansFrom i (ss.map g)).filter (fun s => s.1.isQuoted) = (spansFrom i ss).filter fun s => s.1.isQuoted := by
  induction ss generalizing i with
  | nil => rfl
  | cons s ss ih =>
    rw [List.forall_mem_cons] at hkind hwidth
    rw [List.map_cons, spansFrom, spansFrom, List.filter_cons, List.filter_cons, hwidth.1, ih _ hkind.2 hwidth.2]
    rcases hkind.1 with hk | ⟨hk, hk'⟩
    · rw [hk]
    · simp [hk, hk']

theorem exists_of_mem_spansFrom {i : Nat} {ss : List Segment} {span : SegmentKind × Span} (h : span ∈ spansFrom i ss) :
    ∃ l s r, ss = l ++ s :: r ∧
      span = (s.kind, ⟨i + width (l.flatMap text), i + width (l.flatMap text) + width s.text⟩) := by
  induction ss generalizing i with
  | nil => cases h
  | cons first ss ih =>
    rcases List.mem_cons.1 h with rfl | h
    · exact ⟨[], first, ss, rfl, by simp⟩
    · obtain ⟨l, s, r, rfl, rfl⟩ := ih h
      exact ⟨first :: l, s, r, rfl, by simp [Nat.add_assoc]⟩

/-! ## Masks -/

/-- A segment as the mask has it. -/
def Segment.blanked (s : Segment) : Segment := ⟨if s.kind = .comment then .code else s.kind, s.masked⟩

/-- A segment, with blanks of code for a comment. -/
def Segment.uncommented (s : Segment) : Segment :=
  if s.kind = .comment then ⟨.code, spaces (width s.text)⟩ else s

theorem blanked_quote (q : Quote) (inside : Text) :
    blanked ⟨q.kind, q.char :: inside⟩ = ⟨q.kind, q.char :: maskInside q.char inside⟩ := by
  have hkind : q.kind ≠ .comment := by cases q <;> decide
  rw [blanked, masked_quote, if_neg hkind]

/-- The mask shows a segment of code, blanks for a comment, or a quoted segment that is blank inside. -/
theorem blanked_cases (h : s ∈ segments t) : s.kind = .code ∧ s.blanked = s ∨
    s.kind = .comment ∧ s.blanked = ⟨.code, spaces (width s.text)⟩ ∨
    ∃ (q : Quote) (inside : Text), s = ⟨q.kind, q.char :: inside⟩ ∧ EndsQuoted q.char inside [] ∧
      s.blanked = ⟨q.kind, q.char :: maskInside q.char inside⟩ := by
  by_cases hquoted : s.kind.isQuoted = true
  · obtain ⟨q, inside, rfl, hends⟩ := exists_inside h hquoted
    exact .inr (.inr ⟨q, inside, rfl, hends, blanked_quote q inside⟩)
  · obtain ⟨kind, text⟩ := s
    cases kind with
    | code => exact .inl ⟨rfl, rfl⟩
    | comment => exact .inr (.inl ⟨rfl, rfl⟩)
    | literal | identifier => exact absurd rfl hquoted

theorem recast_blanked (h : s ∈ segments t) : Recast s s.blanked := by
  rcases blanked_cases h with ⟨-, heq⟩ | ⟨hcomment, heq⟩ | ⟨q, inside, rfl, hends, heq⟩ <;> rw [heq]
  · exact recast_of_mem h
  · exact recast_comment h hcomment
  · exact recast_quoted hends

theorem recast_uncommented (h : s ∈ segments t) : Recast s s.uncommented := by
  rw [uncommented]
  split
  · rename_i hcomment
    exact recast_comment h hcomment
  · exact recast_of_mem h

theorem masked_blanked (h : s ∈ segments t) : s.blanked.masked = s.masked := by
  rcases blanked_cases h with ⟨-, heq⟩ | ⟨hcomment, heq⟩ | ⟨q, inside, rfl, -, heq⟩ <;> rw [heq]
  · simp [masked, hcomment]
  · rw [masked_quote, masked_quote, maskInside_maskInside]

theorem masked_uncommented (s : Segment) : s.uncommented.masked = s.masked := by
  rw [uncommented]
  split
  · rename_i hcomment
    simp [masked, hcomment]
  · rfl

theorem mask_recast {g : Segment → Segment} (h : ∀ s ∈ segments t, Recast s (g s))
    (hmasked : ∀ s ∈ segments t, (g s).masked = s.masked) :
    mask ((segments t).flatMap fun s => (g s).text) = mask t := by
  rw [mask, segments_recast h, flatMap_masked_glued, List.flatMap_map, mask]
  exact List.flatMap_congr hmasked

theorem segments_mask (t : Text) : segments (mask t) = glued ((segments t).map blanked) :=
  segments_recast fun _ => recast_blanked

theorem mask_mask (t : Text) : mask (mask t) = mask t :=
  mask_recast (fun _ => recast_blanked) fun _ => masked_blanked

theorem mask_maskComments (t : Text) : mask (maskComments t) = mask t := by
  have htext : maskComments t = (segments t).flatMap fun s => s.uncommented.text := by
    refine List.flatMap_congr fun s _ => ?_
    rw [uncommented]
    by_cases hcomment : s.kind = .comment <;> simp [hcomment]
  rw [htext]
  exact mask_recast (fun _ => recast_uncommented) fun s _ => masked_uncommented s

theorem kind_ne_comment_of_mem_mask (h : s ∈ segments (mask t)) : s.kind ≠ .comment := by
  rw [segments_mask] at h
  rcases mem_or_code_of_mem_glued h with h | h
  · obtain ⟨s, hs, rfl⟩ := List.mem_map.1 h
    rcases blanked_cases hs with ⟨hcode, heq⟩ | ⟨-, heq⟩ | ⟨q, inside, rfl, -, heq⟩ <;> rw [heq]
    · simp [hcode]
    · simp
    · cases q <;> simp [Quote.kind]
  · simp [h]

theorem quoted_segmentSpans_mask (t : Text) :
    (segmentSpans (mask t)).filter (fun s => s.1.isQuoted) = (segmentSpans t).filter fun s => s.1.isQuoted := by
  rw [segmentSpans, segments_mask, filter_spansFrom_glued]
  refine filter_spansFrom_map 0 (fun s hs => ?_) fun s _ => s.width_masked
  rcases blanked_cases hs with ⟨-, heq⟩ | ⟨hcomment, heq⟩ | ⟨q, inside, rfl, -, heq⟩ <;> rw [heq]
  · exact .inl rfl
  · exact .inr ⟨rfl, by rw [hcomment]; rfl⟩
  · exact .inl rfl

/-- Between the first and the last character of a masked literal stand blanks only. -/
theorem eq_space_of_mem_quoted (h : s ∈ segments (mask t)) (hquoted : s.kind.isQuoted = true) :
    ∀ c ∈ s.text.tail.dropLast, c = ' ' := by
  rw [segments_mask] at h
  rcases mem_or_code_of_mem_glued h with h | h
  · obtain ⟨s, hs, rfl⟩ := List.mem_map.1 h
    rcases blanked_cases hs with ⟨hcode, heq⟩ | ⟨-, heq⟩ | ⟨q, inside, rfl, -, heq⟩ <;> rw [heq] at hquoted ⊢
    · exact absurd hcode (isQuoted_ne_code hquoted)
    · cases hquoted
    · intro c hc
      obtain ⟨n, hn | hn⟩ := maskInside_eq q inside
      · rw [hn] at hc
        exact List.eq_of_mem_replicate (List.mem_of_mem_dropLast hc)
      · rw [hn, List.tail_cons, List.dropLast_concat] at hc
        exact List.eq_of_mem_replicate hc
  · exact absurd h (isQuoted_ne_code hquoted)

/-- Code is the same in a text and in its mask. -/
theorem slice?_mask_of_code {span : Span} (h : (SegmentKind.code, span) ∈ segmentSpans t) :
    ∃ x, slice? t span.start span.stop = some x ∧ slice? (mask t) span.start span.stop = some x := by
  obtain ⟨l, s, r, hsegments, hspan⟩ := exists_of_mem_spansFrom h
  obtain ⟨hcode, rfl⟩ := Prod.mk.inj hspan
  have ht : t = l.flatMap text ++ (s.text ++ r.flatMap text) := by
    rw [← segments_flatten t, hsegments, List.flatMap_append, List.flatMap_cons]
  have hm : mask t = l.flatMap masked ++ (s.text ++ r.flatMap masked) := by
    have hmasked : s.masked = s.text := by rw [masked, ← hcode]
    rw [mask, hsegments, List.flatMap_append, List.flatMap_cons, hmasked]
  simp only [Nat.zero_add]
  refine ⟨s.text, ?_, ?_⟩
  · rw [ht]
    simpa using slice?_append (l.flatMap text) s.text (r.flatMap text)
  · rw [hm, ← width_flatMap_masked]
    simpa using slice?_append (l.flatMap masked) s.text (r.flatMap masked)

/-- The mask of a text has its bytes, shows its code as it is, has no comment, and has its literals and its
identifiers, also one that is still open, each blank but for its first and its last byte. So it is its own
mask, and the mask of the text whose comments alone are blanked. -/
theorem mask_lexical_structure (sql : Text) :
    width (mask sql) = width sql ∧
      (∀ span, (SegmentKind.code, span) ∈ segmentSpans sql →
        ∃ x, slice? sql span.start span.stop = some x ∧ slice? (mask sql) span.start span.stop = some x) ∧
      (∀ s ∈ segments (mask sql), s.kind ≠ .comment) ∧
      (segmentSpans (mask sql)).filter (fun s => s.1.isQuoted) =
        (segmentSpans sql).filter (fun s => s.1.isQuoted) ∧
      (∀ s ∈ segments (mask sql), s.kind.isQuoted = true → ∀ c ∈ s.text.tail.dropLast, c = ' ') ∧
      mask (mask sql) = mask sql ∧ mask (maskComments sql) = mask sql :=
  ⟨width_mask sql, fun _ => slice?_mask_of_code, fun _ => kind_ne_comment_of_mem_mask,
    quoted_segmentSpans_mask sql, fun _ => eq_space_of_mem_quoted, mask_mask sql, mask_maskComments sql⟩

end

end DialectBridge
