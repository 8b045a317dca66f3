import DialectBridge.Proofs.Masking
import DialectBridge.Proofs.Tokens
/-!
# Tokens of masked queries

Which tokens a query shows, and what becomes of them when text is put in: where the lexer is in
code, the text shows its own tokens (`tokens_mask_append`); where it is not, nothing of it is seen
(`tokens_mask_dull`).
-/
namespace DialectBridge
open Pattern LexState

theorem isFirm_of_isWordChar {c : Char} (h : Unicode.isWordChar c = true) : isFirm c = true := by
  by_contra hc
  simp only [isFirm, isPlain, Bool.and_eq_true, bne_iff_ne, ne_eq, not_and_or, not_not] at hc
  rcases hc with ((((rfl | rfl) | rfl) | rfl) | rfl) | rfl <;> exact absurd h (by decide)

theorem isPlain_of_isWordChar {c : Char} (h : Unicode.isWordChar c = true) : isPlain c = true :=
  isPlain_of_isFirm (isFirm_of_isWordChar h)

theorem isPlain_of_isBlank {c : Char} (h : Unicode.isBlank c = true) : isPlain c = true := by
  by_contra hc
  simp only [isPlain, Bool.and_eq_true, bne_iff_ne, ne_eq, not_and_or, not_not] at hc
  rcases hc with (((rfl | rfl) | rfl) | rfl) | rfl <;> exact absurd h (by decide)

/-- Behind a live place, text that begins with a plain character is lexed on its own. -/
theorem joins_of_head?_isPlain {s : LexState} (hs : s.live = true) {b : Text}
    (hb : ∀ c ∈ b.head?, isPlain c = true) : s.joins b = true := by
  cases b with
  | nil => simp
  | cons c b => exact joins_of_live hs (hb c rfl)

theorem exists_trimStart (t : Text) :
    ∃ b, t = b ++ Text.trimStart t ∧ (∀ c ∈ b, Unicode.isBlank c = true) ∧ code.after b = code := by
  have hb : ∀ c ∈ t.takeWhile Unicode.isBlank, Unicode.isBlank c = true :=
    List.all_eq_true.1 List.all_takeWhile
  refine ⟨t.takeWhile Unicode.isBlank, List.takeWhile_append_dropWhile.symm, hb, ?_⟩
  by_cases hne : t.takeWhile Unicode.isBlank = []
  · rw [hne, after_nil]
  · exact after_of_all_isPlain rfl (fun c hc => isPlain_of_isBlank (hb c hc)) hne

/-- Plain text is shown in front of anything. -/
theorem mask_plain_between {a x b : Text} (ha : (code.after a).live = true)
    (hx : ∀ c ∈ x, isPlain c = true) (hne : x ≠ []) :
    mask (a ++ (x ++ b)) = mask a ++ (x ++ mask b) := by
  have hj : (code.after a).joins (x ++ b) = true := by
    cases x with
    | nil => exact absurd rfl hne
    | cons c x => exact joins_of_live ha (hx c (by simp))
  rw [mask_append hj, mask_append, mask_of_all_isPlain hx]
  rw [after_of_all_isPlain rfl hx hne]
  exact joins_code b

/-- Plain text at the start of a query is shown. -/
theorem mask_plain_append {x : Text} (hx : ∀ c ∈ x, isPlain c = true) (b : Text) :
    mask (x ++ b) = x ++ mask b := by
  by_cases hne : x = []
  · rw [hne]
    rfl
  · have := mask_plain_between (a := []) (b := b) rfl hx hne
    rwa [mask_nil, List.nil_append, List.nil_append] at this

/-- The word that a text begins with is shown. -/
theorem mask_eq_first_word (t : Text) :
    mask t = t.takeWhile Unicode.isWordChar ++ mask (t.dropWhile Unicode.isWordChar) := by
  have hword : ∀ c ∈ t.takeWhile Unicode.isWordChar, Unicode.isWordChar c = true :=
    List.all_eq_true.1 List.all_takeWhile
  conv_lhs => rw [← List.takeWhile_append_dropWhile (p := Unicode.isWordChar) (l := t)]
  exact mask_plain_append (fun c hc => isPlain_of_isWordChar (hword c hc)) _

/-- What the mask shows of one character is that character, or white space. -/
theorem glance_eq (s : LexState) (c : Char) (t : Text) :
    s.glance c t = [c] ∨ ∃ n, s.glance c t = ' ' :: Text.spaces n := by
  rw [glance]
  split_ifs
  · obtain ⟨n, hn⟩ := Nat.exists_eq_succ_of_ne_zero (Nat.ne_of_gt c.utf8Size_pos)
    exact .inr ⟨n, by rw [hn]; rfl⟩
  · exact .inl rfl

theorem beginsInWord_maskFrom {s : LexState} {c : Char} (hc : Unicode.isWordChar c = false)
    (t : Text) : beginsInWord (maskFrom s (c :: t)) = false := by
  rw [maskFrom_cons]
  rcases glance_eq s c t with h | ⟨n, h⟩
  · rw [h]
    exact hc
  · rw [h]
    rfl

/-- A masked query begins with a word just where the query does. -/
theorem beginsInWord_mask (b : Text) : beginsInWord (mask b) = beginsInWord b := by
  cases b with
  | nil => rw [mask_nil]
  | cons c b =>
    cases hc : Unicode.isWordChar c with
    | true =>
      rw [mask_cons_of_isPlain (isPlain_of_isWordChar hc)]
      rfl
    | false =>
      rw [← maskFrom_code, beginsInWord_maskFrom hc]
      exact hc.symm

theorem maskFrom_ne_nil (s : LexState) {t : Text} (h : t ≠ []) : maskFrom s t ≠ [] := by
  obtain ⟨c, t, rfl⟩ := List.exists_cons_of_ne_nil h
  rw [maskFrom_cons]
  rcases glance_eq s c t with h | ⟨n, h⟩ <;> simp [h]

theorem endsInWord_maskFrom {s : LexState} {c : Char} (hc : Unicode.isWordChar c = false)
    (t : Text) : endsInWord (maskFrom s (t ++ [c])) = false := by
  induction t generalizing s with
  | nil =>
    rw [List.nil_append, maskFrom_cons, maskFrom_nil, List.append_nil]
    rcases glance_eq s c [] with h | ⟨n, h⟩
    · rw [h]
      exact hc
    · have hspaces : ' ' :: Text.spaces n = Text.spaces n ++ [' '] := List.replicate_succ'
      rw [h, hspaces, endsInWord_append (by simp)]
      rfl
  | cons d t ih =>
    rw [List.cons_append, maskFrom_cons, endsInWord_append (maskFrom_ne_nil _ (by simp))]
    exact ih

/-- A masked text ends in a word just where the text does, if it ends in code. -/
theorem endsInWord_mask {a : Text} (ha : (code.after a).live = true) :
    endsInWord (mask a) = endsInWord a := by
  rcases List.eq_nil_or_concat a with rfl | ⟨t, c, rfl⟩
  · rw [mask_nil]
  rw [List.concat_eq_append] at ha ⊢
  cases hc : Unicode.isWordChar c with
  | false =>
    rw [← maskFrom_code, endsInWord_maskFrom hc, endsInWord_append (by simp)]
    exact hc.symm
  | true =>
    have hlive : (code.after t).live = true := by
      by_contra hdead
      rw [Bool.not_eq_true] at hdead
      have hdull : isDull (code.after t) c = true := by
        refine isDull_of_ne (isPlain_of_isWordChar hc) ?_ _
        rintro rfl
        exact absurd hc (by decide)
      rw [after_append, after_cons, after_nil, step_of_isDull hdead hdull, live_settle] at ha
      exact absurd ha (by simp [hdead])
    have hplain : ∀ d ∈ [c], isPlain d = true := by simpa using isPlain_of_isWordChar hc
    have hmask := mask_plain_between (b := []) hlive hplain (by simp)
    rw [List.append_nil, mask_nil, List.append_nil] at hmask
    rw [hmask, endsInWord_append (by simp), endsInWord_append (by simp)]

theorem tokens_mask_append {a b : Text} (hj : (code.after a).joins b = true)
    (h : Apart (mask a) (mask b)) : tokens (mask (a ++ b)) = tokens (mask a) ++ tokens (mask b) := by
  rw [mask_append hj, tokens_append h]

theorem isBlank_of_mem_spaces {n : Nat} : ∀ c ∈ Text.spaces n, Unicode.isBlank c = true := by
  intro c hc
  obtain rfl := List.eq_of_mem_replicate hc
  decide

theorem tokens_append_spaces (t : Text) (n : Nat) (u : Text) :
    tokens (t ++ (Text.spaces n ++ u)) = if n = 0 then tokens (t ++ u) else tokens t ++ tokens u := by
  split_ifs with hn
  · subst hn
    rfl
  · obtain ⟨m, rfl⟩ := Nat.exists_eq_succ_of_ne_zero hn
    have hb : beginsInWord (Text.spaces (m + 1) ++ u) = false := rfl
    have he : endsInWord (Text.spaces (m + 1)) = false := by
      rw [spaces_add, endsInWord_append (by simp [Text.spaces])]
      rfl
    rw [tokens_append (.of_begins hb t), tokens_append (.of_ends he u),
      tokens_blanks isBlank_of_mem_spaces, List.nil_append]

/-! ## Cutting at words and white space -/

/-- A word that a masked query shows is a word of the query. -/
theorem exists_cut_word {sql u w v : Text} (hne : w ≠ [])
    (hw : ∀ c ∈ w, Unicode.isWordChar c = true) (h : mask sql = u ++ (w ++ v)) :
    ∃ a b, sql = a ++ (w ++ b) ∧ mask a = u ∧ mask b = v ∧ (code.after a).live = true ∧
      code.after (a ++ w) = code := by
  obtain ⟨c, w, rfl⟩ := List.exists_cons_of_ne_nil hne
  have hfirm : ∀ {w t : Text}, (∀ c ∈ w, Unicode.isWordChar c = true) → mask t = w ++ v →
      ∃ b, t = w ++ b ∧ mask b = v := by
    intro w
    induction w with
    | nil => exact fun _ ht => ⟨_, rfl, ht⟩
    | cons d w ih =>
      intro t hw ht
      obtain ⟨a, b, rfl, ha, hb, -⟩ :=
        exists_of_mask_eq (u := []) (isFirm_of_isWordChar (hw d (by simp))) ht
      obtain rfl : a = [] := by
        by_contra hne
        exact mask_ne_nil hne ha
      obtain ⟨b, rfl, hrest⟩ := ih (fun c hc => hw c (by simp [hc])) hb
      exact ⟨b, rfl, hrest⟩
  obtain ⟨a, t, rfl, ha, ht, hj⟩ := exists_of_mask_eq (isFirm_of_isWordChar (hw c (by simp))) h
  obtain ⟨b, rfl, hb⟩ := hfirm (fun d hd => hw d (by simp [hd])) ht
  have hlive : (code.after a).live = true := by
    refine live_of_joins hj ?_
    rintro rfl
    exact absurd (hw '\n' (by simp)) (by decide)
  refine ⟨a, b, rfl, ha, hb, hlive, ?_⟩
  rw [after_append]
  exact after_of_all_isPlain hlive (fun d hd => isPlain_of_isWordChar (hw d hd)) hne

/-- Whether the lexer is not between quotes. -/
def unquoted : LexState → Bool
  | quoted _ | closed _ => false
  | _ => true

theorem unquoted_step_of_isBlank {s : LexState} (hs : unquoted s = true) {c : Char}
    (hc : Unicode.isBlank c = true) : unquoted (s.step c) = true := by
  have hcode := ofCode_of_isPlain (isPlain_of_isBlank hc)
  cases s with
  | quoted q | closed q => simp [unquoted] at hs
  | code => rw [step, hcode]; rfl
  | minus | slash | line | block | star =>
    simp only [step, hcode]
    split_ifs <;> rfl

/-- No quote is hidden outside of quotes. -/
theorem unquoted_step_of_hides {s : LexState} (hs : unquoted s = true) {c : Char} {t : Text}
    (h : s.hides c t = true) : unquoted (s.step c) = true := by
  have hcomment : beginsComment c t = true → unquoted (ofCode c) = true := by
    intro hc
    simp only [beginsComment, Bool.or_eq_true, Bool.and_eq_true, beq_iff_eq] at hc
    rcases hc with ⟨rfl, -⟩ | ⟨rfl, -⟩ <;> rfl
  cases s with
  | quoted q | closed q => simp [unquoted] at hs
  | code => exact hcomment h
  | minus =>
    simp only [hides, Bool.or_eq_true, beq_iff_eq] at h
    simp only [step]
    split_ifs with hc
    · rfl
    · exact hcomment (h.resolve_left hc)
  | slash =>
    simp only [hides, Bool.or_eq_true, beq_iff_eq] at h
    simp only [step]
    split_ifs with hc
    · rfl
    · exact hcomment (h.resolve_left hc)
  | line | block | star =>
    simp only [step]
    split_ifs <;> rfl

/-- What is shown outside of quotes is lexed on its own. -/
theorem joins_of_unquoted {s : LexState} (hs : unquoted s = true) {c : Char} {t : Text}
    (hc : Unicode.isBlank c = false) (h : s.hides c t = false) : s.joins (c :: t) = true := by
  cases s with
  | quoted q | closed q => simp [unquoted] at hs
  | code => rfl
  | minus | slash =>
    simp only [hides, Bool.or_eq_false_iff] at h
    simpa [joins, bne] using h.1
  | line =>
    simp only [hides, bne_eq_false_iff_eq] at h
    subst h
    exact absurd hc (by decide)
  | block | star => simp [hides] at h

theorem exists_cut_blanks_from {s : LexState} (hs : unquoted s = true) {t b v : Text} {z : Char}
    (h : maskFrom s t = b ++ z :: v) (hb : ∀ c ∈ b, Unicode.isBlank c = true)
    (hz : Unicode.isBlank z = false) :
    ∃ x y, t = x ++ y ∧ maskFrom s x = b ∧ mask y = z :: v ∧ (s.after x).joins y = true := by
  induction t generalizing s b with
  | nil => simp at h
  | cons c t ih =>
    have hagain : ∀ (g b' : Text), s.glance c t = g → b = g ++ b' → unquoted (s.step c) = true →
        maskFrom (s.step c) t = b' ++ z :: v →
        ∃ x y, c :: t = x ++ y ∧ maskFrom s x = b ∧ mask y = z :: v ∧ (s.after x).joins y = true := by
      rintro g b' rfl rfl hs' ht
      obtain ⟨x, y, rfl, hx, hy, hj⟩ := ih hs' ht fun d hd => hb d (List.mem_append_right _ hd)
      refine ⟨c :: x, y, rfl, ?_, hy, hj⟩
      rw [maskFrom_cons, hx, glance, glance, hides_append hj]
    rw [maskFrom_cons] at h
    cases hhides : s.hides c t with
    | true =>
      have hg : s.glance c t = Text.spaces c.utf8Size := by rw [glance, if_pos hhides]
      have hstep := unquoted_step_of_hides hs hhides
      rw [hg] at h
      rcases List.append_eq_append_iff.1 h with ⟨b', rfl, hrest⟩ | ⟨as, has, hrest⟩
      · exact hagain _ _ hg rfl hstep hrest
      · cases as with
        | nil =>
          rw [List.append_nil] at has
          exact hagain _ [] hg (by rw [has, List.append_nil]) hstep hrest.symm
        | cons d as =>
          obtain ⟨rfl, -⟩ := List.cons.inj hrest
          have := isBlank_of_mem_spaces (n := c.utf8Size) z (by rw [has]; simp)
          exact absurd (this.symm.trans hz) (by decide)
    | false =>
      have hg : s.glance c t = [c] := by rw [glance, if_neg (by simp [hhides])]
      rw [hg] at h
      cases b with
      | nil =>
        obtain ⟨rfl, rfl⟩ := List.cons.inj h
        have hj := joins_of_unquoted hs hz hhides
        refine ⟨[], c :: t, rfl, rfl, ?_, hj⟩
        rw [← maskFrom_code, ← maskFrom_of_joins hj, maskFrom_cons, hg]
        rfl
      | cons d b =>
        obtain ⟨rfl, hrest⟩ := List.cons.inj h
        exact hagain _ _ hg rfl (unquoted_step_of_isBlank hs (hb c (by simp))) hrest

/-- White space that a masked query shows first can be cut off. -/
theorem exists_cut_blanks {t b v : Text} (h : mask t = b ++ v)
    (hb : ∀ c ∈ b, Unicode.isBlank c = true) (hv : ∀ c ∈ v.head?, Unicode.isBlank c = false) :
    ∃ x y, t = x ++ y ∧ mask x = b ∧ mask y = v ∧ (code.after x).joins y = true := by
  cases v with
  | nil => exact ⟨t, [], (List.append_nil t).symm, by simpa using h, mask_nil, joins_nil _⟩
  | cons z v =>
    rw [← maskFrom_code] at h
    obtain ⟨x, y, rfl, hx, hy, hj⟩ := exists_cut_blanks_from rfl h hb (hv z rfl)
    exact ⟨x, y, rfl, by rwa [maskFrom_code] at hx, hy, hj⟩

/-! ## Cutting behind what is shown -/

/-- The mask of a text up to any place has as many bytes as the text. -/
theorem exists_maskFrom_prefix (s : LexState) (a b : Text) :
    ∃ k, maskFrom s (a ++ b) = k ++ maskFrom (s.after a) b ∧ Text.width k = Text.width a := by
  induction a generalizing s with
  | nil => exact ⟨[], rfl, rfl⟩
  | cons c a ih =>
    obtain ⟨k, hk, hwidth⟩ := ih (s.step c)
    refine ⟨s.glance c (a ++ b) ++ k, ?_, ?_⟩
    · rw [List.cons_append, maskFrom_cons, hk, List.append_assoc, after_cons]
    · rw [Text.width_append, hwidth, Text.width_cons, glance]
      split_ifs
      · rw [Text.width_spaces]
      · rfl

/-- A masked query can be cut at the places at which the query can. -/
theorem exists_mask_cuts (a b c : Text) :
    ∃ x y z, mask (a ++ (b ++ c)) = x ++ y ++ z ∧ Text.width x = Text.width a ∧
      Text.width y = Text.width b := by
  obtain ⟨x, hx, hwidth⟩ := exists_maskFrom_prefix code a (b ++ c)
  obtain ⟨y, hy, hwidth'⟩ := exists_maskFrom_prefix (code.after a) b c
  exact ⟨x, y, _, by rw [← maskFrom_code, hx, hy, List.append_assoc], hwidth, hwidth'⟩

/-- A text that joins, or goes on in a line comment, is masked apart. -/
theorem mask_append_maskFrom {a b : Text}
    (h : (code.after a).joins b = true ∨ code.after a = line) :
    mask (a ++ b) = mask a ++ maskFrom (code.after a) b := by
  rcases h with h | h
  · rw [mask_append h, maskFrom_of_joins h, maskFrom_code]
  · by_cases hb : b = []
    · rw [hb, List.append_nil, maskFrom_nil, List.append_nil]
    obtain ⟨m, hm, hend | ⟨n, q, hq, -⟩⟩ := exists_maskFrom_append (s := code) (a := a) (by rw [h]; rfl)
    · rw [← maskFrom_code, hm b hb, ← hend, maskFrom_code]
    · simp [h] at hq

/-- Behind what is shown the text is lexed on its own, unless a literal was opened. -/
theorem joins_step_of_shown {s : LexState} {c : Char} {t : Text} (hc : Unicode.isBlank c = false)
    (h : s.hides c t = false) :
    ((s.step c).live = true ∧ (s.step c).joins t = true) ∨ ∃ q, s.step c = quoted q := by
  have hcode : beginsComment c t = false →
      ((ofCode c).live = true ∧ (ofCode c).joins t = true) ∨ ∃ q, ofCode c = quoted q := by
    intro hcomment
    by_cases h1 : c = '\''
    · exact .inr ⟨.single, by rw [h1]; rfl⟩
    by_cases h2 : c = '"'
    · exact .inr ⟨.double, by rw [h2]; rfl⟩
    refine .inl ⟨?_, Segment.joins_of_not_opens ?_⟩
    · rw [ofCode, if_neg h1, if_neg h2]
      split_ifs <;> rfl
    · rw [opens_cons, hcomment]
      simp [h1, h2]
  cases s with
  | code => exact hcode h
  | minus | slash =>
    simp only [hides, Bool.or_eq_false_iff, beq_eq_false_iff_ne] at h
    rw [step, if_neg h.1]
    exact hcode h.2
  | quoted q =>
    simp only [hides, Bool.or_eq_false_iff, bne_eq_false_iff_eq, beq_eq_false_iff_ne] at h
    rw [step, if_pos h.1]
    refine .inl ⟨rfl, ?_⟩
    cases t with
    | nil => rfl
    | cons d t =>
      have hd : d ≠ q.char := by simpa using h.2
      simpa [joins] using hd
  | closed q =>
    by_cases hq : c = q.char
    · exact .inr ⟨q, by rw [step, if_pos hq]⟩
    · rw [hides, if_neg hq] at h
      rw [step, if_neg hq]
      exact hcode h
  | line =>
    simp only [hides, bne_eq_false_iff_eq] at h
    subst h
    exact absurd hc (by decide)
  | block | star => simp [hides] at h

/-- A literal of which nothing more is shown stays open. -/
theorem not_live_of_quoted {q : Quote} {t : Text}
    (h : ∀ c ∈ maskFrom (quoted q) t, Unicode.isBlank c = true) :
    ((quoted q).after t).live = false := by
  have hquote : Unicode.isBlank q.char = false := by cases q <;> decide
  have key : ((∀ c ∈ maskFrom (quoted q) t, Unicode.isBlank c = true) →
        ((quoted q).after t).live = false) ∧
      (t.head? = some q.char → (∀ c ∈ maskFrom (closed q) t, Unicode.isBlank c = true) →
        ((closed q).after t).live = false) := by
    clear h
    induction t with
    | nil => exact ⟨fun _ => rfl, by simp⟩
    | cons c t ih =>
      have hrest : ∀ s : LexState, (∀ d ∈ maskFrom s (c :: t), Unicode.isBlank d = true) →
          ∀ d ∈ maskFrom (s.step c) t, Unicode.isBlank d = true := fun s h d hd =>
        h d (by rw [maskFrom_cons]; exact List.mem_append_right _ hd)
      have hhidden : ∀ s : LexState, c = q.char →
          (∀ d ∈ maskFrom s (c :: t), Unicode.isBlank d = true) → s.hides c t = true := by
        intro s hc h
        by_contra hshown
        have := h c (by rw [maskFrom_cons, glance, if_neg hshown]; simp)
        rw [hc, hquote] at this
        exact absurd this (by decide)
      refine ⟨fun h => ?_, fun hhead h => ?_⟩
      · by_cases hc : c = q.char
        · have := hhidden _ hc h
          simp only [hides, hc, bne_self_eq_false, Bool.false_or, beq_iff_eq] at this
          have hstep : (quoted q).step c = closed q := by rw [step, if_pos hc]
          rw [after_cons, hstep]
          exact ih.2 this (hstep ▸ hrest _ h)
        · have hstep : (quoted q).step c = quoted q := by rw [step, if_neg hc]
          rw [after_cons, hstep]
          exact ih.1 (hstep ▸ hrest _ h)
      · have hc : c = q.char := by simpa using hhead
        have hstep : (closed q).step c = quoted q := by rw [step, if_pos hc]
        rw [after_cons, hstep]
        exact ih.1 (hstep ▸ hrest _ h)
  exact key.1 h

/-- Text in front of a place in code can be cut behind the last character that is shown. -/
theorem exists_cut_shown {s : LexState} {t u b : Text} {z : Char} (h : maskFrom s t = u ++ z :: b)
    (hz : Unicode.isBlank z = false) (hb : ∀ c ∈ b, Unicode.isBlank c = true)
    (hlive : (s.after t).live = true) :
    ∃ x y, t = x ++ y ∧ maskFrom s x = u ++ [z] ∧ mask y = b ∧ (s.after x).live = true ∧
      (s.after x).joins y = true := by
  induction t generalizing s u with
  | nil => simp at h
  | cons c t ih =>
    rw [maskFrom_cons] at h
    have later : ∀ u', u = s.glance c t ++ u' → maskFrom (s.step c) t = u' ++ z :: b →
        ∃ x y, c :: t = x ++ y ∧ maskFrom s x = u ++ [z] ∧ mask y = b ∧ (s.after x).live = true ∧
          (s.after x).joins y = true := by
      rintro u' rfl hm
      obtain ⟨x, y, rfl, hx, hy, hx', hj⟩ := ih hm hlive
      refine ⟨c :: x, y, rfl, ?_, hy, hx', hj⟩
      rw [maskFrom_cons, hx, glance, glance, hides_append hj, List.append_assoc]
    rcases List.append_eq_append_iff.1 h with ⟨u', hu, hm⟩ | ⟨u', hu, hm⟩
    · exact later u' hu hm
    · cases u' with
      | nil => exact later [] (by simpa using hu.symm) (by simpa using hm.symm)
      | cons y u' =>
        obtain ⟨rfl, hrest⟩ : z = y ∧ b = u' ++ maskFrom (s.step c) t := by simpa using hm
        have hshown : s.hides c t = false := by
          by_contra hhide
          rw [glance, if_pos (by simpa using hhide)] at hu
          have := isBlank_of_mem_spaces (n := c.utf8Size) z (by rw [hu]; simp)
          exact absurd (this.symm.trans hz) (by decide)
        rw [glance, hshown, if_neg (by decide)] at hu
        obtain ⟨rfl, rfl, rfl⟩ : u = [] ∧ c = z ∧ u' = [] := by
          cases u with
          | nil =>
            obtain ⟨hc, hu'⟩ := List.cons.inj hu
            exact ⟨rfl, hc, hu'.symm⟩
          | cons d u =>
            have := congrArg List.length hu
            simp at this
        rw [List.nil_append] at hrest
        rcases joins_step_of_shown hz hshown with ⟨hlive', hj⟩ | ⟨q, hq⟩
        · refine ⟨[c], t, rfl, ?_, ?_, hlive', hj⟩
          · rw [maskFrom_cons, glance, ← hides_append (t := []) hj, List.nil_append, hshown]
            rfl
          · rw [hrest, maskFrom_of_joins hj, maskFrom_code]
        · -- the literal that opens here would still be open
          rw [after_cons, hq] at hlive
          rw [hq] at hrest
          have := not_live_of_quoted (q := q) (t := t) (by rw [← hrest]; exact hb)
          exact absurd (hlive.symm.trans this) (by decide)

/-- White space that is shown in front of a place in code, with all that goes before it there, is
lexed on its own. -/
theorem cut_of_mask_eq {x y u b : Text} (hmask : mask (x ++ y) = u ++ b)
    (hlive : (code.after (x ++ y)).live = true) (hwidth : Text.width x = Text.width u)
    (hb : ∀ c ∈ b, Unicode.isBlank c = true)
    (hside : (∀ c ∈ u.getLast?, Unicode.isBlank c = false) ∨ b = []) :
    mask y = b ∧ (code.after x).live = true ∧ (code.after x).joins y = true := by
  have hsame : Text.width y = Text.width b := by
    have := congrArg Text.width hmask
    rw [width_mask, Text.width_append, Text.width_append] at this
    omega
  have hnil : ∀ {t t' : Text}, Text.width t = Text.width t' → t = [] → t' = [] := by
    rintro t t' h rfl
    by_contra hne
    exact absurd (Text.width_pos hne) (by rw [← h]; simp)
  by_cases hx : x = []
  · rw [hx, hnil hwidth hx, List.nil_append, List.nil_append] at hmask
    rw [hx]
    exact ⟨hmask, rfl, joins_code y⟩
  by_cases hy : y = []
  · rw [hy, List.append_nil] at hlive
    rw [hy, hnil hsame hy]
    exact ⟨mask_nil, hlive, joins_nil _⟩
  have hu : u ≠ [] := fun h => hx (hnil hwidth.symm h)
  have hlast := hside.resolve_right (fun h => hy (hnil hsame.symm h)) _
    (List.getLast?_eq_some_getLast hu)
  rw [← List.dropLast_concat_getLast hu, List.append_assoc, List.singleton_append,
    ← maskFrom_code] at hmask
  obtain ⟨x', y', hsplit, hx', hy', hlive', hjoins⟩ := exists_cut_shown hmask hlast hb hlive
  rw [maskFrom_code, List.dropLast_concat_getLast] at hx'
  obtain ⟨rfl, rfl⟩ := Text.append_inj_of_width hsplit (by rw [hwidth, ← hx', width_mask])
  exact ⟨hy', hlive', hjoins⟩

/-- Dull text that is put in behind an open quote or comment is not seen. At the end of the query
it can hide a quote. -/
theorem tokens_mask_dull {a x b : Text} (ha : (code.after a).live = false)
    (hx : ∀ c ∈ x, isDull (code.after a) c = true) (hne : x ≠ [])
    (hb : ∀ c ∈ b.head?, isPlain c = true)
    (hword : beginsInWord b = false) :
    ∃ e, tokens (mask (a ++ b)) = tokens (mask (a ++ (x ++ b))) ++ e ∧
      (e = [] ∨ ∃ q : Quote, e = [[q.char]]) := by
  obtain ⟨m, hm, hend⟩ := exists_maskFrom_append ha
  have hslash : b.head? ≠ some '/' := fun h => absurd (hb '/' h) (by decide)
  have hwidth : Text.width x ≠ 0 := Nat.ne_of_gt (Text.width_pos hne)
  have hnew : tokens (mask (a ++ (x ++ b))) =
      tokens m ++ tokens (maskFrom (code.after a) b) := by
    rw [← maskFrom_code, hm _ (by simp [hne]), maskFrom_dull_append ha hx hne, tokens_append_spaces,
      if_neg hwidth, maskFrom_settle _ hslash]
  rw [hnew]
  by_cases hnil : b = []
  · subst hnil
    rw [List.append_nil, maskFrom_nil, tokens_nil, List.append_nil, ← maskFrom_code]
    rcases hend with hend | ⟨n, q, -, rfl, hend⟩
    · exact ⟨[], by rw [hend, List.append_nil], .inl rfl⟩
    · refine ⟨[[q.char]], ?_, .inr ⟨q, rfl⟩⟩
      have hq : beginsInWord [q.char] = false := by cases q <;> rfl
      have hqt : tokens [q.char] = [[q.char]] := by cases q <;> decide
      have hs : tokens [' '] = [] := by decide
      rw [hend, tokens_append (.of_begins hq n), tokens_append (.of_begins rfl n), hqt, hs,
        List.append_nil]
  · refine ⟨[], ?_, .inl rfl⟩
    have hbegin : beginsInWord (maskFrom (code.after a) b) = false := by
      cases b with
      | nil => rfl
      | cons c b => exact beginsInWord_maskFrom hword b
    rw [← maskFrom_code, hm b hnil, tokens_append (.of_begins hbegin m), List.append_nil]

end DialectBridge
