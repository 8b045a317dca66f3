import DialectBridge.Proofs.Lexer
/-!
# Masking from left to right

`mask` works on whole segments. `maskFrom` is the same mask, written character by character along
the machine that reads the query (`maskFrom_code`), and so it can be cut: where the second part of
a text joins the state behind the first, each is masked on its own (`mask_append`), and every
character of a masked query that is neither blank nor a quote is a character of the query there
(`exists_of_mask_eq`).
-/
namespace DialectBridge
open Segment LexState

/-- Whether a comment begins with `c`. -/
def beginsComment (c : Char) (t : Text) : Bool :=
  (c == '-' && t.head? == some '-') || (c == '/' && t.head? == some '*')

namespace LexState

/-- Whether the mask hides a character before `t`. A quote is shown where it opens or closes, and
the last of a text also where it closes nothing. -/
def hides : LexState → Char → Text → Bool
  | code, c, t => beginsComment c t
  | minus, c, t => c == '-' || beginsComment c t
  | slash, c, t => c == '*' || beginsComment c t
  | quoted q, c, t => c != q.char || t.head? == some q.char
  | closed q, c, t => if c = q.char then !t.isEmpty else beginsComment c t
  | line, c, _ => c != '\n'
  | block, _, _ => true
  | star, _, _ => true

/-- What the mask shows of a character before `t`. -/
def glance (s : LexState) (c : Char) (t : Text) : Text :=
  if s.hides c t then Text.spaces c.utf8Size else [c]

end LexState

/-- The mask of a text that is read from a state on. -/
def maskFrom : LexState → Text → Text
  | _, [] => []
  | s, c :: t => s.glance c t ++ maskFrom (s.step c) t

@[simp] theorem maskFrom_nil (s : LexState) : maskFrom s [] = [] := rfl

theorem maskFrom_cons (s : LexState) (c : Char) (t : Text) :
    maskFrom s (c :: t) = s.glance c t ++ maskFrom (s.step c) t := rfl

theorem opens_cons (c : Char) (t : Text) :
    opens (c :: t) = (c == '\'' || c == '"' || beginsComment c t) := by
  simp [opens, beginsComment, Bool.or_assoc]

/-! ## Cutting -/

theorem hides_of_joins {s : LexState} {c : Char} {t : Text} (h : s.joins (c :: t) = true) :
    s.hides c t = beginsComment c t := by
  cases s with
  | code => rfl
  | line =>
    obtain rfl : c = '\n' := by simpa [joins] using h
    simp [hides, beginsComment]
  | minus | slash | closed q => simp_all [joins, hides]
  | quoted q | block | star => simp [joins] at h

theorem hides_append {s : LexState} {c : Char} {t b : Text}
    (h : ((s.step c).after t).joins b = true) : s.hides c (t ++ b) = s.hides c t := by
  cases t with
  | cons d t => cases s <;> simp [hides, beginsComment]
  | nil =>
    cases b with
    | nil => rfl
    | cons d b =>
      simp only [after_nil, List.nil_append] at h ⊢
      -- the last character of the first part is read as it is before the end of a text
      have hcode : (ofCode c).joins (d :: b) = true → beginsComment c (d :: b) = false := by
        intro hj
        by_cases hm : c = '-'
        · simp_all [ofCode, joins, beginsComment]
        · by_cases hs : c = '/' <;> simp_all [ofCode, joins, beginsComment]
      have hnil : beginsComment c [] = false := by simp [beginsComment]
      cases s with
      | code => rw [hides, hides, hcode h, hnil]
      | minus =>
        by_cases hc : c = '-'
        · simp [hides, hc]
        · rw [step, if_neg hc] at h
          rw [hides, hides, hcode h, hnil]
      | slash =>
        by_cases hc : c = '*'
        · simp [hides, hc]
        · rw [step, if_neg hc] at h
          rw [hides, hides, hcode h, hnil]
      | closed q =>
        by_cases hc : c = q.char
        · simp [step, hc, joins] at h
        · rw [step, if_neg hc] at h
          rw [hides, hides, if_neg hc, if_neg hc, hcode h, hnil]
      | quoted q =>
        by_cases hc : c = q.char
        · have hd : d ≠ q.char := by simpa [step, hc, joins] using h
          simp [hides, hc, hd]
        · simp [hides, hc]
      | line | block | star => rfl

theorem maskFrom_of_joins {s : LexState} {t : Text} (h : s.joins t = true) :
    maskFrom s t = maskFrom code t := by
  cases t with
  | nil => rfl
  | cons c t =>
    rw [maskFrom_cons, maskFrom_cons, step_of_joins h, glance, glance, hides_of_joins h]
    rfl

theorem maskFrom_append {s : LexState} {a b : Text} (h : (s.after a).joins b = true) :
    maskFrom s (a ++ b) = maskFrom s a ++ maskFrom code b := by
  induction a generalizing s with
  | nil => exact maskFrom_of_joins h
  | cons c a ih =>
    rw [List.cons_append, maskFrom_cons, maskFrom_cons, glance, hides_append h, ih h,
      List.append_assoc]
    rfl

/-! ## The same mask -/

theorem maskFrom_splitCode {s : LexState} {t : Text} (h : s.joins t = true) :
    maskFrom s (splitCode t).1 = (splitCode t).1 := by
  fun_induction splitCode t generalizing s with
  | case1 => rfl
  | case2 c t hc => rfl
  | case3 c t hc inside rest heq ih =>
    rw [heq] at ih
    have hi : inside ++ rest = t := by simpa [heq] using splitCode_append t
    have hopens : opens (c :: t) = false := by simpa using hc
    have hb : beginsComment c inside = false := by
      rw [opens_cons, Bool.or_eq_false_iff] at hopens
      cases inside with
      | nil => simp [beginsComment]
      | cons d inside => simpa [← hi, beginsComment] using hopens.2
    have hj : s.joins (c :: inside) = true := by
      rw [← hi, ← List.cons_append] at h
      rwa [joins_cons_append] at h
    rw [maskFrom_cons, glance, hides_of_joins hj, hb, step_of_joins hj,
      ih (joins_of_not_opens hopens)]
    rfl

/-- What the mask shows of the inside of a literal or an identifier. -/
def maskInside (q : Char) (inside : Text) : Text :=
  if inside.getLast? = some q then
    Text.spaces (Text.width inside - q.utf8Size) ++ [q]
  else Text.spaces (Text.width inside)

theorem spaces_add (m n : Nat) : Text.spaces (m + n) = Text.spaces m ++ Text.spaces n :=
  List.replicate_append_replicate.symm

theorem maskInside_cons {q c : Char} {t : Text} (h : t ≠ [] ∨ c ≠ q) :
    maskInside q (c :: t) = Text.spaces c.utf8Size ++ maskInside q t := by
  cases t with
  | nil =>
    have hc : c ≠ q := by simpa using h
    simp [maskInside, hc, Text.spaces]
  | cons d t =>
    unfold maskInside
    rw [List.getLast?_cons_cons]
    split_ifs with hq
    · have hw : q.utf8Size ≤ Text.width (d :: t) := by
        obtain ⟨front, hf⟩ := List.getLast?_eq_some_iff.1 hq
        simp [hf]
      rw [Text.width_cons c, Nat.add_sub_assoc hw, spaces_add, List.append_assoc]
    · rw [Text.width_cons c, spaces_add]

theorem maskFrom_splitQuoted (q : Quote) (t : Text) :
    maskFrom (quoted q) (splitQuoted q.char t).1 = maskInside q.char (splitQuoted q.char t).1 := by
  fun_induction splitQuoted q.char t with
  | case1 => rfl
  | case2 => simp [maskFrom, glance, hides, maskInside, Text.spaces]
  | case3 u inside rest heq ih =>
    rw [heq] at ih
    rw [maskInside_cons (by simp), maskFrom_cons, maskFrom_cons]
    have hstep : ((quoted q).step q.char).step q.char = quoted q := by simp [step]
    rw [hstep, ih]
    cases inside with
    | nil => simp [glance, hides, step, maskInside, Text.spaces]
    | cons d inside => simp [maskInside_cons, glance, hides, step]
  | case4 d u hd => simp [maskFrom, glance, hides, maskInside, Text.spaces]
  | case5 c t hc inside rest heq ih =>
    rw [heq] at ih
    rw [maskInside_cons (.inr hc), maskFrom_cons, ← ih]
    simp [glance, hides, step, hc]

theorem maskFrom_splitLine (t : Text) :
    maskFrom line (splitLine t).1 = Text.spaces (Text.width (splitLine t).1) := by
  fun_induction splitLine t with
  | case1 => rfl
  | case2 t => rfl
  | case3 c t hc inside rest heq ih =>
    rw [heq] at ih
    rw [maskFrom_cons, Text.width_cons, spaces_add, ← ih]
    simp [glance, hides, step, hc]

theorem maskFrom_splitBlock {s : LexState} (hs : s = block ∨ s = star) {t : Text}
    (h : s = star → t.head? ≠ some '/') :
    maskFrom s (splitBlock t).1 = Text.spaces (Text.width (splitBlock t).1) := by
  fun_induction splitBlock t generalizing s with
  | case1 => rfl
  | case2 c t hc =>
    obtain ⟨rfl, -⟩ := hc
    rcases hs with rfl | rfl <;> rfl
  | case3 c t hc inside rest heq ih =>
    have hi : inside ++ rest = t := by simpa [heq] using splitBlock_append t
    rw [heq] at ih
    have hstep : s.step c = if c = '*' then star else block := by
      rcases hs with rfl | rfl
      · rfl
      · have hc' : c ≠ '/' := by simpa using h rfl
        simp [step, hc']
    have hhide : s.hides c inside = true := by rcases hs with rfl | rfl <;> rfl
    rw [maskFrom_cons, Text.width_cons, spaces_add, glance, hhide, hstep, ih]
    · rfl
    · split_ifs <;> simp
    · intro hstar hhead
      split_ifs at hstar with hc'
      exact hc ⟨hc', hhead⟩

theorem maskFrom_next (c : Char) (t : Text) :
    maskFrom code (Segment.next c t).1.text = (Segment.next c t).1.masked := by
  unfold Segment.next
  split_ifs with h1 h2 h3 h4
  · subst h1
    have hq := maskFrom_splitQuoted .single t
    simp only [Quote.char] at hq
    simp only [maskFrom_cons, step, ofCode, if_pos, hq, masked, maskInside]
    split_ifs <;> simp [glance, hides, beginsComment]
  · subst h2
    have hq := maskFrom_splitQuoted .double t
    simp only [Quote.char] at hq
    simp only [maskFrom_cons, step, ofCode, if_neg h1, if_pos, hq, masked, maskInside]
    split_ifs <;> simp [glance, hides, beginsComment]
  · obtain ⟨rfl, ht⟩ := h3
    cases t with
    | nil => simp at ht
    | cons d t =>
      obtain rfl : d = '-' := by simpa using ht
      have hl := maskFrom_splitLine t
      simp [splitLine, masked, maskFrom_cons, spaces_add, glance, hides, step, ofCode,
        beginsComment, hl]
  · obtain ⟨rfl, ht⟩ := h4
    have hb := maskFrom_splitBlock (s := block) (.inl rfl) (t := t.tail) (by simp)
    simp only [masked, maskFrom_cons, Text.width_cons, spaces_add]
    simp [glance, hides, step, ofCode, beginsComment, hb]
  · have hc : opens (c :: t) = false := by simp_all [opens]
    have h := maskFrom_splitCode (s := code) (t := c :: t) (joins_code _)
    rw [splitCode, if_neg (by simp [hc])] at h
    exact h

/-- The mask of a query is its mask from the first character on. -/
theorem maskFrom_code (t : Text) : maskFrom code t = mask t := by
  rw [mask]
  fun_induction segments t with
  | case1 => rfl
  | case2 c t ih =>
    have hsplit := Segment.next_append c t
    rw [List.flatMap_cons, ← ih]
    by_cases hr : (Segment.next c t).2 = []
    · rw [hr, List.append_nil] at hsplit
      rw [← hsplit, maskFrom_next, hr]
      simp
    · rw [← hsplit, maskFrom_append (joins_next c t hr), maskFrom_next]

@[simp] theorem mask_nil : mask [] = [] := by rw [← maskFrom_code]; rfl

/-- A text put together is masked part by part. -/
theorem mask_append {a b : Text} (h : (code.after a).joins b = true) :
    mask (a ++ b) = mask a ++ mask b := by
  rw [← maskFrom_code, maskFrom_append h, maskFrom_code, maskFrom_code]

/-- Plain text is its own mask. -/
theorem mask_of_all_isPlain {t : Text} (h : ∀ c ∈ t, isPlain c = true) : mask t = t := by
  rw [← maskFrom_code]
  induction t with
  | nil => rfl
  | cons c t ih =>
    have hc := h c (by simp)
    have hhide : code.hides c t = false := by
      simp only [isPlain, Bool.and_eq_true, bne_iff_ne, ne_eq] at hc
      simp [hides, beginsComment, hc]
    rw [maskFrom_cons, glance, hhide, step, ofCode_of_isPlain hc, ih fun d hd => h d (by simp [hd])]
    rfl

/-! ## Places in the mask -/

/-- Whether a character is shown only where it is code, and is code on its own. -/
def isFirm (c : Char) : Bool := isPlain c && c != ' '

theorem isPlain_of_isFirm {c : Char} (h : isFirm c = true) : isPlain c = true := by
  simp only [isFirm, Bool.and_eq_true] at h
  exact h.1

theorem ne_quote_of_isPlain {c : Char} (h : isPlain c = true) (q : Quote) : c ≠ q.char := by
  rintro rfl
  cases q <;> exact absurd h (by decide)

theorem joins_of_hides_eq_false {s : LexState} {c : Char} {t : Text} (hc : isPlain c = true)
    (h : s.hides c t = false) : s.joins (c :: t) = true := by
  have hquote := ne_quote_of_isPlain hc
  simp only [isPlain, Bool.and_eq_true, bne_iff_ne, ne_eq] at hc
  cases s with
  | code => rfl
  | line => simpa [hides, joins] using h
  | quoted q =>
    rw [hides, Bool.or_eq_false_iff, bne_eq_false_iff_eq] at h
    exact absurd h.1 (hquote q)
  | closed q =>
    simp [joins, hquote q]
  | minus | slash => simp [joins, hc]
  | block | star => simp [hides] at h

theorem exists_of_maskFrom_eq {s : LexState} {t u v : Text} {x : Char} (hx : isFirm x = true)
    (h : maskFrom s t = u ++ x :: v) :
    ∃ a b, t = a ++ x :: b ∧ maskFrom s a = u ∧ mask b = v ∧ (s.after a).joins (x :: b) = true := by
  have hplain := isPlain_of_isFirm hx
  induction t generalizing s u with
  | nil => simp at h
  | cons c t ih =>
    rw [maskFrom_cons] at h
    -- the place is in the rest of the text
    have later : ∀ u', u = s.glance c t ++ u' → maskFrom (s.step c) t = u' ++ x :: v →
        ∃ a b, c :: t = a ++ x :: b ∧ maskFrom s a = u ∧ mask b = v ∧
          (s.after a).joins (x :: b) = true := by
      rintro u' rfl hm
      obtain ⟨a, b, rfl, ha, hb, hj⟩ := ih hm
      refine ⟨c :: a, b, rfl, ?_, hb, hj⟩
      rw [maskFrom_cons, ha, glance, glance, hides_append hj]
    rcases List.append_eq_append_iff.1 h with ⟨u', hu, hm⟩ | ⟨u', hu, hm⟩
    · exact later u' hu hm
    · cases u' with
      | nil => exact later [] (by simpa using hu.symm) (by simpa using hm.symm)
      | cons y u' =>
        obtain ⟨rfl, hv⟩ : x = y ∧ v = u' ++ maskFrom (s.step c) t := by simpa using hm
        have hshown : s.hides c t = false := by
          by_contra hhide
          rw [glance, if_pos (by simpa using hhide)] at hu
          have hmem : x ∈ Text.spaces c.utf8Size := by simp [hu]
          obtain rfl := List.eq_of_mem_replicate hmem
          exact absurd hx (by decide)
        rw [glance, hshown, if_neg (by decide)] at hu
        obtain ⟨rfl, rfl, rfl⟩ : u = [] ∧ c = x ∧ u' = [] := by
          cases u with
          | nil =>
            obtain ⟨hc, hu'⟩ := List.cons.inj hu
            exact ⟨rfl, hc, hu'.symm⟩
          | cons d u =>
            have := congrArg List.length hu
            simp at this
        have hj := joins_of_hides_eq_false hplain hshown
        refine ⟨[], t, rfl, rfl, ?_, hj⟩
        rw [hv, step_of_joins hj, ofCode_of_isPlain hplain, maskFrom_code]
        rfl

/-- A firm character of a masked query is a character of the query there, and what stands on its
two sides is masked apart. -/
theorem exists_of_mask_eq {sql u v : Text} {x : Char} (hx : isFirm x = true)
    (h : mask sql = u ++ x :: v) :
    ∃ a b, sql = a ++ x :: b ∧ mask a = u ∧ mask b = v ∧ (code.after a).joins (x :: b) = true := by
  rw [← maskFrom_code] at h
  obtain ⟨a, b, hsql, ha, hb, hj⟩ := exists_of_maskFrom_eq hx h
  exact ⟨a, b, hsql, by rwa [maskFrom_code] at ha, hb, hj⟩

theorem mask_ne_nil {t : Text} (h : t ≠ []) : mask t ≠ [] := by
  intro hnil
  have hpos := Text.width_pos h
  rw [← width_mask, hnil] at hpos
  simp at hpos

theorem mask_cons_of_isPlain {c : Char} (hc : isPlain c = true) (t : Text) :
    mask (c :: t) = c :: mask t := by
  have hj : (code.after [c]).joins t = true := by
    rw [after_cons, step, ofCode_of_isPlain hc]
    exact joins_code t
  rw [← List.singleton_append, mask_append hj, mask_of_all_isPlain (by simpa using hc)]
  rfl

/-- A masked query can be cut in front of a firm character. -/
theorem exists_cut_before {sql u v : Text} {x : Char} (hx : isFirm x = true)
    (h : mask sql = u ++ x :: v) :
    ∃ a b, sql = a ++ b ∧ mask a = u ∧ mask b = x :: v ∧ b.head? = some x ∧
      (code.after a).joins b = true := by
  obtain ⟨a, b, hsql, ha, hb, hj⟩ := exists_of_mask_eq hx h
  exact ⟨a, x :: b, hsql, ha, by rw [mask_cons_of_isPlain (isPlain_of_isFirm hx), hb], rfl, hj⟩

/-- A masked query can be cut behind a firm character, and the lexer is in code there. -/
theorem exists_cut_after {sql u v : Text} {x : Char} (hx : isFirm x = true)
    (h : mask sql = u ++ [x] ++ v) :
    ∃ a b, sql = a ++ b ∧ mask a = u ++ [x] ∧ mask b = v ∧ a.getLast? = some x ∧
      code.after a = code := by
  rw [List.append_assoc, List.singleton_append] at h
  obtain ⟨a, b, hsql, ha, hb, hj⟩ := exists_of_mask_eq hx h
  have hplain := isPlain_of_isFirm hx
  have hjx : (code.after a).joins [x] = true := by
    rwa [← List.singleton_append, joins_cons_append] at hj
  refine ⟨a ++ [x], b, by simp [hsql], ?_, hb, by simp, ?_⟩
  · rw [mask_append hjx, ha, mask_of_all_isPlain (by simpa using hplain)]
  · rw [after_append, after_of_joins hjx (by simp), after_cons, step, ofCode_of_isPlain hplain,
      after_nil]

/-! ## Text put in where the lexer is not in code -/

/-- Whether a character leaves a literal or a comment open. -/
def isDull (s : LexState) (c : Char) : Bool := isPlain c && (s != .line || c != '\n')

theorem isDull_of_ne {c : Char} (h : isPlain c = true) (hc : c ≠ '\n') (s : LexState) :
    isDull s c = true := by
  simp [isDull, h, hc]

/-- The state behind dull text. -/
def settle : LexState → LexState
  | .star => block
  | s => s

theorem hides_of_isDull {s : LexState} (hs : s.live = false) {c : Char} (hc : isDull s c = true)
    (t : Text) : s.hides c t = true := by
  simp only [isDull, isPlain, Bool.and_eq_true, Bool.or_eq_true, bne_iff_ne, ne_eq] at hc
  cases s with
  | quoted q => cases q <;> simp [hides, Quote.char, hc]
  | line => simpa [hides] using hc.2
  | block | star => rfl
  | code | minus | slash | closed q => simp [live] at hs

theorem step_of_isDull {s : LexState} (hs : s.live = false) {c : Char} (hc : isDull s c = true) :
    s.step c = settle s := by
  simp only [isDull, isPlain, Bool.and_eq_true, Bool.or_eq_true, bne_iff_ne, ne_eq] at hc
  cases s with
  | quoted q => cases q <;> simp [step, settle, Quote.char, hc]
  | line => simpa [step, settle] using hc.2
  | block | star => simp [step, settle, hc]
  | code | minus | slash | closed q => simp [live] at hs

theorem live_settle (s : LexState) : (settle s).live = s.live := by cases s <;> rfl

theorem settle_settle (s : LexState) : settle (settle s) = settle s := by cases s <;> rfl

theorem isDull_settle (s : LexState) (c : Char) : isDull (settle s) c = isDull s c := by
  cases s <;> rfl

/-- A literal or a comment goes on behind dull text. -/
theorem live_after_dull {s : LexState} (hs : s.live = false) {x : Text}
    (hx : ∀ c ∈ x, isDull s c = true) : (s.after x).live = false := by
  induction x generalizing s with
  | nil => exact hs
  | cons c x ih =>
    rw [after_cons, step_of_isDull hs (hx c (by simp))]
    refine ih ((live_settle s).trans hs) fun d hd => ?_
    rw [isDull_settle]
    exact hx d (by simp [hd])

/-- Dull text disappears in a literal or a comment. -/
theorem maskFrom_dull_append {s : LexState} (hs : s.live = false) {x : Text}
    (hx : ∀ c ∈ x, isDull s c = true) (hne : x ≠ []) (t : Text) :
    maskFrom s (x ++ t) = Text.spaces (Text.width x) ++ maskFrom (settle s) t := by
  induction x generalizing s with
  | nil => exact absurd rfl hne
  | cons c x ih =>
    have hc := hx c (by simp)
    rw [List.cons_append, maskFrom_cons, glance, hides_of_isDull hs hc, step_of_isDull hs hc,
      Text.width_cons, spaces_add, List.append_assoc, if_pos rfl]
    by_cases hnil : x = []
    · subst hnil
      rfl
    · have hx' : ∀ d ∈ x, isDull (settle s) d = true := by
        intro d hd
        rw [isDull_settle]
        exact hx d (by simp [hd])
      rw [ih ((live_settle s).trans hs) hx' hnil, settle_settle]

theorem maskFrom_settle (s : LexState) {t : Text} (h : t.head? ≠ some '/') :
    maskFrom (settle s) t = maskFrom s t := by
  cases s with
  | star =>
    cases t with
    | nil => rfl
    | cons c t =>
      have hc : c ≠ '/' := by simpa using h
      simp [settle, maskFrom_cons, glance, hides, step, hc]
  | _ => rfl

/-- The character that opens a literal or a comment, or stands in one, is shown the same way
whatever follows; but the second of two quotes is shown where the text ends. -/
theorem hides_of_step_not_live {s : LexState} {c : Char} (h : (s.step c).live = false) :
    (∃ q, s = closed q ∧ c = q.char) ∨ ∀ t, s.hides c t = s.hides c [] := by
  have hcode : (ofCode c).live = false → ∀ t, beginsComment c t = false := by
    intro hc t
    have hm : c ≠ '-' := by rintro rfl; simp [ofCode, live] at hc
    have hs : c ≠ '/' := by rintro rfl; simp [ofCode, live] at hc
    simp [beginsComment, hm, hs]
  cases s with
  | code => exact .inr fun t => by rw [hides, hides, hcode h, hcode h]
  | minus =>
    by_cases hc : c = '-'
    · exact .inr fun t => by simp [hides, hc]
    · rw [step, if_neg hc] at h
      exact .inr fun t => by rw [hides, hides, hcode h, hcode h]
  | slash =>
    by_cases hc : c = '*'
    · exact .inr fun t => by simp [hides, hc]
    · rw [step, if_neg hc] at h
      exact .inr fun t => by rw [hides, hides, hcode h, hcode h]
  | closed q =>
    by_cases hc : c = q.char
    · exact .inl ⟨q, rfl, hc⟩
    · rw [step, if_neg hc] at h
      exact .inr fun t => by rw [hides, hides, if_neg hc, if_neg hc, hcode h, hcode h]
  | quoted q =>
    by_cases hc : c = q.char
    · simp [step, hc, live] at h
    · exact .inr fun t => by simp [hides, hc]
  | line | block | star => exact .inr fun t => rfl

/-- The mask of a text behind which a literal or a comment is open, and of what follows. -/
theorem exists_maskFrom_append {s : LexState} {a : Text} (h : (s.after a).live = false) :
    ∃ m, (∀ b, b ≠ [] → maskFrom s (a ++ b) = m ++ maskFrom (s.after a) b) ∧
      (maskFrom s a = m ∨ ∃ n q, s.after a = quoted q ∧ m = n ++ [' '] ∧
        maskFrom s a = n ++ [q.char]) := by
  induction a generalizing s with
  | nil => exact ⟨[], fun _ _ => rfl, .inl rfl⟩
  | cons c a ih =>
    obtain ⟨m, hm, hend⟩ := ih h
    by_cases ha : a = []
    · subst ha
      rcases hides_of_step_not_live h with ⟨q, rfl, rfl⟩ | hconst
      · have hsize : q.char.utf8Size = 1 := by cases q <;> rfl
        refine ⟨[' '], fun b hb => ?_, .inr ⟨[], q, by simp [step], rfl,
          by simp [maskFrom_cons, glance, hides]⟩⟩
        cases b with
        | nil => exact absurd rfl hb
        | cons d b => simp [maskFrom_cons, glance, hides, hsize, Text.spaces]
      · refine ⟨s.glance c [], fun b _ => ?_, .inl (by simp [maskFrom_cons])⟩
        rw [List.cons_append, maskFrom_cons, List.nil_append, glance, hconst b]
        rfl
    · have hhide : ∀ b, s.hides c (a ++ b) = s.hides c a := by
        intro b
        cases a with
        | nil => exact absurd rfl ha
        | cons d a => cases s <;> simp [hides, beginsComment]
      refine ⟨s.glance c a ++ m, fun b hb => ?_, ?_⟩
      · rw [List.cons_append, maskFrom_cons, hm b hb, glance, glance, hhide, List.append_assoc]
        rfl
      · rcases hend with hend | ⟨n, q, hq, hn, hend⟩
        · exact .inl (by rw [maskFrom_cons, hend])
        · exact .inr ⟨s.glance c a ++ n, q, hq, by rw [hn, List.append_assoc],
            by rw [maskFrom_cons, hend, List.append_assoc]⟩

/-! ## Quoted texts -/

section
variable {q : Quote} {t : Text}

/-- A literal stays open as long as no quote comes. -/
theorem after_quoted (h : q.char ∉ t) : (quoted q).after t = quoted q := by
  induction t with
  | nil => rfl
  | cons c t ih =>
    rw [List.mem_cons, not_or] at h
    rw [after_cons, step, if_neg (Ne.symm h.1), ih h.2]

theorem after_closed (h : q.char ∉ t) : code.after (q.char :: (t ++ [q.char])) = closed q := by
  have hopen : code.step q.char = quoted q := by cases q <;> rfl
  rw [after_cons, hopen, after_append, after_quoted h, after_cons, step, if_pos rfl]
  rfl

theorem maskFrom_quoted (h : q.char ∉ t) :
    maskFrom (quoted q) (t ++ [q.char]) = Text.spaces (Text.width t) ++ [q.char] := by
  induction t with
  | nil => cases q <;> rfl
  | cons c t ih =>
    rw [List.mem_cons, not_or] at h
    have hc : c ≠ q.char := Ne.symm h.1
    have hhides : (quoted q).hides c (t ++ [q.char]) = true := by simp [hides, hc]
    rw [List.cons_append, maskFrom_cons, glance, if_pos hhides, step, if_neg hc, ih h.2, Text.width_cons,
      spaces_add, List.append_assoc]

/-- What stands between quotes is blank. -/
theorem mask_quoted (h : q.char ∉ t) :
    mask (q.char :: (t ++ [q.char])) = q.char :: (Text.spaces (Text.width t) ++ [q.char]) := by
  rw [← maskFrom_code, maskFrom_cons]
  cases q <;> exact congrArg _ (maskFrom_quoted h)

end

end DialectBridge
