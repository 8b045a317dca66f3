import DialectBridge.Proofs.CallSeams
/-!
# Texts without comments

A text has no comment if the lexer is nowhere in one (`comments_eq_nil_iff`). So what the lexer reads in
the same states can be exchanged, in code and in literals.
-/
namespace DialectBridge
open Pattern LexState Segment

def LexState.isComment : LexState → Bool
  | line | block | star => true
  | _ => false

/-- Whether the lexer, in state `s` in front of a text, is nowhere in a comment. -/
def Quiet (s : LexState) (t : Text) : Prop := ∀ a, a <+: t → (s.after a).isComment = false

section
variable {s : LexState} {c : Char} {t a b : Text}

@[simp] theorem quiet_nil : Quiet s [] ↔ s.isComment = false := by simp [Quiet]

@[simp] theorem quiet_cons : Quiet s (c :: t) ↔ s.isComment = false ∧ Quiet (s.step c) t := by
  constructor
  · intro h
    exact ⟨h [] (List.nil_prefix), fun a ha => h (c :: a) (List.cons_prefix_cons.2 ⟨rfl, ha⟩)⟩
  · rintro ⟨hs, h⟩ (_ | ⟨d, a⟩) ha
    · exact hs
    obtain ⟨rfl, hat⟩ := List.cons_prefix_cons.1 ha
    exact h a hat

theorem Quiet.isComment (h : Quiet s t) : s.isComment = false := h [] List.nil_prefix

theorem Quiet.after (h : Quiet s t) : (s.after t).isComment = false := h t List.prefix_rfl

theorem quiet_append : Quiet s (a ++ b) ↔ Quiet s a ∧ Quiet (s.after a) b := by
  induction a generalizing s with
  | nil => simpa using Quiet.isComment
  | cons c a ih => simp [ih, and_assoc]

@[simp] theorem isComment_ofCode (c : Char) : (ofCode c).isComment = false := by
  unfold ofCode
  split_ifs <;> rfl

theorem Quiet.of_joins (h : s.joins t = true) (hs : s.isComment = false) : Quiet s t ↔ Quiet code t := by
  cases t with
  | nil => simp [hs, show code.isComment = false from rfl]
  | cons c t =>
    have hcode : code.step c = ofCode c := rfl
    simp [step_of_joins h, hs, hcode, show code.isComment = false from rfl]

theorem Quiet.unlined (h : Quiet code t) : Unlined t := fun x hx hline => by
  have hcomment := h x hx
  rw [hline] at hcomment
  exact absurd hcomment (by decide)

theorem quiet_splitQuoted (q : Quote) (t : Text) : Quiet (quoted q) (splitQuoted q.char t).1 := by
  fun_induction splitQuoted q.char t with
  | case1 => simp [LexState.isComment]
  | case2 => simp [step, LexState.isComment]
  | case3 u inside rest heq ih =>
    rw [heq] at ih
    simpa [step, LexState.isComment] using ih
  | case4 d u hd => simp [step, LexState.isComment]
  | case5 c t hc inside rest heq ih =>
    rw [heq] at ih
    simpa [step, hc, LexState.isComment] using ih

theorem quiet_splitCode (hs : s.isComment = false) (hj : s.joins t = true) : Quiet s (splitCode t).1 := by
  fun_induction splitCode t generalizing s with
  | case1 => simpa using hs
  | case2 c t hopens => simpa using hs
  | case3 c t hopens inside rest heq ih =>
    rw [heq] at ih
    simpa [step_of_joins hj, hs] using ih (isComment_ofCode c) (joins_of_not_opens (by simpa using hopens))

/-- A segment is no comment if the lexer is in none in it. -/
theorem kind_next_ne_comment_iff (c : Char) (t : Text) :
    (Segment.next c t).1.kind ≠ .comment ↔ Quiet code (Segment.next c t).1.text := by
  have hcode : code.isComment = false := rfl
  have hstep : code.step c = ofCode c := rfl
  unfold Segment.next
  split_ifs with h1 h2 h3 h4
  · have hquoted : ofCode c = quoted .single := by simp [ofCode, h1]
    have hquiet : Quiet (quoted .single) (splitQuoted '\'' t).1 := quiet_splitQuoted .single t
    simpa [hstep, hcode, hquoted] using hquiet
  · have hquoted : ofCode c = quoted .double := by simp [ofCode, h2]
    have hquiet : Quiet (quoted .double) (splitQuoted '"' t).1 := quiet_splitQuoted .double t
    simpa [hstep, hcode, hquoted] using hquiet
  · obtain ⟨rfl, hhead⟩ := h3
    obtain ⟨t, rfl⟩ := List.head?_eq_some_iff.1 hhead
    have hline : ¬ Quiet line (splitLine t).1 := fun h => absurd h.isComment (by decide)
    simp [splitLine, hcode, step, ofCode, hline]
  · obtain ⟨rfl, hhead⟩ := h4
    have hblock : ¬ Quiet LexState.block (splitBlock t.tail).1 := fun h => absurd h.isComment (by decide)
    simp [hcode, step, ofCode, hblock]
  · have hopens : opens (c :: t) = false := by simp_all [opens]
    simpa [hstep, hcode] using quiet_splitCode (isComment_ofCode c) (joins_of_not_opens hopens)

/-- A text has no comment if the lexer is nowhere in one. -/
theorem comments_eq_nil_iff : comments t = [] ↔ Quiet code t := by
  rw [comments, List.map_eq_nil_iff]
  fun_induction segments t with
  | case1 => simp [LexState.isComment]
  | case2 c t ih =>
    have hjoins : (code.after (Segment.next c t).1.text).joins (Segment.next c t).2 = true := by
      by_cases hnil : (Segment.next c t).2 = []
      · rw [hnil, joins_nil]
      · exact joins_next c t hnil
    rw [← next_append c t, quiet_append, and_congr_right fun htext => Quiet.of_joins hjoins htext.after,
      ← kind_next_ne_comment_iff, ← ih, List.filter_cons]
    by_cases hkind : (Segment.next c t).1.kind = .comment <;> simp [hkind]

theorem sane_nil_iff {names : List String} : Sane [] names t ↔ Quiet code t ∧ Spares names (mask t) := by
  constructor
  · rintro ⟨⟨-, hcomments⟩, hspares⟩
    exact ⟨comments_eq_nil_iff.1 (List.eq_nil_iff_forall_not_mem.2 fun c hc => by simpa using hcomments c hc), hspares⟩
  · rintro ⟨hquiet, hspares⟩
    refine ⟨⟨fun a ha hline => ?_, by simp [comments_eq_nil_iff.2 hquiet]⟩, hspares⟩
    have := hquiet a ha
    rw [hline] at this
    exact absurd this (by decide)

end

/-! ## Runs of code -/

/-- Whether the lexer is in code and not behind a quote. -/
def LexState.inRun : LexState → Bool
  | code | minus | slash => true
  | _ => false

/-- A run of code: no comment begins in it, and there is no quote in it. -/
structure CodeRun (x : Text) : Prop where
  quiet : Quiet code x
  unquoted : ∀ c ∈ x, c ≠ '\'' ∧ c ≠ '"'

section
variable {s : LexState} {a b c r w x x' : Text} {names : List String}

theorem live_of_inRun (h : s.inRun = true) : s.live = true := by
  cases s <;> simp_all [inRun, live]

theorem quiet_of_isPlain (hs : s.live = true) (hx : ∀ c ∈ x, isPlain c = true) : Quiet s x := by
  have hcomment : s.isComment = false := by cases s <;> simp_all [live, LexState.isComment]
  induction x generalizing s with
  | nil => simpa using hcomment
  | cons c x ih =>
    have hstep : s.step c = code := after_of_all_isPlain (t := [c]) hs (by simpa using hx c) (by simp)
    rw [quiet_cons, hstep]
    exact ⟨hcomment, ih rfl (fun d hd => hx d (by simp [hd])) rfl⟩

theorem inRun_ofCode {c : Char} (h : c ≠ '\'' ∧ c ≠ '"') : (ofCode c).inRun = true := by
  unfold ofCode
  simp only [h, if_false]
  split_ifs <;> rfl

theorem beginsComment_of_quiet {c : Char} {t : Text} (h : Quiet (ofCode c) t) : beginsComment c t = false := by
  rw [Bool.eq_false_iff]
  intro hbegins
  simp only [beginsComment, Bool.or_eq_true, Bool.and_eq_true, beq_iff_eq] at hbegins
  rcases hbegins with ⟨rfl, hhead⟩ | ⟨rfl, hhead⟩ <;>
    obtain ⟨t, rfl⟩ := List.head?_eq_some_iff.1 hhead <;>
    exact absurd (quiet_cons.1 h).2.isComment (by decide)

/-- A character of a run is read as code and hides nothing. -/
theorem run_cons {c : Char} {t : Text} (hs : s.inRun = true) (hquiet : Quiet s (c :: t)) :
    s.step c = ofCode c ∧ s.hides c t = false := by
  have hrest := (quiet_cons.1 hquiet).2
  cases s with
  | code => exact ⟨rfl, beginsComment_of_quiet hrest⟩
  | minus =>
    have hc : c ≠ '-' := by
      rintro rfl
      exact absurd hrest.isComment (by decide)
    have hstep : LexState.minus.step c = ofCode c := if_neg hc
    rw [hstep] at hrest
    exact ⟨hstep, by simp [hides, hc, beginsComment_of_quiet hrest]⟩
  | slash =>
    have hc : c ≠ '*' := by
      rintro rfl
      exact absurd hrest.isComment (by decide)
    have hstep : LexState.slash.step c = ofCode c := if_neg hc
    rw [hstep] at hrest
    exact ⟨hstep, by simp [hides, hc, beginsComment_of_quiet hrest]⟩
  | quoted | closed | line | block | star => simp [inRun] at hs

theorem maskFrom_run (hs : s.inRun = true) (hquiet : Quiet s x) (hx : ∀ c ∈ x, c ≠ '\'' ∧ c ≠ '"') :
    maskFrom s x = x ∧ (s.after x).inRun = true := by
  induction x generalizing s with
  | nil => exact ⟨rfl, hs⟩
  | cons c x ih =>
    have hc := hx c (by simp)
    obtain ⟨hstep, hhides⟩ := run_cons hs hquiet
    have hrest := (quiet_cons.1 hquiet).2
    rw [hstep] at hrest
    obtain ⟨hmask, hafter⟩ := ih (inRun_ofCode hc) hrest fun d hd => hx d (by simp [hd])
    rw [maskFrom_cons, glance, hhides, after_cons, hstep, hmask]
    exact ⟨by simp, hafter⟩

theorem CodeRun.mask_eq (h : CodeRun x) : mask x = x := by
  rw [← maskFrom_code]
  exact (maskFrom_run rfl h.quiet h.unquoted).1

theorem CodeRun.inRun (h : CodeRun x) : (code.after x).inRun = true := (maskFrom_run rfl h.quiet h.unquoted).2

theorem CodeRun.left (h : CodeRun (a ++ b)) : CodeRun a :=
  ⟨(quiet_append.1 h.quiet).1, fun c hc => h.unquoted c (List.mem_append_left b hc)⟩

/-- A plain text can be put in the place of another one. -/
theorem codeRun_append_iff (ha : CodeRun a) (hw : ∀ c ∈ w, isPlain c = true) (hne : w ≠ []) :
    CodeRun (a ++ (w ++ b)) ↔ CodeRun b := by
  have hlive := live_of_inRun ha.inRun
  have hquiet : Quiet code (a ++ (w ++ b)) ↔ Quiet code b := by
    rw [quiet_append, quiet_append, after_of_all_isPlain hlive hw hne]
    simp [ha.quiet, quiet_of_isPlain hlive hw]
  have hunquoted : ∀ c ∈ w, c ≠ '\'' ∧ c ≠ '"' := fun c hc =>
    ⟨ne_quote_of_isPlain (hw c hc) .single, ne_quote_of_isPlain (hw c hc) .double⟩
  constructor
  · exact fun h => ⟨hquiet.1 h.quiet, fun c hc => h.unquoted c (by simp [hc])⟩
  · refine fun h => ⟨hquiet.2 h.quiet, fun c hc => ?_⟩
    rcases List.mem_append.1 hc with hc | hc
    · exact ha.unquoted c hc
    · exact (List.mem_append.1 hc).elim (hunquoted c) (h.unquoted c)

theorem Apart.append_right (h : Apart a w) (hne : w ≠ []) (b : Text) : Apart a (w ++ b) := by
  rwa [Apart, beginsInWord_append hne]

/-- A run that arises from another one by plain texts being replaced by `r`. -/
inductive Exchanged (r : Text) : Text → Text → Prop where
  | same (x : Text) : Exchanged r x x
  | step {a w b b' : Text} (hplain : ∀ c ∈ w, isPlain c = true) (hne : w ≠ []) (hleft : Apart a w ∧ Apart a r)
      (hright : Apart w b) (h : Exchanged r b b') : Exchanged r (a ++ (w ++ b)) (a ++ (r ++ b'))

theorem Exchanged.codeRun (hr : ∀ c ∈ r, isPlain c = true) (hne : r ≠ []) (hend : endsInWord r = false)
    (hspares : Spares names r) (h : Exchanged r x x') (hx : CodeRun x) (hnames : Spares names x) :
    CodeRun x' ∧ Spares names x' ∧ (x' = [] → x = []) := by
  induction h with
  | same x => exact ⟨hx, hnames, id⟩
  | @step a w b b' hplain hw hleft hright h ih =>
    have ha := hx.left
    rw [codeRun_append_iff ha hplain hw] at hx
    have hold : pieces (a ++ (w ++ b)) = pieces a ++ (pieces w ++ pieces b) := by
      rw [pieces_append (hleft.1.append_right hw b), pieces_append hright]
    have hnew : pieces (a ++ (r ++ b')) = pieces a ++ (pieces r ++ pieces b') := by
      rw [pieces_append (hleft.2.append_right hne b'), pieces_append (.of_ends hend b')]
    simp only [Spares, hold, List.mem_append] at hnames
    obtain ⟨hb, hnames', -⟩ := ih hx fun p hp => hnames p (.inr (.inr hp))
    refine ⟨(codeRun_append_iff ha hr hne).2 hb, fun p hp => ?_, fun hnil => absurd hnil (by simp [hne])⟩
    simp only [hnew, List.mem_append] at hp
    rcases hp with hp | hp | hp
    · exact hnames p (.inl hp)
    · exact hspares p hp
    · exact hnames' p hp

/-! ## From runs of code to the whole text -/

theorem unquoted_of_not_opens {c : Char} {t : Text} (h : opens (c :: t) = false) : c ≠ '\'' ∧ c ≠ '"' := by
  simp only [opens, Bool.or_eq_false_iff, beq_eq_false_iff_ne] at h
  exact h.1.1

theorem unquoted_splitCode (t : Text) : ∀ c ∈ (splitCode t).1, c ≠ '\'' ∧ c ≠ '"' := by
  fun_induction splitCode t with
  | case1 => simp
  | case2 c t hopens => simp
  | case3 c t hopens inside rest heq ih =>
    rw [heq] at ih
    simpa [unquoted_of_not_opens (by simpa using hopens)] using ih

/-- A run of code ends in front of a quote, if no comment begins there. -/
theorem exists_quote_of_splitCode {t : Text} (h : Quiet code (splitCode t).2) :
    (splitCode t).2 = [] ∨ ∃ q : Quote, (splitCode t).2.head? = some q.char := by
  fun_induction splitCode t with
  | case1 => exact .inl rfl
  | case2 c t hopens =>
    rw [opens_cons, beginsComment_of_quiet (quiet_cons.1 h).2] at hopens
    simp only [Bool.or_false, Bool.or_eq_true, beq_iff_eq] at hopens
    rcases hopens with rfl | rfl
    · exact .inr ⟨.single, rfl⟩
    · exact .inr ⟨.double, rfl⟩
  | case3 c t hopens inside rest heq ih =>
    rw [heq] at ih
    exact ih h

/-- The segments of a text without comments: runs of code in front of quotes, and quoted texts. -/
theorem next_of_quiet {c : Char} {t : Text} (h : Quiet code (Segment.next c t).1.text)
    (hrest : Quiet code (Segment.next c t).2) :
    ((Segment.next c t).1.kind = .code ∧ CodeRun (Segment.next c t).1.text ∧
        ((Segment.next c t).2 = [] ∨ ∃ q : Quote, (Segment.next c t).2.head? = some q.char)) ∨
      ((Segment.next c t).1.kind ≠ .code ∧ (∃ q : Quote, (Segment.next c t).1.text.head? = some q.char) ∧
        ((Segment.next c t).2 = [] ∨ ∃ q, code.after (Segment.next c t).1.text = closed q)) := by
  have hkind := (kind_next_ne_comment_iff c t).2 h
  by_cases hsingle : c = '\''
  · subst hsingle
    have hnext : Segment.next '\'' t = (⟨.literal, '\'' :: (splitQuoted '\'' t).1⟩, (splitQuoted '\'' t).2) := rfl
    rw [hnext]
    exact .inr ⟨by simp, ⟨.single, rfl⟩, or_iff_not_imp_left.2 fun hne => ⟨.single, (after_splitQuoted (q := .single) hne).1⟩⟩
  by_cases hdouble : c = '"'
  · subst hdouble
    have hnext : Segment.next '"' t = (⟨.identifier, '"' :: (splitQuoted '"' t).1⟩, (splitQuoted '"' t).2) := rfl
    rw [hnext]
    exact .inr ⟨by simp, ⟨.double, rfl⟩, or_iff_not_imp_left.2 fun hne => ⟨.double, (after_splitQuoted (q := .double) hne).1⟩⟩
  have hopens : opens (c :: t) = false := by
    refine Bool.eq_false_iff.2 fun hopens => hkind ?_
    rw [opens_cons] at hopens
    simp only [hsingle, hdouble, beginsComment, beq_iff_eq, Bool.or_eq_true, Bool.and_eq_true, false_or] at hopens
    rcases hopens with ⟨rfl, hhead⟩ | ⟨rfl, hhead⟩ <;> simp [Segment.next, hhead]
  rw [next_of_opens_eq_false hopens] at h hrest ⊢
  refine .inl ⟨rfl, ⟨h, ?_⟩, exists_quote_of_splitCode hrest⟩
  simpa [unquoted_of_not_opens hopens] using unquoted_splitCode t

theorem joins_quote (hs : s.inRun = true) (q : Quote) (t : Text) : s.joins (q.char :: t) = true := by
  cases s <;> cases q <;> simp_all [inRun, joins, Quote.char]

theorem beginsInWord_quote (q : Quote) (t : Text) : beginsInWord (q.char :: t) = false := by
  cases q <;> rw [beginsInWord_cons] <;> decide

/-- Behind a run of code stands a quote. -/
theorem CodeRun.splits {z : Text} (hx : CodeRun x) (hz : z = [] ∨ ∃ q : Quote, z.head? = some q.char) : Splits x z := by
  rcases hz with rfl | ⟨q, hq⟩
  · exact ⟨joins_nil _, .of_begins (by simp) _⟩
  obtain ⟨z, rfl⟩ := List.head?_eq_some_iff.1 hq
  exact ⟨joins_quote hx.inRun q z, .of_begins (by rw [beginsInWord_mask, beginsInWord_quote]) _⟩

theorem CodeRun.head?_ne (hx : CodeRun x) (q : Quote) : x.head? ≠ some q.char := fun hq => by
  have := hx.unquoted q.char (List.mem_of_head? hq)
  cases q
  · exact this.1 rfl
  · exact this.2 rfl

/-- Behind a quoted text no quote of the same kind stands. -/
theorem joins_closed_iff {q : Quote} {z : Text} : (closed q).joins z = true ↔ z.head? ≠ some q.char := by
  cases z <;> simp [joins]

/-- What keeps runs of code without comments and words keeps texts without them. -/
theorem sane_mapCode {f : Text → Text} {t : Text}
    (hf : ∀ x, CodeRun x → Spares names x → CodeRun (f x) ∧ Spares names (f x) ∧ (f x = [] → x = []))
    (h : Sane [] names t) : Sane [] names (mapCode f t) := by
  -- behind a quoted text the quotes count, and they stay where they are
  suffices hhead : Sane [] names (mapCode f t) ∧
      ∀ q : Quote, (mapCode f t).head? = some q.char ↔ t.head? = some q.char from hhead.1
  rw [mapCode, mapSegments]
  fun_induction segments t with
  | case1 => exact ⟨h, by simp⟩
  | case2 c t ih =>
    have hjoins : (code.after (Segment.next c t).1.text).joins (Segment.next c t).2 = true := by
      by_cases hnil : (Segment.next c t).2 = []
      · rw [hnil, joins_nil]
      · exact joins_next c t hnil
    have hmask : mask (Segment.next c t).1.text = (Segment.next c t).1.masked := by rw [← maskFrom_code, maskFrom_next]
    have hsplits : Splits (Segment.next c t).1.text (Segment.next c t).2 := by
      refine ⟨hjoins, ?_⟩
      rw [hmask]
      rcases kind_next c t with ⟨-, hbegin⟩ | ⟨-, hend⟩
      · exact .of_begins (by rwa [beginsInWord_mask]) _
      · exact .of_ends hend _
    have htext := next_append c t
    have hne := next_text_ne_nil c t
    have hkind := kind_next c t
    rw [← htext] at h
    have hseg := h.left hsplits
    have hrest := h.right hsplits
    have hnext := next_of_quiet (sane_nil_iff.1 hseg).1 (sane_nil_iff.1 hrest).1
    obtain ⟨hrest', hquote⟩ := ih hrest
    rw [List.flatMap_cons, ← htext]
    generalize (Segment.next c t).1.text = x at *
    generalize hz : (Segment.next c t).2 = z at *
    have hnil : z = [] → (segments z).flatMap (fun s => if (s.kind == .code) = true then f s.text else s.text) = [] := by
      rintro rfl
      simp [segments]
    generalize (segments z).flatMap (fun s => if (s.kind == .code) = true then f s.text else s.text) = z' at *
    rcases hnext with ⟨hk, hrun, hz⟩ | ⟨hk, -, hz⟩
    · obtain ⟨hrun', hspares', hne'⟩ := hf x hrun (by rw [← hrun.mask_eq]; exact hseg.spares)
      have hx' : Sane [] names (f x) := sane_nil_iff.2 ⟨hrun'.quiet, by rwa [hrun'.mask_eq]⟩
      have hz' : z' = [] ∨ ∃ q : Quote, z'.head? = some q.char :=
        hz.imp hnil (Exists.imp fun q => (hquote q).2)
      rw [if_pos (by simp [hk]), List.head?_append_of_ne_nil _ hne, List.head?_append_of_ne_nil _ (mt hne' hne)]
      exact ⟨hx'.append hrest' (hrun'.splits hz'), fun q => iff_of_false (hrun'.head?_ne q) (hrun.head?_ne q)⟩
    · have hends : endsInWord (mask x) = false := by
        rw [hmask]
        exact (hkind.resolve_left fun h => hk h.1).2
      rw [if_neg (by simpa using hk), List.head?_append_of_ne_nil _ hne, List.head?_append_of_ne_nil _ hne]
      refine ⟨hseg.append hrest' ⟨?_, .of_ends hends _⟩, fun q => Iff.rfl⟩
      rcases hz with hz | ⟨q, hq⟩
      · rw [hnil hz, joins_nil]
      · rw [hq, joins_closed_iff] at hjoins ⊢
        exact mt (hquote q).1 hjoins

end

end DialectBridge
