import DialectBridge.Proofs.CallReading
import DialectBridge.Proofs.MaskedTokens
/-!
# Replacing words in code

A word is replaced inside each run of code, where the ends of the run count as edges of words. Read in
the whole text this makes no difference: what is replaced are the pieces of the masked text that spell
the word (`gives_replaceSpans_keyword`). So the replacing can be done on the parts of a text one by one
(`replaceCode_append`), and it leaves a text alone in whose code the word is missing
(`replaceCode_eq_self`).
-/
namespace DialectBridge
open Pattern Cursor LexState Segment

variable {name r : Text}

/-! ## The occurrences of a word -/

theorem Pattern.start_of_matchAt? {p : Pattern} {u x : Text} {m : Match}
    (h : p.matchAt? (between u x) = some m) : m.start = Text.width u := by
  obtain ⟨_, _, -, hfirst, -⟩ := matchAt?_eq_some h
  rw [Match.start, hfirst, offset_between]

/-- The matches `ms` are the occurrences of the word in `x`, which stands behind `u`. -/
structure Occurrences (name u x : Text) (ms : List Match) : Prop where
  sorted : ms.Pairwise fun m m' => m.stop ≤ m'.start
  mem_iff : ∀ m, m ∈ ms ↔ ∃ a b, x = a ++ b ∧ (keyword name).matchAt? (between (u ++ a) b) = some m

theorem occurrences_findAll (hname : isName name = true) (t : Text) :
    Occurrences name [] t ((keyword name).findAll t) :=
  ⟨pairwise_findAll _ t, fun _ => (takesWords_keyword hname).mem_findAll_iff⟩

theorem exists_matchAt?_keyword (hname : isName name = true) {u w v : Text} (hw : Spelled name w)
    (hu : endsInWord u = false) (hv : beginsInWord v = false) :
    ∃ m, (keyword name).matchAt? (between u (w ++ v)) = some m ∧ m.first = between u (w ++ v) ∧
      m.last = between (u ++ w) v := by
  have hmatch : Matches (keyword name) u w v := (matches_keyword hname).2 ⟨hw, hu, hv⟩
  obtain ⟨g, g', htakes⟩ := hmatch
  obtain ⟨m, hm⟩ := Option.isSome_iff_exists.1 (isSome_matchAt?_iff.2 ⟨w, v, g, g', rfl, htakes⟩)
  obtain ⟨w', v', hsplit, hfirst, hlast, htakes'⟩ := matchAt?_eq_some hm
  obtain ⟨rfl, rfl⟩ := (takesWords_keyword hname).unique ⟨g, g', htakes⟩ ⟨_, _, htakes'⟩ hsplit
  exact ⟨m, hm, hfirst, hlast⟩

/-- A piece that spells the word is an occurrence of it. -/
theorem exists_matchAt?_of_mem_pieces (hname : isName name = true) {u x y q : Text} (hux : Apart u x)
    (hxy : Apart x y) (hq : q ∈ pieces x) (hspelled : Spelled name q) :
    ∃ a b m, x = a ++ (q ++ b) ∧ (keyword name).matchAt? (between (u ++ a) (q ++ (b ++ y))) = some m ∧
      m.start = Text.width (u ++ a) := by
  obtain ⟨ps, qs, hsplit⟩ := List.append_of_mem hq
  have hx : x = ps.flatten ++ (q ++ qs.flatten) := by
    rw [← flatten_pieces x, hsplit]
    simp
  have hleft := (pieces_eq_append hsplit).2.2
  have hsplit' : pieces x = ps ++ [q] ++ qs := by simpa using hsplit
  have hright := (pieces_eq_append hsplit').2.2
  have hbegins : ∀ t, beginsInWord (q ++ t) = true := hspelled.beginsInWord hname
  have hends : ∀ t, endsInWord (t ++ q) = true := hspelled.endsInWord hname
  have hu : endsInWord (u ++ ps.flatten) = false := by
    by_contra hend
    rw [Bool.not_eq_false] at hend
    by_cases hnil : ps.flatten = []
    · rw [hnil, List.append_nil] at hend
      have := hux hend
      rw [hx, hnil, List.nil_append, hbegins] at this
      cases this
    · rw [endsInWord_append hnil] at hend
      have := hleft hend
      rw [List.flatten_cons, hbegins] at this
      cases this
  have hv : beginsInWord (qs.flatten ++ y) = false := by
    by_cases hnil : qs.flatten = []
    · rw [hnil, List.nil_append]
      refine hxy ?_
      rw [hx, hnil, List.append_nil]
      exact hends _
    · rw [beginsInWord_append hnil]
      refine hright ?_
      rw [List.flatten_append, List.flatten_singleton]
      exact hends _
  obtain ⟨m, hm, -, -⟩ := exists_matchAt?_keyword hname hspelled hu hv
  exact ⟨_, _, m, hx, hm, start_of_matchAt? hm⟩

theorem Occurrences.not_spelled (hname : isName name = true) {u x : Text} (h : Occurrences name u x [])
    (hux : Apart u x) : ∀ q ∈ pieces x, ¬ Spelled name q := fun q hq hspelled => by
  obtain ⟨a, b, m, hx, hm, -⟩ := exists_matchAt?_of_mem_pieces (y := []) hname hux (by simp) hq hspelled
  rw [List.append_nil] at hm
  exact absurd ((h.mem_iff m).2 ⟨a, _, hx, hm⟩) List.not_mem_nil

/-- The first occurrence, the text in front of it and the occurrences behind it. -/
theorem Occurrences.cons (hname : isName name = true) {u x : Text} {m : Match} {ms : List Match}
    (h : Occurrences name u x (m :: ms)) (hux : Apart u x) :
    ∃ a w v, x = a ++ (w ++ v) ∧ m.first = between (u ++ a) (w ++ v) ∧
      m.last = between (u ++ a ++ w) v ∧ Spelled name w ∧ endsInWord (u ++ a) = false ∧
      beginsInWord v = false ∧ (∀ q ∈ pieces a, ¬ Spelled name q) ∧
      Occurrences name (u ++ a ++ w) v ms := by
  obtain ⟨a, b, rfl, hm⟩ := (h.mem_iff m).1 (by simp)
  obtain ⟨w, v, rfl, hfirst, hlast, htakes⟩ := matchAt?_eq_some hm
  obtain ⟨hw, hu, hv⟩ := (matches_keyword hname).1 ⟨_, _, htakes⟩
  obtain ⟨hbefore, hsorted⟩ := List.pairwise_cons.1 h.sorted
  have hstart : m.start = Text.width (u ++ a) := start_of_matchAt? hm
  have hstop : m.stop = Text.width (u ++ a ++ w) := by rw [Match.stop, hlast, offset_between]
  have hne := hw.ne_nil hname
  refine ⟨a, w, v, rfl, hfirst, hlast, hw, hu, hv, fun q hq hspelled => ?_, hsorted, fun m' => ?_⟩
  · -- an occurrence in front of the first one would be listed behind it
    have hleft : Apart a (w ++ v) := fun hend => by
      have hnil : a ≠ [] := by
        rintro rfl
        exact absurd hend (by simp)
      rw [endsInWord_append hnil, hend] at hu
      cases hu
    have hua : Apart u a := fun hend => by
      have hnil : a ≠ [] := by
        rintro rfl
        simp at hq
      have := hux hend
      rwa [beginsInWord_append hnil] at this
    obtain ⟨a', b, m', hx, hm', hstart'⟩ :=
      exists_matchAt?_of_mem_pieces hname hua hleft hq hspelled
    have hlt : m'.start < m.start := by
      have hpos := Text.width_pos (hspelled.ne_nil hname)
      rw [hstart', hstart, hx]
      simp only [Text.width_append]
      omega
    have hmem := (h.mem_iff m').2 ⟨a', q ++ (b ++ (w ++ v)), by rw [hx]; simp, hm'⟩
    rcases List.mem_cons.1 hmem with rfl | hmem
    · omega
    · have hle : m.start ≤ m.stop := by rw [hstart, hstop, Text.width_append _ w]; omega
      have := hbefore m' hmem
      omega
  · constructor
    · intro hmem
      obtain ⟨c, d, hcd, hm'⟩ := (h.mem_iff m').1 (List.mem_cons_of_mem _ hmem)
      have hle := hbefore m' hmem
      rw [hstop, start_of_matchAt? hm', List.append_assoc, Text.width_append, Text.width_append u] at hle
      have hcut : a ++ w ++ v = c ++ d := by simpa using hcd
      obtain ⟨e, rfl, hrest⟩ := Text.exists_of_width_le hcut (by omega)
      exact ⟨e, d, hrest, by simpa using hm'⟩
    · rintro ⟨c, d, rfl, hm'⟩
      have hmem := (h.mem_iff m').2 ⟨a ++ w ++ c, d, by simp, by simpa using hm'⟩
      rcases List.mem_cons.1 hmem with rfl | hmem
      · have hwidth := start_of_matchAt? hm'
        have hpos := Text.width_pos hne
        rw [hstart] at hwidth
        simp only [Text.width_append] at hwidth
        omega
      · exact hmem

/-! ## What replacing makes of a run of code -/

/-- A text with the pieces that spell the word replaced. -/
def respell (name r t : Text) : Text := (pieces t).flatMap fun q => if Spelled name q then r else q

theorem respell_eq_self {t : Text} (h : ∀ q ∈ pieces t, ¬ Spelled name q) : respell name r t = t := by
  have hid : (pieces t).flatMap (fun q => if Spelled name q then r else q) = (pieces t).flatMap id :=
    List.flatMap_congr fun q hq => if_neg (h q hq)
  rw [respell, hid, List.flatMap_id, flatten_pieces]

theorem respell_append {a b : Text} (h : Apart a b) :
    respell name r (a ++ b) = respell name r a ++ respell name r b := by
  rw [respell, pieces_append h, List.flatMap_append]
  rfl

theorem respell_of_spelled (hname : isName name = true) {w : Text} (hw : Spelled name w) :
    respell name r w = r := by
  rw [respell, pieces_word (hw.ne_nil hname) (hw.isWordChar hname)]
  simp [hw]

theorem expandAt_of_noDollar (hr : '$' ∉ r) (m : Match) : expandAt [] r m = r := by
  rw [expandAt, ReplacementPart.parts_of_noDollar hr, List.flatMap_map]
  exact List.flatMap_singleton' r

theorem replaceMatches_eq_respell (hname : isName name = true) {u x : Text} {ms : List Match}
    (h : Occurrences name u x ms) (hux : Apart u x) :
    replaceMatches (fun _ => r) (between u x) ms = respell name r x := by
  induction ms generalizing u x with
  | nil => exact (respell_eq_self (h.not_spelled hname hux)).symm
  | cons m ms ih =>
    obtain ⟨a, w, v, rfl, hfirst, hlast, hw, hu, hv, hnone, hmore⟩ := h.cons hname hux
    have hleft : Apart a (w ++ v) := by
      by_cases hnil : a = []
      · rw [hnil]
        exact apart_nil_left _
      · exact .of_ends (by rwa [endsInWord_append hnil] at hu) _
    rw [replaceMatches, hfirst, hlast, ih hmore (.of_begins hv _), upTo_between, respell_append hleft,
      respell_append (.of_begins hv w), respell_of_spelled hname hw, respell_eq_self hnone, List.append_assoc]

/-- Replacing a word replaces the pieces that spell it. -/
theorem replaceAll_keyword (hname : isName name = true) (hr : '$' ∉ r) (t : Text) :
    (keyword name).replaceAll r t = respell name r t := by
  have hexpand : expandAt [] r = fun _ => r := funext (expandAt_of_noDollar hr)
  rw [replaceAll, replaceAllBy, hexpand]
  exact replaceMatches_eq_respell hname (occurrences_findAll hname t) (apart_nil_left t)

/-! ## From runs of code to the whole text -/

theorem text_ne_nil_of_mem_segments {s : Segment} {t : Text} (h : s ∈ segments t) : s.text ≠ [] := by
  fun_induction segments t with
  | case1 => simp at h
  | case2 c t ih =>
    rcases List.mem_cons.1 h with rfl | h
    · exact next_text_ne_nil c t
    · exact ih h

theorem flatMap_glue {α : Type} {g : Segment → List α} {l : List Segment} {b : List Segment}
    (h : ∀ x ∈ l.getLast?, ∀ y ∈ b.head?, x.kind = .code → y.kind = .code →
      g ⟨.code, x.text ++ y.text⟩ = g x ++ g y) :
    (glue l b).flatMap g = l.flatMap g ++ b.flatMap g := by
  fun_induction glue l b with
  | case1 => rfl
  | case2 x y b =>
    have := h ⟨.code, x⟩ (by simp) ⟨.code, y⟩ (by simp) rfl rfl
    simp [this]
  | case3 s l b hglue ih =>
    have hih : (glue l b).flatMap g = l.flatMap g ++ b.flatMap g := by
      refine ih fun x hx y hy => h x ?_ y hy
      cases l with
      | nil => simp at hx
      | cons => simpa [List.getLast?_cons_cons] using hx
    simp [hih]

/-- What replaces the parts of a run of code one by one also replaces the parts of a text. -/
theorem mapCode_append {f : Text → Text} {a b : Text} (hj : (code.after a).joins b = true)
    (hf : ∀ x' x y y', a = x' ++ x → b = y ++ y' → x ≠ [] → y ≠ [] → f (x ++ y) = f x ++ f y) :
    mapCode f (a ++ b) = mapCode f a ++ mapCode f b := by
  rw [mapCode, mapSegments, segments_append hj]
  refine flatMap_glue fun x hx y hy hxk hyk => ?_
  obtain ⟨l, hl⟩ := List.getLast?_eq_some_iff.1 hx
  obtain ⟨m, hm⟩ := List.head?_eq_some_iff.1 hy
  have ha := segments_flatten a
  have hb := segments_flatten b
  rw [hl, List.flatMap_append, List.flatMap_singleton] at ha
  rw [hm, List.flatMap_cons] at hb
  have hcut := hf _ _ _ _ ha.symm hb.symm (text_ne_nil_of_mem_segments (List.mem_of_getLast? hx))
    (text_ne_nil_of_mem_segments (List.mem_of_mem_head? hy))
  simp [hxk, hyk, hcut]

theorem splitCode_of_all_isPlain {t : Text} (h : ∀ c ∈ t, isPlain c = true) : splitCode t = (t, []) := by
  fun_induction splitCode t with
  | case1 => rfl
  | case2 c t hopens =>
    have hc := h c (by simp)
    rw [opens_cons] at hopens
    simp only [isPlain, Bool.and_eq_true, bne_iff_ne] at hc
    simp [beginsComment, hc] at hopens
  | case3 c t hopens inside rest hcut ih =>
    rw [ih fun d hd => h d (by simp [hd])] at hcut
    simp_all

theorem mapCode_of_all_isPlain {f : Text → Text} {t : Text} (h : ∀ c ∈ t, isPlain c = true) (hne : t ≠ []) :
    mapCode f t = f t := by
  obtain ⟨c, t, rfl⟩ := List.exists_cons_of_ne_nil hne
  have hopens : opens (c :: t) = false := by
    have hc := h c (by simp)
    simp only [isPlain, Bool.and_eq_true, bne_iff_ne] at hc
    simp [opens_cons, beginsComment, hc]
  rw [mapCode, mapSegments, segments, next_of_opens_eq_false hopens,
    splitCode_of_all_isPlain fun d hd => h d (by simp [hd])]
  simp [segments]

theorem replaceCode_append (hname : isName name = true) (hr : '$' ∉ r) {a b : Text}
    (hj : (code.after a).joins b = true) (h : Apart a b) :
    replaceCode (keyword name) r (a ++ b) =
      replaceCode (keyword name) r a ++ replaceCode (keyword name) r b := by
  refine mapCode_append hj fun x' x y y' ha hb hx hy => ?_
  have hxy : Apart x y := fun hend => by
    have := h (by rwa [ha, endsInWord_append hx])
    rwa [hb, beginsInWord_append hy] at this
  simp only [replaceAll_keyword hname hr]
  exact respell_append hxy

theorem beginsInWord_of_opens {t : Text} (h : opens t = true) : beginsInWord t = false := by
  cases t with
  | nil => rfl
  | cons c t =>
    rw [opens] at h
    simp only [Bool.or_eq_true, Bool.and_eq_true, beq_iff_eq] at h
    rw [beginsInWord_cons]
    rcases h with ((rfl | rfl) | ⟨rfl, -⟩) | ⟨rfl, -⟩ <;> decide

theorem beginsInWord_splitCode (t : Text) : beginsInWord (splitCode t).2 = false := by
  fun_induction splitCode t with
  | case1 => rfl
  | case2 c t h => exact beginsInWord_of_opens h
  | case3 c t h inside rest hcut ih => simpa [hcut] using ih

theorem endsInWord_spaces (u : Text) {n : Nat} (hn : n ≠ 0) : endsInWord (u ++ Text.spaces n) = false := by
  have hne : Text.spaces n ≠ [] := by simpa [Text.spaces] using hn
  exact endsInWord_blanks hne (isBlank_of_mem_spaces) u

/-- Nothing that is hidden in a text ends in a word. -/
theorem endsInWord_masked {s : Segment} (hk : s.kind ≠ .code) (hs : s.text ≠ [])
    (hquote : s.kind ≠ .comment → ∀ c ∈ s.text.head?, Unicode.isWordChar c = false) :
    endsInWord s.masked = false := by
  obtain ⟨kind, text⟩ := s
  obtain ⟨c, t, rfl⟩ := List.exists_cons_of_ne_nil hs
  have hquoted : kind ≠ .comment → endsInWord (if t.getLast? = some c then
      c :: Text.spaces (Text.width t - c.utf8Size) ++ [c] else c :: Text.spaces (Text.width t)) = false := by
    intro hne
    have hc := hquote hne c rfl
    split
    · rw [endsInWord_append (by simp), endsInWord_singleton, hc]
    · by_cases hnil : Text.width t = 0
      · simp [hnil, Text.spaces, hc]
      · exact endsInWord_spaces [c] hnil
  cases kind with
  | code => exact absurd rfl hk
  | comment => exact endsInWord_spaces [] (Nat.ne_of_gt (Text.width_pos hs))
  | literal => exact hquoted (by simp)
  | identifier => exact hquoted (by simp)

theorem kind_next (c : Char) (t : Text) :
    ((Segment.next c t).1.kind = .code ∧ beginsInWord (Segment.next c t).2 = false) ∨
      ((Segment.next c t).1.kind ≠ .code ∧ endsInWord (Segment.next c t).1.masked = false) := by
  have hquote : ∀ d : Char, d = '\'' ∨ d = '"' → Unicode.isWordChar d = false := by
    rintro d (rfl | rfl) <;> decide
  unfold Segment.next
  split_ifs with h1 h2 h3 h4
  · exact .inr ⟨by simp, endsInWord_masked (by simp) (by simp) fun _ d hd =>
      hquote d (.inl (by simpa [h1, eq_comm] using hd))⟩
  · exact .inr ⟨by simp, endsInWord_masked (by simp) (by simp) fun _ d hd =>
      hquote d (.inr (by simpa [h2, eq_comm] using hd))⟩
  · exact .inr ⟨by simp, endsInWord_masked (by simp) (by simp) fun h => absurd rfl h⟩
  · exact .inr ⟨by simp, endsInWord_masked (by simp) (by simp) fun h => absurd rfl h⟩
  · exact .inl ⟨rfl, beginsInWord_splitCode t⟩

/-- The pieces of the masked text are those of its segments. -/
theorem pieces_mask (t : Text) : pieces (mask t) = (segments t).flatMap fun s => pieces s.masked := by
  fun_induction segments t with
  | case1 => rw [mask_nil]; rfl
  | case2 c t ih =>
    have happend := Segment.next_append c t
    have hmask : mask (c :: t) = (Segment.next c t).1.masked ++ mask (Segment.next c t).2 := by
      by_cases hnil : (Segment.next c t).2 = []
      · rw [hnil, mask_nil, List.append_nil, ← maskFrom_next, maskFrom_code, ← happend, hnil, List.append_nil]
      · rw [← happend, mask_append (joins_next c t hnil), ← maskFrom_code, maskFrom_next]
    have hapart : Apart (Segment.next c t).1.masked (mask (Segment.next c t).2) := by
      rcases kind_next c t with ⟨-, hbegin⟩ | ⟨-, hend⟩
      · exact .of_begins (by rwa [beginsInWord_mask]) _
      · exact .of_ends hend _
    rw [hmask, pieces_append hapart, ih, List.flatMap_cons]

theorem masked_of_code {s : Segment} (h : s.kind = .code) : s.masked = s.text := by rw [Segment.masked, h]

/-- What leaves the runs of code alone leaves the text alone. -/
theorem mapCode_of_segments {f : Text → Text} {t : Text}
    (h : ∀ s ∈ segments t, s.kind = .code → f s.text = s.text) : mapCode f t = t := by
  have hself : ∀ s ∈ segments t, (if s.kind == .code then f s.text else s.text) = s.text := by
    intro s hs
    split_ifs with hcode
    · exact h s hs (eq_of_beq hcode)
    · rfl
  rw [mapCode, mapSegments, List.flatMap_congr hself, segments_flatten]

/-- What leaves texts alone that are made of the pieces of the code leaves the text alone. -/
theorem mapCode_eq_self {f : Text → Text} {t : Text}
    (h : ∀ x, (∀ q ∈ pieces x, q ∈ pieces (mask t)) → f x = x) : mapCode f t = t := by
  refine mapCode_of_segments fun s hs hcode => h _ fun q hq => ?_
  rw [pieces_mask]
  exact List.mem_flatMap.2 ⟨s, hs, by rwa [masked_of_code hcode]⟩

/-- A text is left alone if the word is missing from its code. -/
theorem replaceCode_eq_self (hname : isName name = true) (hr : '$' ∉ r) {t : Text}
    (h : ∀ q ∈ pieces (mask t), ¬ Spelled name q) : replaceCode (keyword name) r t = t := by
  refine mapCode_eq_self fun x hx => ?_
  rw [replaceAll_keyword hname hr]
  exact respell_eq_self fun q hq => h q (hx q hq)

/-! ## The matches in the masked text -/

theorem mask_cut {a w b : Text} (ha : (code.after a).live = true) (hw : ∀ c ∈ w, isPlain c = true)
    (hne : w ≠ []) : (code.after a).joins (w ++ b) = true := by
  refine joins_of_head?_isPlain ha fun c hc => ?_
  rw [List.head?_append_of_ne_nil _ hne] at hc
  exact hw c (List.mem_of_mem_head? hc)

theorem replaceCode_around (hname : isName name = true) (hr : '$' ∉ r) {a w b : Text} (hw : Spelled name w)
    (hlive : (code.after a).live = true) (ha : endsInWord a = false) (hb : beginsInWord b = false) :
    replaceCode (keyword name) r (a ++ (w ++ b)) =
      replaceCode (keyword name) r a ++ (r ++ replaceCode (keyword name) r b) := by
  have hplain : ∀ c ∈ w, isPlain c = true := fun c hc => isPlain_of_isWordChar (hw.isWordChar hname c hc)
  have hne := hw.ne_nil hname
  have hword : replaceCode (keyword name) r w = r := by
    rw [replaceCode, mapCode_of_all_isPlain hplain hne, replaceAll_keyword hname hr, respell_of_spelled hname hw]
  have hcode : (code.after w).joins b = true := by
    rw [after_of_all_isPlain rfl hplain hne]
    exact joins_code b
  rw [replaceCode_append hname hr (mask_cut hlive hplain hne) (.of_ends ha _),
    replaceCode_append hname hr hcode (.of_begins hb _), hword]

theorem LexState.joins_of_append {s : LexState} {a b : Text} (h : s.joins (a ++ b) = true) (ha : a ≠ []) :
    s.joins a = true := by
  obtain ⟨c, a, rfl⟩ := List.exists_cons_of_ne_nil ha
  rwa [joins_cons_append] at h

theorem Replaced.exists_cons {g : Match → Option Text} {k : Nat} {m : Match} {ms : List Match}
    {t out : Text} (h : Replaced g k (m :: ms) t out) :
    ∃ a w rest out', t = a ++ w ++ rest ∧ m.start = k + Text.width a ∧
      m.stop = m.start + Text.width w ∧ out = a ++ (g m).getD w ++ out' ∧
      Replaced g m.stop ms rest out' := by
  cases h with
  | cons hstart hstop hrest => exact ⟨_, _, _, _, rfl, hstart, hstop, rfl, hrest⟩

/-- The text that comes out when each occurrence is replaced. -/
theorem replaceCode_eq_of_replaced (hname : isName name = true) (hr : '$' ∉ r) {ms : List Match}
    (pre : Text) {t out : Text} (hpre : (code.after pre).joins t = true) (hapart : Apart (mask pre) (mask t))
    (h : Occurrences name (mask pre) (mask t) ms)
    (hout : Replaced (fun _ => some r) (Text.width pre) ms t out) :
    replaceCode (keyword name) r t = out := by
  induction ms generalizing pre t out with
  | nil =>
    cases hout
    exact replaceCode_eq_self hname hr (h.not_spelled hname hapart)
  | cons m ms ih =>
    obtain ⟨u, w, v, hmask, hfirst, hlast, hw, hu, hv, hnone, hmore⟩ := h.cons hname hapart
    have hchars := hw.isWordChar hname
    have hplain : ∀ c ∈ w, isPlain c = true := fun c hc => isPlain_of_isWordChar (hchars c hc)
    have hne := hw.ne_nil hname
    obtain ⟨a, b, rfl, rfl, rfl, hlive, hcode⟩ := exists_cut_word hne hchars hmask
    have hends : endsInWord a = false := by
      by_cases hnil : a = []
      · rw [hnil]
        rfl
      · rwa [endsInWord_append (mask_ne_nil hnil), endsInWord_mask hlive] at hu
    -- the match is where `w` is
    have hstart : m.start = Text.width (pre ++ a) := by
      rw [Match.start, hfirst, offset_between, Text.width_append, width_mask, width_mask, Text.width_append]
    have hstop : m.stop = Text.width (pre ++ a) + Text.width w := by
      rw [Match.stop, hlast, offset_between]
      simp [width_mask, Nat.add_assoc]
    obtain ⟨a', w', b', out', hsplit, hstart', hstop', rfl, hrest⟩ := hout.exists_cons
    rw [hstart, Text.width_append] at hstart'
    rw [hstop, hstart] at hstop'
    rw [List.append_assoc] at hsplit
    obtain ⟨ha, hsplit⟩ := Text.append_inj_of_width hsplit (by omega)
    obtain ⟨hw', hb⟩ := Text.append_inj_of_width hsplit (by omega)
    subst ha hw' hb
    -- behind it the lexer is in code
    have hfront : (code.after pre).joins (a ++ w) = true :=
      joins_of_append (by simpa using hpre) (by simp [hne])
    have hmaskfront : mask (pre ++ a ++ w) = mask pre ++ mask a ++ w := by
      have := mask_plain_between (b := []) hlive hplain hne
      rw [List.append_nil, mask_nil, List.append_nil] at this
      rw [List.append_assoc, mask_append hfront, this, List.append_assoc]
    have hafter : code.after (pre ++ a ++ w) = code := by
      rw [List.append_assoc, after_append, after_of_joins hfront (by simp [hne]), hcode]
    have hih := ih _ (by rw [hafter]; exact joins_code _) (.of_begins hv _)
      (by rwa [hmaskfront]) (by rwa [hstop, ← Text.width_append] at hrest)
    rw [replaceCode_around hname hr hw hlive hends (by rwa [beginsInWord_mask] at hv),
      replaceCode_eq_self hname hr hnone, hih]
    simp

theorem visible_word {t : Text} (h : ∀ c ∈ t, (c.isAlphanum || c == '_') = true) :
    (word t).visibleStart = true ∧ (word t).visibleEnd = true := by
  fun_induction word t with
  | case1 => exact ⟨rfl, rfl⟩
  | case2 c => exact ⟨visible_caseless (h c (by simp)), visible_caseless (h c (by simp))⟩
  | case3 c t hne ih =>
    have hc := visible_caseless (h c (by simp))
    obtain ⟨ihs, ihe⟩ := ih fun d hd => h d (by simp [hd])
    exact ⟨by simp [visibleStart, hc, ihs], by simp [visibleEnd, hc, ihe]⟩

theorem framed_keyword (hname : isName name = true) : (keyword name).framed = true := by
  simp only [isName, Bool.and_eq_true, List.all_eq_true] at hname
  obtain ⟨hstart, hend⟩ := visible_word hname.2
  have hnullable : (word name).nullable = false := by
    obtain ⟨c, t, rfl⟩ := List.exists_cons_of_ne_nil (by simpa using hname.1 : name ≠ [])
    cases t <;> rfl
  have hkeyword : keyword name = seq (seq edge (word name)) edge := rfl
  simp [framed, hkeyword, edge, nullable, visibleStart, visibleEnd, hstart, hend, hnullable]

/-- Replacing a word inside each run of code replaces its matches in the masked text. -/
theorem gives_replaceSpans_keyword {σ : Type} (hname : isName name = true) (hr : '$' ∉ r) (sql : Text) :
    Gives (replaceSpans sql (keyword name) fun _ => pure (some r) : Editing σ Text)
        (replaceCode (keyword name) r sql) ∧
      Replaced (fun _ => some r) 0 ((keyword name).findAll (mask sql)) sql
        (replaceCode (keyword name) r sql) := by
  obtain ⟨out, hgives, hout⟩ : ∃ out, Gives (replaceSpans sql (keyword name) fun _ => pure (some r)) out ∧
      Replaced (fun _ => some r) 0 ((keyword name).findAll (mask sql)) sql out :=
    gives_replaceSpans (framed_keyword hname) fun _ _ => gives_pure _
  have heq := replaceCode_eq_of_replaced hname hr [] (joins_code sql) (by simp)
    (by simpa using occurrences_findAll hname (mask sql)) hout
  rw [heq]
  exact ⟨hgives, hout⟩

/-! ## What replacing leaves behind -/

/-- A word occurs in a text when a piece spells it. -/
theorem occursIn_keyword_iff {name t : Text} (hname : isName name = true) :
    (keyword name).occursIn t = true ↔ ∃ q ∈ pieces t, Spelled name q := by
  constructor
  · intro h
    obtain ⟨m, hm⟩ := Option.isSome_iff_exists.1 h
    obtain ⟨u, x, rfl, hat⟩ := exists_of_find? hm
    obtain ⟨w, v, rfl, -, -, htakes⟩ := matchAt?_eq_some hat
    have hmatch : Matches (keyword name) u w v := ⟨_, _, htakes⟩
    refine ⟨w, ?_, ((matches_keyword hname).1 hmatch).1⟩
    rw [(takesWords_keyword hname).pieces_eq hmatch]
    simp
  · rintro ⟨q, hq, hspelled⟩
    obtain ⟨a, b, m, rfl, hm, -⟩ :=
      exists_matchAt?_of_mem_pieces hname (apart_nil_left t) (apart_nil_right t) hq hspelled
    obtain ⟨w, v, hsplit, -, -, htakes⟩ := matchAt?_eq_some hm
    simp only [List.nil_append, List.append_nil] at hsplit htakes
    rw [hsplit]
    exact occursIn_of_matches ⟨_, _, htakes⟩

/-- The first occurrence of a word in code, if there is one. -/
theorem exists_first_occurrence (hname : isName name = true) (sql : Text) :
    (∀ q ∈ pieces (mask sql), ¬ Spelled name q) ∨
      ∃ a w b, sql = a ++ (w ++ b) ∧ Spelled name w ∧ (code.after a).live = true ∧ endsInWord a = false ∧
        beginsInWord b = false ∧ ∀ q ∈ pieces (mask a), ¬ Spelled name q := by
  cases hms : (keyword name).findAll (mask sql) with
  | nil =>
    have h := occurrences_findAll hname (mask sql)
    rw [hms] at h
    exact .inl (h.not_spelled hname (apart_nil_left _))
  | cons m ms =>
    have h := occurrences_findAll hname (mask sql)
    rw [hms] at h
    obtain ⟨u, w, v, hmask, -, -, hw, hu, hv, hnone, -⟩ := h.cons hname (apart_nil_left _)
    obtain ⟨a, b, rfl, rfl, rfl, hlive, -⟩ := exists_cut_word (hw.ne_nil hname) (hw.isWordChar hname) hmask
    rw [List.nil_append, endsInWord_mask hlive] at hu
    rw [beginsInWord_mask] at hv
    exact .inr ⟨a, w, b, rfl, hw, hlive, hu, hv, hnone⟩

/-- The pieces of the code when a word is replaced by plain text. -/
theorem pieces_mask_replaceCode (hname : isName name = true) (hr : '$' ∉ r)
    (hplain : ∀ c ∈ r, isPlain c = true) (hne : r ≠ []) (sql : Text) :
    pieces (mask (replaceCode (keyword name) r sql)) =
      (pieces (mask sql)).flatMap fun q => if Spelled name q then pieces r else [q] := by
  rcases exists_first_occurrence hname sql with hnone | ⟨a, w, b, rfl, hw, hlive, ha, hb, hnone⟩
  · have hid : ∀ q ∈ pieces (mask sql), (if Spelled name q then pieces r else [q]) = [q] :=
      fun q hq => if_neg (hnone q hq)
    rw [replaceCode_eq_self hname hr hnone, List.flatMap_congr hid]
    exact (List.flatMap_singleton' _).symm
  have hid : ∀ q ∈ pieces (mask a), (if Spelled name q then pieces r else [q]) = [q] :=
    fun q hq => if_neg (hnone q hq)
  have hwne := hw.ne_nil hname
  have hwplain : ∀ c ∈ w, isPlain c = true := fun c hc => isPlain_of_isWordChar (hw.isWordChar hname c hc)
  have ih := pieces_mask_replaceCode hname hr hplain hne b
  -- what follows the word does not begin in a word, whatever is replaced there
  have hb' : beginsInWord (mask (replaceCode (keyword name) r b)) = false := by
    cases hmask : mask b with
    | nil =>
      rw [hmask] at ih
      rw [← flatten_pieces (mask (replaceCode _ _ _)), ih]
      rfl
    | cons c v =>
      rw [← beginsInWord_mask, hmask, beginsInWord_cons] at hb
      have hc : ¬ Spelled name [c] := fun h => by
        rw [h.isWordChar hname c (by simp)] at hb
        cases hb
      rw [← flatten_pieces (mask (replaceCode _ _ _)), ih, hmask, pieces_cons_of_not_word hb,
        List.flatMap_cons, if_neg hc]
      exact hb
  have hleft : ∀ v, Apart (mask a) v := .of_ends (by rwa [endsInWord_mask hlive])
  rw [replaceCode_around hname hr hw hlive ha hb, replaceCode_eq_self hname hr hnone,
    mask_plain_between hlive hplain hne, mask_plain_between hlive hwplain hwne, pieces_append (hleft _),
    pieces_append (hleft _), pieces_append (.of_begins hb' _),
    pieces_append (.of_begins (by rwa [beginsInWord_mask]) _), pieces_word hwne (hw.isWordChar hname), ih,
    List.flatMap_append, List.flatMap_append, List.flatMap_congr hid, List.flatMap_singleton,
    List.flatMap_singleton', if_pos hw]
termination_by sql.length
decreasing_by
  have hpos := List.length_pos_iff.2 (hw.ne_nil hname)
  subst_vars
  simp only [List.length_append]
  omega

/-- Where a word is replaced, it is left in no code but of what is put in. -/
theorem mem_pieces_mask_replaceCode (hname : isName name = true) (hr : '$' ∉ r) (hplain : ∀ c ∈ r, isPlain c = true)
    (hne : r ≠ []) {sql q : Text} (hq : q ∈ pieces (mask (replaceCode (keyword name) r sql))) :
    (q ∈ pieces (mask sql) ∧ ¬ Spelled name q) ∨ q ∈ pieces r := by
  rw [pieces_mask_replaceCode hname hr hplain hne] at hq
  obtain ⟨q', hq', hq⟩ := List.mem_flatMap.1 hq
  split_ifs at hq with hspelled
  · exact .inr hq
  · rw [List.mem_singleton.1 hq]
    exact .inl ⟨hq', hspelled⟩

end DialectBridge
