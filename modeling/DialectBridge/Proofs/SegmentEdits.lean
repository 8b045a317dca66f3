import DialectBridge.Proofs.SaneWords
/-!
# Edits segment by segment

A query may be rewritten segment by segment, where each new segment is one segment of its kind, stands
where the old one can stand and has behind it what the old one has: then the new segments are the segments
of the new text (`segments_flatMap`). So the rules for words and operators, which rewrite runs of code, leave
the literals, the quoted identifiers and the comments of a query as they are, also for the lexer
(`inert_of_word_rules`).
-/
namespace DialectBridge
open Pattern LexState Segment

section
variable {s : Segment} {t : Text}

/-! ## The segments of a query, one by one -/

theorem length_glue_of_code {r : List Segment} {a : Text} (h : ∃ s ∈ r.head?, s.kind = .code) :
    (glue [⟨.code, a⟩] r).length = r.length := by
  obtain ⟨⟨_, b⟩, hs, rfl⟩ := h
  obtain ⟨r, rfl⟩ := List.head?_eq_some_iff.1 hs
  simp [glue]

theorem glue_singleton {r : List Segment} (h : ¬ (s.kind = .code ∧ ∃ s' ∈ r.head?, s'.kind = .code)) :
    glue [s] r = s :: r := by
  by_cases hcode : s.kind = .code
  · exact glue_of_head_ne_code s fun s' hs' hk => h ⟨hcode, s', hs', hk⟩
  · exact glue_of_kind_ne_code hcode r

theorem eq_singleton_of_glue {l r : List Segment} (hglue : glue l r = s :: r) (hl : l ≠ [])
    (hflat : l.flatMap Segment.text = s.text) (hne : ∀ s' ∈ l, s'.text ≠ []) :
    l = [s] ∧ (s.kind = .code → ∀ s' ∈ r.head?, s'.kind ≠ .code) := by
  match l with
  | [] => exact absurd rfl hl
  | [x] =>
    have hapart : ¬ (x.kind = .code ∧ ∃ s' ∈ r.head?, s'.kind = .code) := by
      rintro ⟨hx, hr⟩
      obtain ⟨_, a⟩ := x
      obtain rfl : _ = SegmentKind.code := hx
      have hlength := length_glue_of_code (a := a) hr
      rw [hglue] at hlength
      simp at hlength
    rw [glue_singleton hapart] at hglue
    obtain rfl := (List.cons.inj hglue).1
    exact ⟨rfl, fun hx s' hs' hk => hapart ⟨hx, s', hs', hk⟩⟩
  | x :: y :: l =>
    rw [glue_cons (by simp)] at hglue
    obtain rfl := (List.cons.inj hglue).1
    have hy := hne y (by simp)
    simp [hy] at hflat

theorem joins_rest (c : Char) (t : Text) :
    (code.after (Segment.next c t).1.text).joins (Segment.next c t).2 = true := by
  by_cases hnil : (Segment.next c t).2 = []
  · rw [hnil, joins_nil]
  · exact joins_next c t hnil

/-- A segment is one on its own, and behind a run of code stands none. -/
theorem segments_next (c : Char) (t : Text) :
    segments (Segment.next c t).1.text = [(Segment.next c t).1] ∧
      ((Segment.next c t).1.kind = .code → ∀ s ∈ (segments (Segment.next c t).2).head?, s.kind ≠ .code) := by
  refine eq_singleton_of_glue ?_ (segments_ne_nil (next_text_ne_nil c t)) (segments_flatten _)
    fun _ => text_ne_nil_of_mem_segments
  rw [← segments_append (joins_rest c t), next_append, segments]

theorem segments_of_mem (h : s ∈ segments t) : segments s.text = [s] := by
  fun_induction segments t with
  | case1 => simp at h
  | case2 c t ih =>
    rcases List.mem_cons.1 h with rfl | h
    · exact (segments_next c t).1
    · exact ih h

/-- What may stand in the place of a segment: one of its kind, wherever the segment can stand and in front
of what can stand behind it. -/
structure TakesPlace (s : Segment) (x : Text) : Prop where
  alone : segments x = [⟨s.kind, x⟩]
  front : ∀ l : LexState, l.joins s.text = true → l.joins x = true
  behind : ∀ y, (code.after s.text).joins y = true → (code.after x).joins y = true

theorem TakesPlace.ne_nil {x : Text} (h : TakesPlace s x) : x ≠ [] := by
  rintro rfl
  have := h.alone
  simp [segments] at this

theorem takesPlace_of_mem (h : s ∈ segments t) : TakesPlace s s.text :=
  ⟨segments_of_mem h, fun _ => id, fun _ => id⟩

theorem joins_append {l : LexState} {a : Text} (ha : a ≠ []) (b : Text) : l.joins (a ++ b) = l.joins a := by
  obtain ⟨c, a, rfl⟩ := List.exists_cons_of_ne_nil ha
  exact joins_cons_append l c a b

/-- A query rewritten segment by segment has the segments that were put in. -/
theorem segments_flatMap {g : Segment → Text} (h : ∀ s ∈ segments t, TakesPlace s (g s)) :
    segments ((segments t).flatMap g) = (segments t).map fun s => ⟨s.kind, g s⟩ := by
  -- what is in front of the text also stands in front of the new text
  suffices hjoins : segments ((segments t).flatMap g) = (segments t).map (fun s => ⟨s.kind, g s⟩) ∧
      ∀ l : LexState, l.joins t = true → l.joins ((segments t).flatMap g) = true from hjoins.1
  fun_induction segments t with
  | case1 => simp [segments]
  | case2 c t ih =>
    obtain ⟨hfirst, hmore⟩ := List.forall_mem_cons.1 h
    obtain ⟨hrest, hjoins⟩ := ih hmore
    rw [List.flatMap_cons]
    refine ⟨?_, fun l hl => ?_⟩
    · rw [segments_append (hfirst.behind _ (hjoins _ (joins_rest c t))), hfirst.alone, hrest, List.map_cons]
      refine glue_singleton ?_
      rintro ⟨hcode, s', hs', hk⟩
      simp only [List.head?_map, Option.mem_def, Option.map_eq_some_iff] at hs'
      obtain ⟨s, hs, rfl⟩ := hs'
      exact (segments_next c t).2 hcode s hs hk
    · rw [joins_append hfirst.ne_nil]
      refine hfirst.front l ?_
      rwa [← next_append c t, joins_append (next_text_ne_nil c t)] at hl

end

/-! ## Edits of runs of code -/

section
variable {p : Pattern} {s : Segment} {r w x x' : Text}

theorem codeRun_of_mem {t : Text} (h : s ∈ segments t) (hcode : s.kind = .code) : CodeRun s.text := by
  fun_induction segments t with
  | case1 => simp at h
  | case2 c t ih =>
    rcases List.mem_cons.1 h with rfl | h
    · have hopens : opens (c :: t) = false := Bool.eq_false_iff.2 fun hopens => kind_next_of_opens hopens hcode
      refine ⟨(kind_next_ne_comment_iff c t).1 (by simp [hcode]), ?_⟩
      rw [next_of_opens_eq_false hopens]
      simpa [unquoted_of_not_opens hopens] using unquoted_splitCode t
    · exact ih h

theorem opens_of_run {l : LexState} {c : Char} (hl : l.inRun = true) (hquiet : Quiet l (c :: x))
    (hc : c ≠ '\'' ∧ c ≠ '"') : opens (c :: x) = false := by
  have hrest := (quiet_cons.1 hquiet).2
  rw [(run_cons hl hquiet).1] at hrest
  simp [opens_cons, hc, beginsComment_of_quiet hrest]

theorem splitCode_of_run {l : LexState} (hl : l.inRun = true) (hquiet : Quiet l x)
    (hx : ∀ c ∈ x, c ≠ '\'' ∧ c ≠ '"') : splitCode x = (x, []) := by
  induction x generalizing l with
  | nil => rfl
  | cons c x ih =>
    have hopens := opens_of_run hl hquiet (hx c (by simp))
    have hrest := (quiet_cons.1 hquiet).2
    rw [(run_cons hl hquiet).1] at hrest
    rw [splitCode, if_neg (by simp [hopens]),
      ih (inRun_ofCode (hx c (by simp))) hrest fun d hd => hx d (by simp [hd])]

theorem CodeRun.segments_eq (h : CodeRun x) (hne : x ≠ []) : segments x = [⟨.code, x⟩] := by
  obtain ⟨c, x, rfl⟩ := List.exists_cons_of_ne_nil hne
  have hcut := splitCode_of_run rfl h.quiet h.unquoted
  have hopens := opens_of_run rfl h.quiet (h.unquoted c (by simp))
  rw [splitCode, if_neg (by simp [hopens])] at hcut
  rw [segments, next_of_opens_eq_false hopens]
  simp_all [segments]

/-- A text that is read as code behind any code, and that does not end a line. -/
structure Solid (w : Text) : Prop where
  ne_nil : w ≠ []
  plain : ∀ c ∈ w, isPlain c = true
  head?_ne : w.head? ≠ some '\n'

theorem Solid.joins_iff (hw : Solid w) (l : LexState) : l.joins w = true ↔ l.live = true := by
  obtain ⟨c, w, rfl⟩ := List.exists_cons_of_ne_nil hw.ne_nil
  exact ⟨fun h => live_of_joins h (by simpa using hw.head?_ne), fun h => joins_of_live h (hw.plain c (by simp))⟩

theorem solid_of_beginsInWord (hplain : ∀ c ∈ w, isPlain c = true) (h : beginsInWord w = true) : Solid w :=
  ⟨ne_nil_of_beginsInWord h, hplain, fun hhead => by
    obtain ⟨w, rfl⟩ := List.head?_eq_some_iff.1 hhead
    rw [beginsInWord_cons] at h
    exact absurd h (by decide)⟩

/-- What an edit of a run of code keeps: it is a run of code, with the same code in front of it and the same
state behind it. -/
structure Recoded (x x' : Text) : Prop where
  codeRun : CodeRun x → CodeRun x'
  front : ∀ l : LexState, l.joins x = true → l.joins x' = true
  behind : CodeRun x → code.after x' = code.after x
  nil : x' = [] → x = []

theorem Recoded.refl (x : Text) : Recoded x x := ⟨id, fun _ => id, fun _ => rfl, id⟩

/-- A solid text gives way to another one. -/
theorem Recoded.step {a b b' : Text} (hw : Solid w) (hr : Solid r) (h : Recoded b b') :
    Recoded (a ++ (w ++ b)) (a ++ (r ++ b')) := by
  refine ⟨fun hx => ?_, fun l hl => ?_, fun hx => ?_, fun hnil => absurd hnil (by simp [hr.ne_nil])⟩
  · have hb := (codeRun_append_iff hx.left hw.plain hw.ne_nil).1 hx
    exact (codeRun_append_iff hx.left hr.plain hr.ne_nil).2 (h.codeRun hb)
  · by_cases ha : a = []
    · rw [ha, List.nil_append, joins_append hw.ne_nil, hw.joins_iff] at hl
      rwa [ha, List.nil_append, joins_append hr.ne_nil, hr.joins_iff]
    · rwa [joins_append ha] at hl ⊢
  · have hb := (codeRun_append_iff hx.left hw.plain hw.ne_nil).1 hx
    have hlive := live_of_inRun hx.left.inRun
    rw [after_append, after_append, after_append, after_append, after_of_all_isPlain hlive hw.plain hw.ne_nil,
      after_of_all_isPlain hlive hr.plain hr.ne_nil, h.behind hb]

theorem Recoded.takesPlace {t : Text} (h : Recoded s.text x') (hs : s ∈ segments t) (hcode : s.kind = .code) :
    TakesPlace s x' := by
  have hx := codeRun_of_mem hs hcode
  refine ⟨?_, h.front, fun y hy => ?_⟩
  · rw [hcode, (h.codeRun hx).segments_eq fun hnil => text_ne_nil_of_mem_segments hs (h.nil hnil)]
  · rwa [h.behind hx]

/-- The literals, quoted identifiers and comments of a query. -/
def inert (t : Text) : List Segment := (segments t).filter fun s => s.kind != .code

/-- The segments of a query whose runs of code are edited. -/
theorem segments_mapCode {f : Text → Text} (hf : ∀ x, Recoded x (f x)) (t : Text) : segments (mapCode f t) =
    (segments t).map fun s => ⟨s.kind, if s.kind == .code then f s.text else s.text⟩ := by
  have hplace : ∀ s ∈ segments t, TakesPlace s (if s.kind == .code then f s.text else s.text) := by
    intro s hs
    by_cases hcode : s.kind = .code
    · simpa [hcode] using (hf s.text).takesPlace hs hcode
    · simpa [hcode] using takesPlace_of_mem hs
  exact segments_flatMap hplace

/-- Two edits of the runs of code, one after the other, are one edit. -/
theorem mapCode_mapCode {f g : Text → Text} (hg : ∀ x, Recoded x (g x)) (t : Text) :
    mapCode f (mapCode g t) = mapCode (fun x => f (g x)) t := by
  rw [mapCode, mapSegments, segments_mapCode hg, mapCode, mapSegments, List.flatMap_map]
  refine List.flatMap_congr fun s _ => ?_
  by_cases hcode : s.kind = .code <;> simp [hcode]

/-- The pieces of the code when its runs are edited. -/
theorem pieces_mask_mapCode {f : Text → Text} (hf : ∀ x, Recoded x (f x)) (t : Text) : pieces (mask (mapCode f t)) =
    (segments t).flatMap fun s => pieces (if s.kind = .code then f s.text else s.masked) := by
  rw [pieces_mask, segments_mapCode hf, List.flatMap_map]
  refine List.flatMap_congr fun s _ => ?_
  by_cases hcode : s.kind = .code <;> simp [hcode, Segment.masked]

/-- An edit of the runs of code leaves all other segments as they are. -/
theorem inert_mapCode {f : Text → Text} (hf : ∀ x, Recoded x (f x)) (t : Text) : inert (mapCode f t) = inert t := by
  rw [inert, inert, segments_mapCode hf, List.filter_map]
  refine (List.map_congr_left fun s hs => ?_).trans (List.map_id _)
  have hcode : s.kind ≠ .code := by simpa using (List.mem_filter.1 hs).2
  simp [hcode]

/-! ## The rules for words and operators -/

theorem recoded_replaceAll (hp : ∀ u w v, Matches p u w v → Solid w) (hr : Solid r) (hdollar : '$' ∉ r) (x : Text) :
    Recoded x (p.replaceAll r x) :=
  replaceAll_induction hdollar .refl (fun _ _ w _ _ hmatch => .step (hp _ w _ hmatch) hr) x

theorem solid_of_keyword {name u v : Text} (hname : isName name = true) (h : Matches (keyword name) u w v) :
    Solid w := by
  obtain ⟨hw, -, -⟩ := (matches_keyword hname).1 h
  have hbegin := hw.beginsInWord hname []
  rw [List.append_nil] at hbegin
  exact solid_of_beginsInWord (fun c hc => isPlain_of_isWordChar (hw.isWordChar hname c hc)) hbegin

theorem recoded_keyword {name : Text} (hname : isName name = true) (hr : Solid r) (hdollar : '$' ∉ r) (x : Text) :
    Recoded x ((keyword name).replaceAll r x) :=
  recoded_replaceAll (fun _ _ _ => solid_of_keyword hname) hr hdollar x

theorem recoded_emptyCall {name : Text} (hname : isName name = true) (hr : Solid r) (hdollar : '$' ∉ r) (x : Text) :
    Recoded x ((ToOracle.emptyCall name).replaceAll r x) := by
  refine recoded_replaceAll (fun u w v h => ?_) hr hdollar x
  obtain ⟨hplain, hbegin, -, -⟩ := ToOracle.matches_emptyCall hname h
  exact solid_of_beginsInWord hplain hbegin

theorem inert_replaceWord {name : Text} (hname : isName name = true) (hr : Solid r) (hdollar : '$' ∉ r) (t : Text) :
    inert (replaceCode (keyword name) r t) = inert t :=
  inert_mapCode (recoded_keyword hname hr hdollar) t

theorem inert_replaceCall {name : Text} (hname : isName name = true) (hr : Solid r) (hdollar : '$' ∉ r) (t : Text) :
    inert (replaceCode (ToOracle.emptyCall name) r t) = inert t :=
  inert_mapCode (recoded_emptyCall hname hr hdollar) t

instance (w : Text) : Decidable (Solid w) :=
  decidable_of_iff (w ≠ [] ∧ (∀ c ∈ w, isPlain c = true) ∧ w.head? ≠ some '\n')
    ⟨fun ⟨hne, hplain, hhead⟩ => ⟨hne, hplain, hhead⟩, fun h => ⟨h.ne_nil, h.plain, h.head?_ne⟩⟩

theorem recoded_bars (x : Text) : Recoded x (Text.replaceAll "||" "+" x) :=
  ToTsql.bars_induction .refl (fun _ _ _ h => .step (by decide) (by decide) h) [] x

theorem inert_toTsql_currentDatetime (t : Text) : inert (ToTsql.currentDatetime t) = inert t := by
  have hguid : ToTsql.sysGuid = ToOracle.emptyCall "SYS_GUID".toList := rfl
  rw [ToTsql.currentDatetime, hguid, inert_replaceCall (by decide) (by decide) (by decide),
    inert_replaceWord (by decide) (by decide) (by decide), inert_replaceWord (by decide) (by decide) (by decide)]

theorem inert_toOracle_currentDatetime (t : Text) : inert (ToOracle.currentDatetime t) = inert t := by
  rw [ToOracle.currentDatetime]
  iterate 4 rw [inert_replaceCall (by decide) (by decide) (by decide)]

/-- The rules for words and operators keep the literals, the quoted identifiers and the comments of every
query: the text that comes out, read again, has the same ones. -/
theorem inert_of_word_rules (t : Text) :
    inert (ToTsql.currentDatetime t) = inert t ∧ inert (ToTsql.concatenation t) = inert t ∧
      inert (ToTsql.setOperators t) = inert t ∧ inert (ToOracle.currentDatetime t) = inert t ∧
      inert (ToOracle.setOperators t) = inert t := by
  refine ⟨inert_toTsql_currentDatetime t, inert_mapCode recoded_bars t, ?_, inert_toOracle_currentDatetime t, ?_⟩
  · exact inert_replaceWord (by decide) (by decide) (by decide) t
  · exact inert_replaceWord (by decide) (by decide) (by decide) t

end

end DialectBridge
