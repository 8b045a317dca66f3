import DialectBridge.Proofs.RownumBounds
/-!
# The row limit of a list

A tidy query with a limit for its rows behind it loses the limit: it becomes a `TOP`, or the `ROWNUM`
in it becomes a row number where its number is too large. Either way the query is tidy
(`Limited.yields_rownumLimit`).
-/
namespace DialectBridge.ToTsql
open Pattern Cursor LexState

/-! ## The limit -/

/-- The query has a limit for its rows behind the tidy text `front`. -/
structure Limited (front number sql : Text) : Prop where
  tidy : Tidy front
  live : (code.after front).live = true
  ends : endsInWord front = true
  digits : IsDigits number
  split : sql = front ++ (limitHead ++ number)

section
variable {front number sql : Text}

/-- The only `ROWNUM` is that of the limit. -/
theorem Limited.bounded (h : Limited front number sql) : Bounded front number [] sql where
  live := h.live
  last := by
    refine isBlank_of_getLast? ?_
    rw [endsInWord_mask h.live, h.ends]
  nested := h.tidy.nested
  before := h.tidy.spares.mono (by decide)
  digits := h.digits
  filled := .inr rfl
  begins := rfl
  behind := by
    rw [mask_nil]
    decide
  split := by rw [List.append_nil, h.split]

theorem Tidy.append_space (h : Tidy front) (hlive : (code.after front).live = true) : Tidy (front ++ [' ']) := by
  have hmask : mask (front ++ [' ']) = mask front ++ [' '] := by
    have := mask_plain_between (b := []) hlive (x := [' ']) (by decide) (by simp)
    simpa using this
  have hpieces : pieces (mask front ++ [' ']) = pieces (mask front) ++ [[' ']] := by
    rw [pieces_append (.of_begins (by decide) _)]
    rfl
  obtain ⟨hspares, hbar, hamp, hnest, p, hp, hselect⟩ := h
  refine ⟨?_, by simpa [hmask] using hbar, by simpa using hamp, ?_, p, by simp [hmask, hpieces, hp], hselect⟩
  · intro q hq name hname
    rw [hmask, hpieces, List.mem_append, List.mem_singleton] at hq
    rcases hq with hq | rfl
    · exact hspares q hq name hname
    · exact not_spelled_singleton (isName_reservedNames name (oracleNames_subset hname)) (by decide)
  · rw [hmask, nest_append, hnest]
    rfl

/-- A step moves the limit into a `TOP`, or leaves the query alone. -/
theorem Limited.yields_rownumStep (h : Limited front number sql) :
    Yields (rownumStep sql) fun r => ∀ next ∈ r, Tidy next := by
  refine yields_findSomeM? fun form hform => yields_findSomeM? fun m hm => ?_
  have hand : Spares ["AND"] (mask sql) := by
    rw [h.bounded.mask_eq_append, mask_nil, List.append_nil]
    refine spares_append (h.tidy.spares.mono (by decide)) ?_ (.of_begins ?_ _)
    · exact spares_append (by decide) (spares_digits (by decide) h.digits) (.of_ends (by decide) _)
    · rw [beginsInWord_append (by decide)]
      decide
  -- only the form without other conditions is found
  obtain ⟨hpattern, hkept⟩ : form.pattern = soleTest ∧ form.kept = "" := by
    by_cases htake : form ∈ rownumForms.take 2
    · rw [(avoids_of_and htake hand).findAll] at hm
      cases hm
    · simp only [rownumForms, List.take_succ_cons, List.take_zero, List.mem_cons, List.not_mem_nil,
        or_false, not_or] at hform htake
      obtain rfl := (hform.resolve_left htake.1).resolve_left htake.2
      exact ⟨rfl, rfl⟩
  obtain ⟨r, hr, hout⟩ := exists_moveRownum hform hm
  refine ⟨r, hr, fun next hnext => ?_⟩
  obtain ⟨a, w, c, n, hsql, hstart, hstop, -, -, hinsert⟩ := hout next hnext
  obtain ⟨u, x, hsplit, hat⟩ := exists_of_mem_findAll hm
  obtain ⟨w', v, rfl, hfirst, hlast, htakes⟩ := matchAt?_eq_some hat
  rw [hpattern] at htakes
  obtain ⟨hu, rfl, -⟩ := h.bounded.of_takes_soleTest hsplit htakes
  -- the test is at the end of the query
  have hau : Text.width a = Text.width u := by
    rw [← hstart, Match.start, hfirst, offset_between]
  have hend : Text.width (a ++ w) = Text.width sql := by
    rw [← hstop, Match.stop, hlast, offset_between, ← width_mask sql, hsplit, mask_nil, List.append_nil]
  have hnil : c = [] := by
    by_contra hne
    have := Text.width_pos hne
    rw [hsql, Text.width_append (a ++ w)] at hend
    omega
  have ha : Tidy a := by
    rcases hu with rfl | rfl
    · rw [width_mask] at hau
      have heq : a ++ (w ++ c) = front ++ (limitHead ++ number) := by rw [← h.split, hsql, List.append_assoc]
      rw [(Text.append_inj_of_width heq hau).1]
      exact h.tidy
    · rw [Text.width_append, width_mask, ← Text.width_append] at hau
      have heq : a ++ (w ++ c) = (front ++ [' ']) ++ (limitHead.tail ++ number) := by
        have hcons : limitHead = [' '] ++ limitHead.tail := by decide
        rw [← List.append_assoc, ← hsql, h.split, List.append_assoc, ← List.append_assoc [' '], ← hcons]
      rw [(Text.append_inj_of_width heq hau).1]
      exact h.tidy.append_space h.live
  have hinsert : insertTop? (a ++ []) (Text.width a) n = some (some next) := by
    simpa [hkept, hnil] using hinsert
  obtain ⟨r', hr', hplace⟩ := exists_insertTop? a [] n
  obtain rfl := Option.some.inj (hr'.symm.trans hinsert)
  obtain ⟨x, s, y, rfl, hs, hx, hy, hlive, rfl⟩ := hplace next rfl (apart_nil_right a)
  rw [List.append_nil] at hy ⊢
  exact ha.insert_top hs hx hy hlive n

theorem Tidy.sparesRownum (h : Tidy sql) : Spares ["ROWNUM"] (mask sql) := h.spares.mono (by decide)

theorem Limited.yields_fixpoint (h : Limited front number sql) :
    Yields (fixpoint rownumStep sql) fun out => out = sql ∨ Tidy out := by
  obtain ⟨r, hr, hnext⟩ := h.yields_rownumStep
  rw [fixpoint, maxPasses, DialectBridge.repeatStep]
  refine hr.yields_bind ?_
  cases r with
  | none => exact yields_pure (.inl rfl)
  | some next =>
    by_cases heq : next = sql
    · simpa only [if_pos heq] using yields_pure (.inl rfl)
    · simpa only [if_neg heq, repeatStep_of_spares (hnext next rfl).sparesRownum] using yields_pure (.inr (hnext next rfl))

theorem Limited.exists_rownum (h : Limited front number sql) :
    (keyword "ROWNUM").occursIn (mask sql) = true := by
  refine (occursIn_keyword_iff (by decide)).2 ⟨rownumWord, ?_, spelled_rownumWord⟩
  rw [h.bounded.mask_eq, pieces_name (by decide) spelled_rownumWord (endsInWord_whereHead _) (beginsInWord_boundHead _)]
  simp

/-- The query with a row number for its `ROWNUM`. -/
theorem Limited.replaceCode_rownum (h : Limited front number sql) :
    replaceCode (keyword "ROWNUM") rowNumber sql = front ++ whereHead ++ (rowNumber ++ (boundHead ++ number)) := by
  have hname : isName "ROWNUM".toList = true := by decide
  have hdollar : '$' ∉ rowNumber := by decide
  have hplain : ∀ c ∈ whereHead, isPlain c = true := by decide
  have hlive : (code.after (front ++ whereHead)).live = true := by
    rw [after_append, after_of_all_isPlain h.live hplain (by decide)]
    rfl
  have hfront : mask (front ++ whereHead) = mask front ++ whereHead := by
    have := mask_plain_between (b := []) h.live hplain (by decide)
    simpa using this
  have hbound : mask (boundHead ++ number) = boundHead ++ number := mask_of_all_isPlain fun c hc => by
    rcases List.mem_append.1 hc with hc | hc
    · exact (by decide : ∀ c ∈ boundHead, isPlain c = true) c hc
    · exact isPlain_of_isWordChar (isWordChar_of_isDigits h.digits c hc)
  have hsplit : sql = front ++ whereHead ++ (rownumWord ++ (boundHead ++ number)) := by
    rw [h.split, limitHead_eq]
    simp only [List.append_assoc]
  rw [hsplit, replaceCode_around hname hdollar spelled_rownumWord hlive
      (endsInWord_whereHead _) (beginsInWord_boundHead _), replaceCode_eq_self hname hdollar, replaceCode_eq_self hname hdollar]
  · have hspares : Spares ["ROWNUM"] (boundHead ++ number) :=
      spares_append (by decide) (spares_digits (by decide) h.digits) (.of_ends (by decide) _)
    rw [hbound]
    exact fun q hq => hspares q hq _ (by simp)
  · have hspares : Spares ["ROWNUM"] (mask front ++ whereHead) :=
      spares_append h.bounded.before (by decide) (.of_begins (by decide) _)
    rw [hfront]
    exact fun q hq => hspares q hq _ (by simp)

/-- The limit becomes a `TOP`, or its `ROWNUM` a row number. -/
theorem Limited.yields_rownumLimit (h : Limited front number sql)
    (hnumbered : Tidy (front ++ whereHead ++ (rowNumber ++ (boundHead ++ number)))) :
    Yields (rownumLimit sql) Tidy := by
  refine h.yields_fixpoint.bind fun out hout => ?_
  rcases hout with rfl | hout
  · rw [h.exists_rownum, if_pos rfl]
    refine (gives_warn _ _).yields_bind (yields_pure ?_)
    have heq := h.replaceCode_rownum
    exact heq ▸ hnumbered
  · rw [occursIn_rownum_of_spares hout.sparesRownum]
    exact yields_pure hout

end

end DialectBridge.ToTsql
