import DialectBridge.Proofs.ListRowLimit
/-!
# A limit that becomes a `TOP`

If a query has one heading, a limit that is its only condition becomes a `TOP` behind the heading, and nothing is
left where it was (`Bounded.rownumLimit_sole`). A limit in front of other conditions leaves them behind its `WHERE`
(`Bounded.rownumLimit_first`).
-/
namespace DialectBridge
open Pattern Cursor LexState

/-! ## Headings -/

namespace ToTsql

def headWord : Text := "SELECT"

theorem consuming_selectHead : Paren.selectHead.Consuming := consuming_of_framed (by decide)

section
variable {x : Text}

theorem matches_selectHead (hx : beginsInWord x = false) : Matches Paren.selectHead [] headWord x := by
  refine matches_seq.2 ⟨headWord, [], by simp, ?_, matches_opt.2 (.inr rfl)⟩
  refine matches_seq.2 ⟨headWord, [], by simp, ?_, matches_edge.2 ⟨rfl, ?_⟩⟩
  · refine matches_seq.2 ⟨[], headWord, rfl, matches_edge.2 ⟨rfl, ?_⟩, matches_word.2 (spelled_self _)⟩
    rw [beginsInWord_append (by decide)]
    decide
  · rw [List.nil_append, List.nil_append, hx]
    decide

/-- A query with one heading has no other. -/
theorem stop_selectHead (hx : beginsInWord x = false) (hone : Spares ["SELECT", "DISTINCT", "ALL"] x) {m : Match}
    (hm : m ∈ zeroMatches Paren.selectHead (headWord ++ x)) : m.stop = Text.width headWord := by
  obtain ⟨u, w, v, hsplit, -, hw, -, hstop⟩ := mem_zeroMatches hm
  obtain ⟨k, s, rfl, hs, hk, hv⟩ := exists_headWord hw
  obtain ⟨t, ht, hspelled⟩ := hs.exists_name
  have hword : ∀ c ∈ headWord, Unicode.isWordChar c = true := by decide
  have heq := congrArg pieces hsplit
  have hsplit' : u ++ (k ++ s ++ v) = u ++ k ++ (s ++ v) := by simp
  rw [hsplit', pieces_append (.of_begins hx headWord), pieces_word (by decide) hword, pieces_append (.of_ends hk _),
    pieces_append (.of_begins hv s), pieces_word (hspelled.ne_nil ht) (hspelled.isWordChar ht)] at heq
  have hnone : ∀ q ∈ pieces x, ¬ IsHeadWord q := by
    intro q hq hhead
    rcases hhead with h | h | h
    · exact hone q hq "SELECT" (by simp) h
    · exact hone q hq "DISTINCT" (by simp) h
    · exact hone q hq "ALL" (by simp) h
  have hnil : pieces (u ++ k) = [] := by
    cases hp : pieces (u ++ k) with
    | nil => rfl
    | cons q qs =>
      rw [hp] at heq
      have hmem : s ∈ pieces x := by
        have hrest : pieces x = qs ++ ([s] ++ pieces v) := (List.cons.inj heq).2
        rw [hrest]
        simp
      exact absurd hs (hnone s hmem)
  obtain ⟨rfl, rfl⟩ : u = [] ∧ k = [] := by
    have := flatten_pieces (u ++ k)
    rw [hnil] at this
    simpa [eq_comm] using this
  obtain rfl : headWord = s := by
    rw [hnil] at heq
    exact (List.cons.inj heq).1
  rw [hstop]
  simp

theorem avoids_topAhead (h : Spares ["TOP"] x) : Avoids topAhead x := by
  have hword : Avoids (blanks1 ++ word "TOP".toList ++ edge) x :=
    avoids_of_spares beforeWord_blanks1 (takesNames_word (by decide)) behindWord_edge h
  intro u w v hsplit hw
  obtain ⟨w, e, rfl, hw, he⟩ := matches_seq.1 hw
  obtain ⟨w, t, rfl, hw, ht⟩ := matches_seq.1 hw
  obtain ⟨a, b, rfl, ha, hb⟩ := matches_seq.1 hw
  obtain ⟨rfl, -⟩ := matches_check.1 ha
  exact hword u _ v hsplit (matches_seq.2 ⟨b ++ t, e, by simp, matches_seq.2 ⟨b, t, rfl, by simpa using hb,
    by simpa using ht⟩, by simpa using he⟩)

/-- The last heading of a query that has no other than the first. -/
theorem exists_selectHead (hx : beginsInWord x = false) (hone : Spares ["SELECT", "DISTINCT", "ALL"] x) :
    ∃ m, (zeroMatches Paren.selectHead (headWord ++ x)).getLast? = some m ∧ m.stop = Text.width headWord := by
  obtain ⟨g, g', htakes⟩ := matches_selectHead hx
  obtain ⟨m, hm⟩ := Option.isSome_iff_exists.1 (isSome_matchAt?_iff.2 ⟨_, _, g, g', rfl, htakes⟩)
  obtain ⟨ms, hms⟩ := exists_findAll_cons consuming_selectHead hm fun _ _ _ _ _ => Nat.zero_le _
  obtain ⟨_, _, -, hfirst, -, -⟩ := matchAt?_eq_some hm
  have hmem : m ∈ zeroMatches Paren.selectHead (headWord ++ x) := by
    refine List.mem_filter.2 ⟨?_, by rw [hfirst]; rfl⟩
    rw [List.nil_append] at hms
    rw [hms]
    exact List.mem_cons_self
  have hlast := List.getLast?_eq_some_getLast (List.ne_nil_of_mem hmem)
  exact ⟨_, hlast, stop_selectHead hx hone (List.mem_of_getLast? hlast)⟩

/-- `TOP` goes behind the only heading in front of a place. -/
theorem insertTop?_eq {y : Text} (hx : beginsInWord x = false) (hmask : mask (x ++ y) = mask x ++ mask y)
    (hnest : nest 0 (mask x) = some 0) (hone : Spares ["SELECT", "DISTINCT", "ALL"] (mask x))
    (htop : Spares ["TOP"] (mask (x ++ y))) (n : Nat) :
    insertTop? (headWord ++ (x ++ y)) (Text.width (headWord ++ x)) n = some (some (headWord ++ (topText n ++ (x ++ y)))) := by
  have hhead : ∀ x, mask (headWord ++ x) = headWord ++ mask x := mask_plain_append (by decide)
  have hsplit : mask (headWord ++ (x ++ y)) = mask (headWord ++ x) ++ mask y := by
    rw [hhead, hhead, hmask, List.append_assoc]
  have hbegins : beginsInWord (mask x) = false := by rwa [beginsInWord_mask]
  have hnest' : nest 0 (mask (headWord ++ x)) = some 0 := by
    rw [hhead, nest_append, (by decide : nest 0 headWord = some 0), Option.bind_some, hnest]
  have hstart : scopeStart (mask (headWord ++ (x ++ y))) (Text.width (headWord ++ x)) = 0 := by
    have := scopeStart_of_nest hnest' (mask y)
    rwa [← hsplit, width_mask] at this
  have hheads : depthZeroMatches? (mask (headWord ++ (x ++ y))) 0 (Text.width (headWord ++ x)) Paren.selectHead =
      some ((zeroMatches Paren.selectHead (headWord ++ mask x)).map fun m => ⟨m.start, m.stop⟩) := by
    have := depthZeroMatches?_append [] (mask (headWord ++ x)) (mask y) Paren.selectHead
    rw [List.nil_append, ← hsplit, width_mask, hhead x] at this
    simpa using this
  obtain ⟨m, hlast, hstop⟩ := exists_selectHead hbegins hone
  have hafter : Text.from? (mask (headWord ++ (x ++ y))) (Text.width headWord) = some (mask (x ++ y)) := by
    rw [hhead]
    exact Text.from?_append _ _
  have hnone : topAhead.occursIn (mask (x ++ y)) = false := (avoids_topAhead htop).occursIn
  have hinsert : Text.insert? (headWord ++ (x ++ y)) (Text.width headWord) (topText n) =
      some (headWord ++ (topText n ++ (x ++ y))) := Text.insert?_append _ _ _
  unfold insertTop? enclosingSelect?
  simp only [hstart, hheads, Option.bind_eq_bind, Option.bind_some, List.getLast?_map, Option.pure_def, hlast,
    Option.map_some, hstop, hafter, hnone, Bool.false_eq_true, if_false]
  rw [← topText, hinsert]
  rfl

end

/-! ## One step -/

theorem findSomeM?_append_of_none {σ α β : Type} {f : α → Editing σ (Option β)} {l l' : List α}
    (h : ∀ a ∈ l, f a = pure none) : (l ++ l').findSomeM? f = l'.findSomeM? f := by
  induction l with
  | nil => rfl
  | cons a l ih =>
    rw [List.cons_append, List.findSomeM?, h a (by simp), pure_bind]
    exact ih fun b hb => h b (List.mem_cons_of_mem a hb)

theorem avoids_keyword {name : String} {t : Text} (hname : isName name.toList = true) (h : Spares [name] t) :
    Avoids (keyword name.toList) t :=
  avoids_of_spares beforeWord_edge (takesNames_word hname) behindWord_edge h

/-- What a text does not hold is not found in the block around a place at which no parenthesis is open. -/
theorem depthZeroMatches?_of_nest {a b : Text} {p : Pattern} (hall : nest 0 (a ++ b) = some 0) (ha : nest 0 a = some 0)
    (hp : Avoids p (a ++ b)) :
    depthZeroMatches? (a ++ b) (scopeStart (a ++ b) (Text.width a)) (scopeEnd (a ++ b) (Text.width a)) p = some [] := by
  have hb : nest 0 b = some 0 := by rwa [nest_append, ha, Option.bind_some] at hall
  have hwhole := depthZeroMatches?_append [] (a ++ b) [] p
  rw [List.nil_append, List.append_nil, Text.width_nil, Nat.zero_add, zeroMatches, hp.findAll] at hwhole
  rw [scopeStart_of_nest ha, scopeEnd_append, scope_of_nest hb, ← Text.width_append, hwhole]
  rfl

section
variable {x y c a w rest sql out : Text} {form : RownumForm} {m : Match} {ms : List Match} {n : Nat}

/-- A test is moved if it is the first that is found, no other condition is an alternative to it, and a heading takes
the `TOP`. -/
theorem moveRownum_eq (hsplit : sql = a ++ (w ++ c)) (hstart : m.start = Text.width a)
    (hstop : m.stop = Text.width (a ++ w)) (hblocked : (form.stop.any fun p => p.occursIn m.last.right) = false)
    (hors : depthZeroMatches? (mask sql) (scopeStart (mask sql) m.start) (scopeEnd (mask sql) m.start)
      (keyword "OR") = some [])
    (hlimit : rownumLimit? m = some n)
    (hinsert : insertTop? (a ++ (form.kept.toList ++ c)) (Text.width a) n = some (some out)) :
    moveRownum sql (mask sql) form m = pure (some out) := by
  have hsplice : Text.splice? sql m.start m.stop form.kept.toList = some (a ++ (form.kept.toList ++ c)) := by
    rw [hsplit, hstart, hstop, Text.width_append, ← List.append_assoc, Text.splice?_append, List.append_assoc]
  rw [← hstart] at hinsert
  unfold moveRownum
  simp only [hblocked, hors, hlimit, hsplice, hinsert, Editing.lift_some_bind]
  rfl

/-- A step moves the first test of the first form that is found. -/
theorem rownumStep_eq {before behind : List RownumForm} (hforms : rownumForms = before ++ form :: behind)
    (hbefore : ∀ f ∈ before, f.pattern.findAll (mask sql) = []) (hfound : form.pattern.findAll (mask sql) = m :: ms)
    (hmove : moveRownum sql (mask sql) form m = pure (some out)) : rownumStep sql = pure (some out) := by
  rw [rownumStep, hforms, findSomeM?_append_of_none fun f hf => by rw [hbefore f hf]; rfl, List.findSomeM?, hfound]
  simp only [List.findSomeM?, hmove, pure_bind]

/-- If a step takes the last `ROWNUM` out, the rule is done. -/
theorem rownumLimit_of_rownumStep (hstep : rownumStep sql = pure (some out)) (hgone : Spares ["ROWNUM"] (mask out)) :
    rownumLimit sql = pure out := by
  have hfix : fixpoint rownumStep sql = pure out := by
    rw [fixpoint, maxPasses, DialectBridge.repeatStep, hstep, pure_bind]
    by_cases heq : out = sql
    · simp only [heq, if_true]
    · simp only [if_neg heq, repeatStep_of_spares hgone]
  rw [rownumLimit, hfix, pure_bind, occursIn_rownum_of_spares hgone]
  rfl

theorem rownumLimit?_eq (hn : n < Nat.pow 2 64) (hop : m.group? 1 = some ['<', '='])
    (hnumber : m.group? 2 = some (Text.ofNat n)) : rownumLimit? m = some n := by
  simp only [rownumLimit?, hop, hnumber, Text.readNat?_ofNat hn, Option.bind_eq_bind, Option.bind_some]
  rfl

/-- A `TOP` in the heading is no `ROWNUM`. -/
theorem spares_insertTop (hy : beginsInWord y = false) (n : Nat) (h : Spares ["ROWNUM"] (mask y)) :
    Spares ["ROWNUM"] (mask (headWord ++ (topText n ++ y))) := by
  have hdigits : IsDigits (Text.ofNat n) := fun _ hc => Text.isDigit_of_mem_ofNat hc
  have htop : Spares ["ROWNUM"] (topText n) :=
    spares_append (by decide) (spares_digits (by decide) hdigits) (.of_ends (by decide) _)
  rw [mask_plain_append (by decide), mask_plain_append (isPlain_topText n)]
  refine spares_append (by decide) (spares_append htop h (.of_begins (by rwa [beginsInWord_mask]) _)) (.of_begins ?_ _)
  rw [topText, List.append_assoc, beginsInWord_append (by decide)]
  decide

/-! ## The limit -/

/-- The heading of the query has no parentheses. -/
theorem Bounded.nested_tail (h : Bounded (headWord ++ x) (Text.ofNat n) rest sql) : nest 0 (mask x) = some 0 := by
  have := h.nested
  rwa [mask_plain_append (by decide), nest_append, (by decide : nest 0 headWord = some 0), Option.bind_some] at this

/-- Without other conditions the limit becomes a `TOP`, and nothing is left where it was. -/
theorem Bounded.rownumLimit_sole (h : Bounded (headWord ++ x) (Text.ofNat n) [] sql) (hn : n < Nat.pow 2 64)
    (hx : beginsInWord x = false) (hspares : Spares ["SELECT", "DISTINCT", "ALL", "TOP", "AND", "OR", "ROWNUM"] (mask x)) :
    rownumLimit sql = pure (headWord ++ (topText n ++ x)) := by
  have hmask : mask sql = mask (headWord ++ x) ++ (limitHead ++ Text.ofNat n) := by
    rw [h.mask_eq_append, mask_nil, List.append_nil]
  have hconditions : Spares ["AND", "OR"] (mask sql) := by
    rw [hmask, mask_plain_append (by decide)]
    refine spares_append (spares_append (by decide) (hspares.mono (by simp)) (.of_begins ?_ _))
      (spares_append (by decide) (spares_digits (by decide) h.digits) (.of_ends (by decide) _)) (.of_begins ?_ _)
    · rwa [beginsInWord_mask]
    · rw [beginsInWord_append (by decide)]
      decide
  have hnest : nest 0 (limitHead ++ Text.ofNat n) = some 0 := by
    rw [nest_append, (by decide : nest 0 limitHead = some 0), Option.bind_some]
    exact nest_of_isWordChar_or_isBlank (fun c hc => .inl (isWordChar_of_isDigits h.digits c hc)) 0
  have hors := depthZeroMatches?_of_nest (b := limitHead ++ Text.ofNat n) (p := keyword "OR")
    (by rw [nest_append, h.nested, Option.bind_some, hnest]) h.nested
    (avoids_keyword (by decide) (by rw [← hmask]; exact hconditions.mono (by simp)))
  rw [← hmask, width_mask] at hors
  obtain ⟨m, ms, hfound, hstart, hstop, hright, hop, hnumber⟩ := h.exists_soleMatch Nat.toDigits_ne_nil
  have hinsert := insertTop?_eq (y := []) hx (by simp) h.nested_tail (hspares.mono (by simp))
    (by rw [List.append_nil]; exact hspares.mono (by simp)) n
  simp only [List.append_nil] at hinsert
  have hmove : moveRownum sql (mask sql) soleForm m = pure (some (headWord ++ (topText n ++ x))) := by
    have hsplit : sql = headWord ++ x ++ (limitHead ++ Text.ofNat n ++ []) := by
      rw [h.split, List.append_nil, List.append_nil]
    refine moveRownum_eq hsplit hstart hstop ?_ (by rw [hstart, hors]) (rownumLimit?_eq hn hop hnumber) ?_
    · rw [hright, mask_nil]
      decide
    · have hnil : headWord ++ x ++ (soleForm.kept.toList ++ []) = headWord ++ x := List.append_nil _
      rw [hnil, hinsert]
  have hforms : rownumForms = rownumForms.take 2 ++ soleForm :: [] := rfl
  refine rownumLimit_of_rownumStep (rownumStep_eq hforms ?_ hfound hmove) ?_
  · exact fun form hform => (avoids_of_and hform (hconditions.mono (by simp))).findAll
  · exact spares_insertTop hx n (hspares.mono (by simp))

/-- What is in front of the condition with the limit. -/
theorem Bounded.mask_space (h : Bounded (headWord ++ x) (Text.ofNat n) rest sql) (hx : beginsInWord x = false)
    {names : List String} (hspace : Spares names [' ']) (hspares : Spares names (mask x)) :
    (code.after x).live = true ∧ mask (x ++ [' ']) = mask x ++ [' '] ∧ beginsInWord (x ++ [' ']) = false ∧
      nest 0 (mask (x ++ [' '])) = some 0 ∧ Spares names (mask (x ++ [' '])) := by
  have hlive : (code.after x).live = true := by
    have := h.live
    rwa [after_append, after_of_all_isPlain (t := headWord) rfl (by decide) (by decide)] at this
  have hmask : mask (x ++ [' ']) = mask x ++ [' '] := by
    have := mask_plain_between (b := []) hlive (x := [' ']) (by decide) (by simp)
    rwa [mask_nil, List.append_nil] at this
  refine ⟨hlive, hmask, ?_, ?_, ?_⟩
  · cases x with
    | nil => rfl
    | cons d x => exact hx
  · rw [hmask, nest_append, h.nested_tail]
    rfl
  · rw [hmask]
    exact spares_append hspares hspace (.of_begins rfl _)

/-- No other condition is an alternative to a limit in front of conditions that are joined to it. -/
theorem Bounded.no_alternative (h : Bounded (headWord ++ x) (Text.ofNat n) (andTail ++ c) sql)
    (hx : beginsInWord x = false) (hc : beginsInWord c = false) (hspares : Spares ["OR"] (mask x))
    (hconditions : Spares ["OR"] (mask c)) (hnest : nest 0 (mask c) = some 0) :
    depthZeroMatches? (mask sql) (scopeStart (mask sql) (Text.width (headWord ++ (x ++ [' ']))))
      (scopeEnd (mask sql) (Text.width (headWord ++ (x ++ [' '])))) (keyword "OR") = some [] := by
  obtain ⟨-, hspace, hbegins, hnested, hspared⟩ := h.mask_space hx (by decide) hspares
  rw [← beginsInWord_mask] at hbegins hc
  have hhead : limitHead = [' '] ++ "WHERE ROWNUM <= ".toList := by decide
  have hmask : mask sql = headWord ++ mask (x ++ [' ']) ++
      ("WHERE ROWNUM <= ".toList ++ (Text.ofNat n ++ (andTail ++ mask c))) := by
    rw [h.mask_eq_append, hspace, hhead, mask_plain_append (by decide), mask_plain_append (x := andTail) (by decide)]
    simp only [List.append_assoc]
  have hfront : nest 0 (headWord ++ mask (x ++ [' '])) = some 0 := by
    rw [nest_append, (by decide : nest 0 headWord = some 0), Option.bind_some, hnested]
  have hall : nest 0 (mask sql) = some 0 := by
    have hnumber : ∀ d, nest d (Text.ofNat n) = some d :=
      nest_of_isWordChar_or_isBlank fun c hc => .inl (isWordChar_of_isDigits h.digits c hc)
    have hplain : ∀ t ∈ ["WHERE ROWNUM <= ".toList, andTail], '(' ∉ t ∧ ')' ∉ t := by decide
    have hneutral : ∀ t ∈ ["WHERE ROWNUM <= ".toList, andTail], ∀ d, nest d t = some d := fun t ht =>
      nest_of_not_mem (hplain t ht).1 (hplain t ht).2
    rw [hmask, nest_append, hfront, Option.bind_some, nest_append_of_neutral (hneutral _ (by simp)),
      nest_append_of_neutral hnumber, nest_append_of_neutral (hneutral _ (by simp)), hnest]
  have hor : Spares ["OR"] (mask sql) := by
    have hbound : Spares ["OR"] (Text.ofNat n ++ (andTail ++ mask c)) := by
      refine spares_append (spares_digits (by decide) h.digits) ?_ (.of_begins ?_ _)
      · exact spares_append (by decide) hconditions (.of_begins hc _)
      · rw [beginsInWord_append (by decide)]
        decide
    rw [hmask]
    refine spares_append (spares_append (by decide) hspared (.of_begins hbegins _)) ?_ (.of_ends ?_ _)
    · exact spares_append (by decide) hbound (.of_ends (by decide) _)
    · rw [hspace, ← List.append_assoc]
      exact endsInWord_blanks (by simp) (by decide) _
  have hors := depthZeroMatches?_of_nest (p := keyword "OR") (by rw [← hmask, hall]) hfront
    (avoids_keyword (by decide) (by rw [← hmask]; exact hor))
  have hwidth : Text.width (headWord ++ mask (x ++ [' '])) = Text.width (headWord ++ (x ++ [' '])) := by
    rw [Text.width_append, width_mask, ← Text.width_append]
  rwa [← hmask, hwidth] at hors

/-- In front of other conditions the limit becomes a `TOP`, and the conditions stay. -/
theorem Bounded.rownumLimit_first (h : Bounded (headWord ++ x) (Text.ofNat n) (andTail ++ c) sql) (hn : n < Nat.pow 2 64)
    (hx : beginsInWord x = false) (hc : beginsInWord c = false)
    (hspares : Spares ["SELECT", "DISTINCT", "ALL", "TOP", "OR", "ROWNUM"] (mask x))
    (hconditions : Spares ["TOP", "OR", "ROWNUM"] (mask c)) (hnest : nest 0 (mask c) = some 0) :
    rownumLimit sql = pure (headWord ++ (topText n ++ (x ++ (" WHERE".toList ++ c)))) := by
  obtain ⟨hlive, hspace, hbegins, hnested, hspared⟩ := h.mask_space hx (by decide) hspares
  have hout : x ++ (" WHERE".toList ++ c) = x ++ [' '] ++ ("WHERE".toList ++ c) := by
    rw [List.append_assoc]
    rfl
  have hmask : mask (x ++ [' '] ++ ("WHERE".toList ++ c)) = mask (x ++ [' ']) ++ ("WHERE".toList ++ mask c) := by
    rw [hspace, ← hout, mask_plain_between hlive (by decide) (by decide), List.append_assoc]
    rfl
  have hleft : ∀ t, Apart (mask (x ++ [' '])) t := .of_ends (by rw [hspace]; exact endsInWord_blanks (by simp) (by decide) _)
  have hstays : Spares ["TOP", "ROWNUM"] (mask (x ++ [' '] ++ ("WHERE".toList ++ c))) := by
    rw [hmask]
    refine spares_append (hspared.mono (by simp)) ?_ (hleft _)
    exact spares_append (by decide) (hconditions.mono (by simp)) (.of_begins (by rw [beginsInWord_mask, hc]) _)
  obtain ⟨m, ms, hfound, hstart, hstop, hop, hnumber⟩ := h.exists_firstMatch hc Nat.toDigits_ne_nil
  have hmove : moveRownum sql (mask sql) firstForm m =
      pure (some (headWord ++ (topText n ++ (x ++ [' '] ++ ("WHERE".toList ++ c))))) := by
    have hsplit : sql = headWord ++ (x ++ [' ']) ++ ("WHERE ROWNUM <= ".toList ++ (Text.ofNat n ++ andTail) ++ c) := by
      rw [h.split, (by decide : limitHead = [' '] ++ "WHERE ROWNUM <= ".toList)]
      simp only [List.append_assoc]
    have hors := h.no_alternative hx hc (hspares.mono (by simp)) (hconditions.mono (by simp)) hnest
    refine moveRownum_eq hsplit (by rw [hstart, List.append_assoc]) ?_ rfl (by rw [hstart, List.append_assoc, hors])
      (rownumLimit?_eq hn hop hnumber) ?_
    · rw [hstop, (by decide : limitHead = [' '] ++ "WHERE ROWNUM <= ".toList)]
      simp only [List.append_assoc]
    · have hinsert := insertTop?_eq hbegins (by rw [hmask, mask_plain_append (x := "WHERE".toList) (by decide)]) hnested
        (hspared.mono (by simp)) (hstays.mono (by simp)) n
      rwa [← List.append_assoc] at hinsert
  have hforms : rownumForms = [] ++ firstForm :: rownumForms.drop 1 := rfl
  have hstep := rownumStep_eq hforms (by simp) hfound hmove
  rw [hout]
  refine rownumLimit_of_rownumStep hstep (spares_insertTop ?_ n (hstays.mono (by simp)))
  rw [beginsInWord_append (by simp), hbegins]

end

end ToTsql
end DialectBridge
