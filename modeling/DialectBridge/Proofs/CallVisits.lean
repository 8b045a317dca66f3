import DialectBridge.Proofs.CallRounds
import DialectBridge.Proofs.EditedCalls
/-!
# Which calls are visited

A replacement of calls that puts in texts that can stand for a call, and takes nothing of what is behind the calls,
visits each call of the query that is closed, once, from the last to the first. A call is visited with what the
answers to the calls inside of it made of its inside, and the result is what all the answers made of the query.
-/
namespace DialectBridge
open Pattern Text LexState

/-- Where the head of a call that starts at offset `i` ends, and where the call is closed, if one does. -/
def Call.matchedAt? (name masked : Text) (i : Nat) : Option (Nat × Nat) := do
  let m ← ((Call.head name).findAll masked).find? (·.start == i)
  let closing ← matchingParen? masked (m.stop - 1)
  return (m.stop, closing)

/-- The edits that the answers to the visited calls make in a query: at the start of a call that was replaced, up to
its closing parenthesis. -/
def answerEdits (name sql : Text) (visits : List Visit) (i : Nat) : Option (Nat × Text) := do
  let visit ← visits.find? (·.call.start == i)
  let (r, _) ← visit.answer
  let (_, closing) ← Call.matchedAt? name (mask sql) i
  return (closing + 1, r)

/-- A text that can stand for a call. -/
structure Seamless (r : Text) : Prop where
  first : ∃ c ∈ r.head?, c.isAlpha = true
  last : ∃ c ∈ r.getLast?, Unicode.isWordChar c = true ∨ c = ')'
  closed : (code.after r).live = true
  nested : WellNested (mask r)

/-- Whether nothing of the tail is replaced, and each replacement can stand for a call, as far as the calls are
closed and nested themselves. -/
def AnswersSeamlessly {σ : Type} (f : Call → Editing σ (Option (Text × Nat))) : Prop :=
  ∀ call s r n s', (code.after call.inner).live = true → WellNested (mask call.inner) →
    (f call).run s = some (some (r, n), s') → n = 0 ∧ Seamless r

section
variable {name t w x f z sql : Text} {i j closing : Nat}

theorem matchedAt?_eq_some_iff (hname : isName name = true) :
    Call.matchedAt? name t i = some (j, closing) ↔ Heads name t i j ∧ matchingParen? t (j - 1) = some closing := by
  simp only [Call.matchedAt?, Option.bind_eq_bind, Option.bind_eq_some_iff]
  constructor
  · rintro ⟨m, hm, k, hclosing, h⟩
    obtain ⟨rfl, rfl⟩ := Prod.mk.inj (Option.some.inj h)
    exact ⟨⟨m, List.mem_of_find?_eq_some hm, by simpa using List.find?_some hm, rfl⟩, hclosing⟩
  · rintro ⟨hhead, hclosing⟩
    obtain ⟨m, hm, rfl, rfl⟩ := id hhead
    have hfound : (((Call.head name).findAll t).find? (·.start == m.start)).isSome = true :=
      List.find?_isSome.2 ⟨m, hm, beq_self_eq_true _⟩
    obtain ⟨m', hm'⟩ := Option.isSome_iff_exists.1 hfound
    have hstart : m'.start = m.start := by simpa using List.find?_some hm'
    have hstop : m'.stop = m.stop :=
      Heads.stop_eq hname ⟨m', List.mem_of_find?_eq_some hm', hstart, rfl⟩ hhead
    exact ⟨m', hm', closing, by rw [hstop, hclosing], by rw [hstop]; rfl⟩

/-- A closed call begins with its head, whose parenthesis is closed. -/
theorem exists_of_matchedAt? (hname : isName name = true)
    (h : Call.matchedAt? name (mask (x ++ t)) (width x) = some (j, closing)) :
    (code.after x).live = true ∧ endsInWord x = false ∧ ∃ f y, t = f ++ '(' :: y ∧ j = width (x ++ f) + 1 ∧
      HeadText name f ∧ ¬ Unshut code 0 y := by
  obtain ⟨hhead, hclosing⟩ := (matchedAt?_eq_some_iff hname).1 h
  obtain ⟨x', f, y, hsplit, hx, rfl, hlive, hend, hf⟩ := (heads_mask_iff hname).1 hhead
  obtain ⟨rfl, rfl⟩ := append_inj_of_width hsplit hx
  refine ⟨hlive, hend, f, y, rfl, rfl, hf, ?_⟩
  rw [Nat.add_sub_cancel] at hclosing
  rw [← isSome_matchingParen?_iff hf hlive, hclosing]
  rfl

theorem exists_matchedAt? {y : Text} (hname : isName name = true) (hlive : (code.after x).live = true)
    (hend : endsInWord x = false) (hf : HeadText name f) (hy : ¬ Unshut code 0 y) :
    ∃ closing, Call.matchedAt? name (mask (x ++ (f ++ '(' :: y))) (width x) = some (width (x ++ f) + 1, closing) := by
  obtain ⟨closing, hclosing⟩ := Option.isSome_iff_exists.1 ((isSome_matchingParen?_iff hf hlive).2 hy)
  have hhead : Heads name (mask (x ++ (f ++ '(' :: y))) (width x) (width (x ++ f) + 1) :=
    (heads_mask_iff hname).2 ⟨x, f, y, rfl, rfl, rfl, hlive, hend, hf⟩
  exact ⟨closing, (matchedAt?_eq_some_iff hname).2 ⟨hhead, by rwa [Nat.add_sub_cancel]⟩⟩

/-- Whether a closed call begins at a place. -/
theorem isSome_matchedAt?_iff (hname : isName name = true) :
    (Call.matchedAt? name (mask (x ++ t)) (width x)).isSome = true ↔
      (code.after x).live = true ∧ endsInWord x = false ∧
        ∃ f y, t = f ++ '(' :: y ∧ HeadText name f ∧ ¬ Unshut code 0 y := by
  constructor
  · intro hsome
    obtain ⟨⟨j, closing⟩, hmatched⟩ := Option.isSome_iff_exists.1 hsome
    obtain ⟨hlive, hend, f, y, hsplit, -, hf, hy⟩ := exists_of_matchedAt? hname hmatched
    exact ⟨hlive, hend, f, y, hsplit, hf, hy⟩
  · rintro ⟨hlive, hend, f, y, rfl, hf, hy⟩
    obtain ⟨closing, hmatched⟩ := exists_matchedAt? hname hlive hend hf hy
    rw [hmatched]
    rfl

/-! ## Texts that can stand for a call -/

theorem Seamless.part {r : Text} (h : Seamless r) : Part r := by
  refine ⟨?_, ?_⟩
  · obtain ⟨c, hc, halpha⟩ := h.first
    obtain ⟨u, rfl⟩ := List.head?_eq_some_iff.1 hc
    have hname : (c.isAlphanum || c == '_') = true := by simp [Char.isAlphanum, halpha]
    rw [beginsInWord_cons, Unicode.isWordChar_ascii (toNat_lt_of_isNameChar hname), hname]
  · obtain ⟨c, hc, hlast⟩ := h.last
    obtain ⟨u, rfl⟩ := List.getLast?_eq_some_iff.1 hc
    have hplain : isPlain c = true := by
      rcases hlast with hword | rfl
      · exact isPlain_of_isWordChar hword
      · decide
    have hline : c ≠ '\n' := by
      rcases hlast with hword | rfl
      · rintro rfl
        exact absurd hword (by decide)
      · decide
    -- such a character does not end a literal or a comment
    have hlive : (code.after u).live = true := by
      by_contra hdead
      have hclosed := h.closed
      rw [after_append, live_after_dull (by simpa using hdead) (by simpa using isDull_of_ne hplain hline _)] at hclosed
      exact absurd hclosed (by decide)
    rw [after_append]
    exact after_of_all_isPlain hlive (by simpa using hplain) (by simp)

/-- A whole call is code on its own, and well-nested. -/
theorem HeadText.call (hname : isName name = true) (hf : HeadText name f) (hw : Shuts code 0 w) :
    Part (f ++ '(' :: (w ++ [')'])) ∧ nest 0 (mask (f ++ '(' :: (w ++ [')']))) = some 0 := by
  have hclose : ∀ c ∈ [')'], isPlain c = true := by decide
  have hsplit : f ++ '(' :: (w ++ [')']) = f ++ ['('] ++ (w ++ [')']) := by simp
  refine ⟨⟨?_, ?_⟩, ?_⟩
  · rw [hsplit, beginsInWord_append hf.part.ne_nil]
    exact hf.part.begins
  · rw [hsplit, after_append, hf.part.code, after_append]
    exact after_of_all_isPlain hw.live hclose (by simp)
  · have hnest : nest 1 (mask w) = some 1 := by
      rw [← maskFrom_code]
      exact nest_add hw.nested 1
    have hmask := hf.mask_eq (x := []) rfl (w ++ [')'])
    rw [mask_append (joins_of_live hw.live (by decide)), mask_of_all_isPlain hclose, mask_nil, List.nil_append,
      List.nil_append] at hmask
    rw [hmask, nest_append, hf.nested hname, Option.bind_some, nest_append, hnest]
    rfl

end

/-- The answer that puts a call under another name. -/
def renamedCall {σ : Type} (new : Text) (call : Call) : Editing σ (Option (Text × Nat)) :=
  return some (new ++ "(" ++ call.inner ++ ")", 0)

theorem answers_renamedCall {σ : Type} (new : Text) : Answers (renamedCall (σ := σ) new) := by
  intro call s
  refine ⟨_, _, rfl, ?_⟩
  rintro x hx
  obtain rfl := Option.mem_some.1 hx
  exact isBoundary_zero _

theorem headText_self {new : Text} (hnew : isName new = true) : HeadText new new := by
  have hspelled := spelled_self new
  have hplain : ∀ c ∈ new ++ ['('], isPlain c = true := by
    intro c hc
    rcases List.mem_append.1 hc with hc | hc
    · exact isPlain_of_isWordChar (hspelled.isWordChar hnew c hc)
    · obtain rfl := List.mem_singleton.1 hc
      decide
  exact ⟨⟨hspelled.beginsInWord hnew _, after_of_all_isPlain rfl hplain (by simp)⟩, new, [],
    mask_of_all_isPlain hplain, hspelled, by simp⟩

theorem answersSeamlessly_renamedCall {σ : Type} {new : Text} (hnew : isName new = true)
    (hfirst : ∃ c ∈ new.head?, c.isAlpha = true) : AnswersSeamlessly (renamedCall (σ := σ) new) := by
  intro call s r n s' hlive hnested hrun
  obtain ⟨rfl, rfl⟩ : new ++ "(" ++ call.inner ++ ")" = r ∧ 0 = n := by
    have := congrArg Prod.fst (Option.some.inj hrun)
    exact Prod.mk.inj (Option.some.inj this)
  have hshut : Shuts code 0 call.inner := ⟨hlive, by rw [maskFrom_code]; exact wellNested_iff.1 hnested⟩
  have hcall : new ++ "(" ++ call.inner ++ ")" = new ++ '(' :: (call.inner ++ [')']) := by simp
  obtain ⟨hpart, hnest⟩ := (headText_self hnew).call hnew hshut
  obtain ⟨c, hc, halpha⟩ := hfirst
  obtain ⟨u, rfl⟩ := List.head?_eq_some_iff.1 hc
  rw [hcall]
  have hlast : (c :: u ++ '(' :: (call.inner ++ [')'])).getLast? = some ')' :=
    List.getLast?_eq_some_iff.2 ⟨c :: u ++ '(' :: call.inner, by simp⟩
  exact ⟨rfl, ⟨c, by simp, halpha⟩, ⟨')', hlast, .inr rfl⟩, by rw [hpart.code]; rfl, wellNested_iff.2 hnest⟩

/-! ## The edits that the answers make -/

section
variable {name sql : Text} {i : Nat} {v : Visit} {visits : List Visit}

theorem answerEdits_cons_of_ne (h : v.call.start ≠ i) :
    answerEdits name sql (v :: visits) i = answerEdits name sql visits i := by
  rw [answerEdits, List.find?_cons_of_neg (by simpa using h)]
  rfl

theorem answerEdits_cons_of_eq (h : v.call.start = i) : answerEdits name sql (v :: visits) i =
    v.answer.bind fun r => (Call.matchedAt? name (mask sql) i).map fun m => (m.2 + 1, r.1) := by
  obtain ⟨text, call, answer⟩ := v
  rw [answerEdits, List.find?_cons_of_pos (by simpa using h)]
  cases answer with
  | none => rfl
  | some r => cases Call.matchedAt? name (mask sql) i <;> simp

theorem answerEdits_eq_none (h : ∀ v ∈ visits, v.call.start ≠ i) : answerEdits name sql visits i = none := by
  have hnone : visits.find? (·.call.start == i) = none := List.find?_eq_none.2 fun v hv => by simpa using h v hv
  rw [answerEdits, hnone]
  rfl

/-- Edits are made at heads only. -/
theorem exists_head_of_answerEdits (hname : isName name = true) (h : answerEdits name sql visits i ≠ none) :
    ∃ j, Heads name (mask sql) i j := by
  obtain ⟨edit, hedit⟩ := Option.ne_none_iff_exists'.1 h
  simp only [answerEdits, Option.bind_eq_bind, Option.bind_eq_some_iff] at hedit
  obtain ⟨v, -, r, -, ⟨j, closing⟩, hmatched, -⟩ := hedit
  exact ⟨j, ((matchedAt?_eq_some_iff hname).1 hmatched).1⟩

end

/-! ## The visits -/

section
variable {σ : Type} {name sql out text p o o' : Text} {f : Call → Editing σ (Option (Text × Nat))} {limit : Nat}
  {s s' : σ} {visits : List Visit} {E : Nat → Option (Nat × Text)}

/-- The visits are those of the closed calls that start before `n`; each call is visited with its inside as edited,
and the result is the query as edited. -/
structure Covers (name sql : Text) (E : Nat → Option (Nat × Text)) (n : Nat) (visits : List Visit) (out : Text) :
    Prop where
  out_eq : out = patched E 0 0 sql
  starts : ∀ i, (∃ v ∈ visits, v.call.start = i) ↔ i < n ∧ (Call.matchedAt? name (mask sql) i).isSome = true
  inner : ∀ v ∈ visits, ∀ j closing, Call.matchedAt? name (mask sql) v.call.start = some (j, closing) →
    ∃ inner, slice? sql j closing = some inner ∧ v.call.inner = patched E 0 j inner

/-- The replacements that the rounds need: they can stand for a call, as far as the call is closed itself. -/
def AnswersParts (f : Call → Editing σ (Option (Text × Nat))) : Prop :=
  ∀ call s r n s', Shuts code 0 call.inner → (f call).run s = some (some (r, n), s') →
    n = 0 ∧ Part r ∧ nest 0 (mask r) = some 0

theorem AnswersSeamlessly.parts (hf : AnswersSeamlessly f) : AnswersParts f := by
  intro call s r n s' hshut hrun
  have hnested : WellNested (mask call.inner) := wellNested_iff.2 (by rw [← maskFrom_code]; exact hshut.nested)
  obtain ⟨hn, hr⟩ := hf call s r n s' hshut.live hnested hrun
  exact ⟨hn, hr.part, wellNested_iff.1 hr.nested⟩

section
variable {m : Match} {x g y y' w : Text} {i closing : Nat}

theorem Turn.lt (ht : Turn name sql E text p m x g y y') : width x < width p := by
  have hle := ht.le
  rw [ht.stop, width_append] at hle
  omega

theorem Turn.matchedAt?_eq (hname : isName name = true) (ht : Turn name sql E text p m x g y y') :
    Call.matchedAt? name (mask sql) m.start = (matchingParen? (mask sql) (m.stop - 1)).map (m.stop, ·) := by
  cases hclosing : matchingParen? (mask sql) (m.stop - 1) with
  | some closing => exact (matchedAt?_eq_some_iff hname).2 ⟨ht.heads hname, hclosing⟩
  | none =>
    rw [Option.map_none, Option.eq_none_iff_forall_ne_some]
    rintro ⟨j, closing⟩ hmatched
    obtain ⟨hhead, hclosing'⟩ := (matchedAt?_eq_some_iff hname).1 hmatched
    rw [hhead.stop_eq hname (ht.heads hname), hclosing] at hclosing'
    cases hclosing'

/-- The calls that are left to look at before a round are those after it, and that of the round. -/
theorem Turn.matched_iff (hname : isName name = true) (ht : Turn name sql E text p m x g y y') :
    i < width p ∧ (Call.matchedAt? name (mask sql) i).isSome = true ↔
      i < width x ∧ (Call.matchedAt? name (mask sql) i).isSome = true ∨
        i = m.start ∧ (matchingParen? (mask sql) (m.stop - 1)).isSome = true := by
  have hlt := ht.lt
  have hstart := ht.start
  have hmatched := ht.matchedAt?_eq hname
  constructor
  · rintro ⟨hi, hsome⟩
    obtain ⟨⟨j, closing⟩, hcall⟩ := Option.isSome_iff_exists.1 hsome
    have hle := ht.last i j ((matchedAt?_eq_some_iff hname).1 hcall).1 hi
    rcases Nat.lt_or_eq_of_le hle with hi | rfl
    · exact .inl ⟨hstart ▸ hi, hsome⟩
    · exact .inr ⟨rfl, by simpa [hmatched] using hsome⟩
  · rintro (⟨hi, hsome⟩ | ⟨rfl, hsome⟩)
    · exact ⟨by omega, hsome⟩
    · exact ⟨by omega, by simpa [hmatched] using hsome⟩

theorem Covers.of_unmatched (hname : isName name = true) (ht : Turn name sql E text p m x g y y')
    (hclosing : matchingParen? (mask sql) (m.stop - 1) = none) (h : Covers name sql E (width x) visits out) :
    Covers name sql E (width p) visits out :=
  ⟨h.out_eq, fun i => by rw [h.starts, ht.matched_iff hname, hclosing]; simp, h.inner⟩

theorem Covers.of_matched {v : Visit} (hname : isName name = true) (ht : Turn name sql E text p m x g y y')
    (hclosing : matchingParen? (mask sql) (m.stop - 1) = some closing) (hv : v.call.start = m.start)
    (hinner : ∃ inner, slice? sql m.stop closing = some inner ∧ v.call.inner = patched E 0 m.stop inner)
    (h : Covers name sql E (width x) visits out) : Covers name sql E (width p) (v :: visits) out := by
  refine ⟨h.out_eq, fun i => ?_, List.forall_mem_cons.2 ⟨fun j k hmatched => ?_, h.inner⟩⟩
  · rw [ht.matched_iff hname, ← h.starts, hclosing]
    simp [hv, or_comm, @eq_comm _ i]
  · rw [hv, ht.matchedAt?_eq hname, hclosing] at hmatched
    obtain ⟨rfl, rfl⟩ := Prod.mk.inj (Option.some.inj hmatched)
    exact hinner

theorem slice?_behind_head (x g w z : Text) : slice? (x ++ (g ++ '(' :: (w ++ ')' :: z))) (width (x ++ g) + 1)
    (width (x ++ g) + 1 + width w) = some w := by
  have hopen : '('.utf8Size = 1 := by decide
  have hstop : width (x ++ g ++ '(' :: w) = width (x ++ g) + 1 + width w := by
    rw [width_append _ (_ :: w), width_cons, hopen, Nat.add_assoc]
  rw [← hstop, ← List.append_assoc]
  exact (slice?_parens (x ++ g) w z).1

/-- A call is read with its inside as edited. -/
theorem Turn.read {call : Call} (ht : Turn name sql E text p m x g y y')
    (hclosing : matchingParen? (mask text) (m.stop - 1) = some closing)
    (hread : Call.read? text (mask text) m closing = some call) :
    ∃ w z z', y = w ++ ')' :: z ∧ y' = call.inner ++ ')' :: z' ∧ closing = m.stop + width call.inner ∧
      Edited E code m.stop w call.inner ∧ Edited E code (m.stop + width w + 1) z z' ∧ Shuts code 0 w ∧
      Shuts code 0 call.inner ∧ matchingParen? (mask sql) (m.stop - 1) = some (m.stop + width w) ∧
      slice? sql m.stop (m.stop + width w) = some w := by
  rcases ht.close with ⟨w, z, w', z', rfl, rfl, hw, hz, hshut, hshut', hsql, htext⟩ | ⟨-, hnone⟩
  · obtain rfl : closing = m.stop + width w' := Option.some.inj (hclosing.symm.trans htext)
    have hinner := (read?_eq_some hread).2.2
    rw [ht.now, ht.stop, slice?_behind_head] at hinner
    obtain rfl := Option.some.inj hinner
    refine ⟨w, z, z', rfl, rfl, rfl, hw, hz, hshut, hshut', hsql, ?_⟩
    rw [ht.whole, ht.stop, slice?_behind_head]
  · rw [hclosing] at hnone
    cases hnone

end

/-- A call is replaced by a text that can stand for it. -/
theorem Turn.swap {m : Match} {x g r w z w' z' : Text} (hname : isName name = true)
    (ht : Turn name sql E text p m x g (w ++ ')' :: z) (w' ++ ')' :: z')) (hw : Shuts code 0 w) (hr : Part r)
    (hnest : nest 0 (mask r) = some 0) (hE : E m.start = some (m.stop + width w + 1, r))
    (hz : Edited E code (m.stop + width w + 1) z z') :
    Sweeping name sql E m.start (x ++ (r ++ z')) x (g ++ '(' :: (w ++ ')' :: z)) (r ++ z') := by
  have hclose : ')'.utf8Size = 1 := by decide
  have hopen : '('.utf8Size = 1 := by decide
  obtain ⟨hpart, hzero⟩ := ht.head.call hname hw
  have hsplit : g ++ '(' :: (w ++ ')' :: z) = g ++ '(' :: (w ++ [')']) ++ z := by simp
  have hwidth : width x + width (g ++ '(' :: (w ++ [')'])) = m.stop + width w + 1 := by
    simp only [ht.stop, width_append, width_cons, width_nil, hclose, hopen]
    omega
  refine ht.next ?_
  rw [hsplit]
  refine .swap ?_ ht.live hpart hr hzero hnest ?_
  · rw [hwidth, ← ht.start, hE]
  · rwa [hwidth]

/-- A call is cut out of the text. -/
theorem Turn.splice?_call {m : Match} {x g y w' z' : Text} (ht : Turn name sql E text p m x g y (w' ++ ')' :: z'))
    (r : Text) : splice? (x ++ (g ++ '(' :: (w' ++ ')' :: z'))) (width x) (m.stop + width w' + 1 + 0) r =
      some (x ++ (r ++ z')) := by
  have hclose : ')'.utf8Size = 1 := by decide
  have hopen : '('.utf8Size = 1 := by decide
  have hsplit : x ++ (g ++ '(' :: (w' ++ ')' :: z')) = x ++ (g ++ '(' :: (w' ++ [')'])) ++ z' := by simp
  have hwidth : m.stop + width w' + 1 + 0 = width (x ++ (g ++ '(' :: (w' ++ [')']))) := by
    simp only [ht.stop, width_append, width_cons, width_nil, hclose, hopen]
    omega
  rw [hsplit, hwidth, width_append x, splice?_append, List.append_assoc]

theorem Rounds.covers (hname : isName name = true) (hf : AnswersParts f)
    (h : Rounds name f limit text s visits out s') (hsweep : Sweeping name sql E limit text p o o')
    (hE : ∀ i < width p, E i = answerEdits name sql visits i) : Covers name sql E (width p) visits out := by
  induction h generalizing p o o' with
  | done hlast =>
    obtain ⟨hedited, hnone⟩ := hsweep.done hname hlast
    refine ⟨hedited.eq_patched, fun i => ?_, by simp⟩
    simp only [List.not_mem_nil, false_and, exists_false, false_iff, not_and, Option.isSome_iff_exists]
    rintro hi ⟨⟨j, closing⟩, hmatched⟩
    exact hnone i j ((matchedAt?_eq_some_iff hname).1 hmatched).1 hi
  | @unmatched limit text out s s' m visits hlast hclosing hrest ih =>
    obtain ⟨x, g, y, y', ht⟩ := hsweep.turn hname hlast
    have hlt := ht.lt
    rcases ht.close with ⟨w, z, w', z', -, -, -, -, -, -, -, htext⟩ | ⟨hsql, -⟩
    · rw [hclosing] at htext
      cases htext
    have hnone : E m.start = none := by
      rw [hE _ (by rw [ht.start]; exact hlt)]
      exact answerEdits_eq_none fun v hv => Nat.ne_of_lt (hrest.start_lt v hv)
    exact .of_unmatched hname ht hsql (ih (ht.keep hnone) fun i hi => hE i (Nat.lt_trans hi hlt))
  | @kept limit closing text out s s₁ s' m call visits hlast hclosing hread hrun hrest ih =>
    obtain ⟨x, g, y, y', ht⟩ := hsweep.turn hname hlast
    have hlt := ht.lt
    have hcall := (read?_eq_some hread).1
    obtain ⟨w, z, z', rfl, rfl, rfl, hw, -, -, -, hsql, hslice⟩ := ht.read hclosing hread
    have hnone : E m.start = none := by
      rw [hE _ (by rw [ht.start]; exact hlt), answerEdits_cons_of_eq hcall]
      rfl
    refine .of_matched hname ht hsql hcall ⟨w, hslice, hw.eq_patched⟩ (ih (ht.keep hnone) fun i hi => ?_)
    have hne : call.start ≠ i := by rw [hcall, ht.start]; omega
    rw [hE i (Nat.lt_trans hi hlt), answerEdits_cons_of_ne hne]
  | @replaced limit closing consumed text next out r s s₁ s' m call visits hlast hclosing hread hrun hsplice hrest ih =>
    obtain ⟨x, g, y, y', ht⟩ := hsweep.turn hname hlast
    have hlt := ht.lt
    obtain ⟨hcall, hstop, -⟩ := read?_eq_some hread
    obtain ⟨w, z, z', rfl, rfl, rfl, hw, hz, hshut, hshut', hsql, hslice⟩ := ht.read hclosing hread
    obtain ⟨rfl, hpart, hnest⟩ := hf call s r consumed s₁ hshut' hrun
    have hsome : E m.start = some (m.stop + width w + 1, r) := by
      rw [hE _ (by rw [ht.start]; exact hlt), answerEdits_cons_of_eq hcall, ht.matchedAt?_eq hname, hsql]
      rfl
    obtain rfl : next = x ++ (r ++ z') := by
      rw [ht.now, hcall, ht.start, hstop, ht.splice?_call] at hsplice
      exact (Option.some.inj hsplice).symm
    refine .of_matched hname ht hsql hcall ⟨w, hslice, hw.eq_patched⟩
      (ih (ht.swap hname hshut hpart hnest hsome hz) fun i hi => ?_)
    have hne : call.start ≠ i := by rw [hcall, ht.start]; omega
    rw [hE i (Nat.lt_trans hi hlt), answerEdits_cons_of_ne hne]

/-- The rounds come to an end, and visit the calls from the last one to the first, with the text in front of each as
it was in the query. Where the answers can stand for the calls, the calls that are closed in the query are visited,
and no others, each with its inside as the answers for the calls in it have left it; and the result is the query as
all the answers have left it. -/
theorem replaceCallsWithTail_visits (hf : Answers f) (sql name : Text) (s : σ) :
    ∃ visits out s', (replaceCallsWithTail sql name f).run s = some (out, s') ∧
      Rounds name f (width sql + 1) sql s visits out s' ∧
      visits.Pairwise (fun v w => w.call.start < v.call.start) ∧
      (∀ v ∈ visits, ∃ front, upTo? v.text v.call.start = some front ∧ upTo? sql v.call.start = some front) ∧
      (isName name = true → AnswersSeamlessly f →
        (∀ i, (∃ v ∈ visits, v.call.start = i) ↔ (Call.matchedAt? name (mask sql) i).isSome = true) ∧
        (∀ v ∈ visits, ∀ j closing, Call.matchedAt? name (mask sql) v.call.start = some (j, closing) →
          ∃ inner, slice? sql j closing = some inner ∧
            v.call.inner = patched (answerEdits name sql visits) 0 j inner) ∧
        out = patched (answerEdits name sql visits) 0 0 sql) := by
  obtain ⟨visits, out, s', h⟩ := exists_rounds hf (width sql + 1) sql s
  refine ⟨visits, out, s', h.run, h, h.pairwise, h.front, fun hname hseamless => ?_⟩
  have hsweep : Sweeping name sql (answerEdits name sql visits) (width sql + 1) sql sql [] [] :=
    .start hname fun i => exists_head_of_answerEdits hname
  obtain ⟨hout, hstarts, hinner⟩ := h.covers hname hseamless.parts hsweep fun _ _ => rfl
  refine ⟨fun i => (hstarts i).trans ⟨And.right, fun hsome => ⟨?_, hsome⟩⟩, hinner, hout⟩
  obtain ⟨⟨j, closing⟩, hmatched⟩ := Option.isSome_iff_exists.1 hsome
  exact width_mask sql ▸ (((matchedAt?_eq_some_iff hname).1 hmatched).1.lt hname).2

/-- A call in a call, and one that is not closed. -/
theorem replaceCallsWithTail_visits_nested :
    Answers (renamedCall (σ := Nat) "G".toList) ∧ isName "F".toList = true ∧
      AnswersSeamlessly (renamedCall (σ := Nat) "G".toList) ∧
      ∃ visits out s', (replaceCallsWithTail "F(a, F(b)) F(".toList "F".toList (renamedCall "G".toList)).run 0 =
          some (out, s') ∧
        (∃ v ∈ visits, v.call.start = 0) ∧ (∃ v ∈ visits, v.call.start = 5) ∧ (¬ ∃ v ∈ visits, v.call.start = 11) ∧
        out = patched (answerEdits "F".toList "F(a, F(b)) F(".toList visits) 0 0 "F(a, F(b)) F(".toList := by
  have hanswers := answers_renamedCall (σ := Nat) "G".toList
  have hseamless : AnswersSeamlessly (renamedCall (σ := Nat) "G".toList) :=
    answersSeamlessly_renamedCall (by decide) ⟨'G', by decide, by decide⟩
  obtain ⟨visits, out, s', hrun, -, -, -, hcovers⟩ :=
    replaceCallsWithTail_visits hanswers "F(a, F(b)) F(".toList "F".toList 0
  obtain ⟨hstarts, -, hout⟩ := hcovers (by decide) hseamless
  refine ⟨hanswers, by decide, hseamless, visits, out, s', hrun, (hstarts 0).2 ?_, (hstarts 5).2 ?_,
    fun h => absurd ((hstarts 11).1 h) ?_, hout⟩
  all_goals decide +kernel

end

end DialectBridge
