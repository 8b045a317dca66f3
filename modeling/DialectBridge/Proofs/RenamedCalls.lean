import DialectBridge.Proofs.CallVisits
/-!
# Calls under another name

To rename the calls of a query is to put the new name in place of the heads of its closed calls, of all of them at
once (`renameCalls_exact`). What is not renamed is read the same before and after (`Abreast.matched_iff`), and no
head stands inside of a new name. So no closed call has the old name any more, and, if none had the new one before,
renaming back gives the query.
-/
namespace DialectBridge
open Pattern Text LexState

/-- The edits of a renaming: the head of a closed call becomes the new name and a parenthesis. -/
def headEdits (old new sql : Text) (i : Nat) : Option (Nat × Text) :=
  (Call.matchedAt? old (mask sql) i).map fun m => (m.1, new ++ ['('])

section
variable {σ : Type} {old new name sql text out p p' o o' t t' : Text} {limit i stop : Nat} {s s' : σ}
  {visits : List Visit}

theorem headEdits_eq_some_iff {r : Text} : headEdits old new sql i = some (stop, r) ↔
    (∃ closing, Call.matchedAt? old (mask sql) i = some (stop, closing)) ∧ r = new ++ ['('] := by
  unfold headEdits
  constructor
  · intro h
    obtain ⟨⟨j, closing⟩, hmatched, h⟩ := Option.map_eq_some_iff.1 h
    obtain ⟨rfl, rfl⟩ := Prod.mk.inj h
    exact ⟨⟨closing, hmatched⟩, rfl⟩
  · rintro ⟨⟨closing, hmatched⟩, rfl⟩
    rw [hmatched]
    rfl

theorem headEdits_eq_none_iff : headEdits old new sql i = none ↔ Call.matchedAt? old (mask sql) i = none :=
  Option.map_eq_none_iff

theorem exists_head_of_headEdits (hold : isName old = true) (h : headEdits old new sql i ≠ none) :
    ∃ j, Heads old (mask sql) i j := by
  obtain ⟨⟨stop, r⟩, hedit⟩ := Option.ne_none_iff_exists'.1 h
  obtain ⟨⟨closing, hmatched⟩, -⟩ := headEdits_eq_some_iff.1 hedit
  exact ⟨stop, ((matchedAt?_eq_some_iff hold).1 hmatched).1⟩

/-- Where a closed call begins, its head is renamed. -/
theorem headEdits_of_head {x h y : Text} (new : Text) (hold : isName old = true) (hlive : (code.after x).live = true)
    (hend : endsInWord x = false) (hh : HeadText old h) (hy : ¬ Unshut code 0 y) :
    headEdits old new (x ++ (h ++ '(' :: y)) (width x) = some (width x + width (h ++ ['(']), new ++ ['(']) := by
  have hopen : '('.utf8Size = 1 := by decide
  have hstop : width x + width (h ++ ['(']) = width (x ++ h) + 1 := by simp [hopen, Nat.add_assoc]
  obtain ⟨closing, hmatched⟩ := exists_matchedAt? hold hlive hend hh hy
  rw [headEdits, hmatched, hstop]
  rfl

/-! ## The rounds of a renaming -/

theorem renameCalls_eq (sql old new : Text) :
    (renameCalls sql old new : Editing σ Text) = replaceCallsWithTail sql old (renamedCall new) := rfl

/-- A round of a renaming. -/
theorem Turn.rename {m : Match} {x g y y' : Text} (hold : isName old = true) (hnew : isName new = true)
    (ht : Turn old sql (headEdits old new sql) text p m x g y y') (hclosed : ¬ Unshut code 0 y) :
    Sweeping old sql (headEdits old new sql) m.start (x ++ (new ++ '(' :: y')) x (g ++ '(' :: y)
      (new ++ '(' :: y') := by
  have hopen : '('.utf8Size = 1 := by decide
  have hstop : width x + width (g ++ ['(']) = m.stop := by
    simp only [ht.stop, width_append, width_cons, width_nil, hopen]
    omega
  have hedit := headEdits_of_head new hold ht.live ht.left ht.head hclosed
  rw [← ht.whole] at hedit
  have hself := headText_self hnew
  have hswap : Edited (headEdits old new sql) (code.after x) (width x) (g ++ ['('] ++ y) (new ++ ['('] ++ y') :=
    .swap hedit ht.live ht.head.part hself.part (ht.head.nested hold) (hself.nested hnew) (hstop ▸ ht.edited)
  apply ht.next
  simpa using hswap

theorem Rounds.renames (hold : isName old = true) (hnew : isName new = true)
    (h : Rounds old (renamedCall new) limit text s visits out s')
    (hsweep : Sweeping old sql (headEdits old new sql) limit text p o o') :
    Edited (headEdits old new sql) code 0 sql out ∧ s' = s := by
  induction h generalizing p o o' with
  | done hlast => exact ⟨(hsweep.done hold hlast).1, rfl⟩
  | unmatched hlast hclosing hrest ih =>
    obtain ⟨x, g, y, y', ht⟩ := hsweep.turn hold hlast
    apply ih (ht.keep _)
    rcases ht.close with ⟨w, z, w', z', -, -, -, -, -, -, -, htext⟩ | ⟨hsql, -⟩
    · rw [hclosing] at htext
      cases htext
    · rw [headEdits_eq_none_iff, ht.matchedAt?_eq hold, hsql]
      rfl
  | kept _ _ _ hrun => cases hrun
  | @replaced limit closing consumed text next out r s s₁ s' m call visits hlast hclosing hread hrun hsplice hrest ih =>
    obtain ⟨x, g, y, y', ht⟩ := hsweep.turn hold hlast
    obtain ⟨hstart, hstop, -⟩ := read?_eq_some hread
    obtain ⟨w, z, z', rfl, rfl, rfl, -, -, hshut, -⟩ := ht.read hclosing hread
    cases hrun
    have hcall : new ++ "(" ++ call.inner ++ ")" ++ z' = new ++ '(' :: (call.inner ++ ')' :: z') := by simp
    obtain rfl : x ++ (new ++ '(' :: (call.inner ++ ')' :: z')) = next := by
      rw [ht.now, hstart, ht.start, hstop, ht.splice?_call, hcall] at hsplice
      exact Option.some.inj hsplice
    exact ih (ht.rename hold hnew (hshut.not_unshut z))

theorem run_renameCalls (hold : isName old = true) (hnew : isName new = true) (sql : Text) (s : σ) :
    ∃ out, (renameCalls sql old new).run s = some (out, s) ∧ Edited (headEdits old new sql) code 0 sql out := by
  have hsweep : Sweeping old sql (headEdits old new sql) (width sql + 1) sql sql [] [] :=
    .start hold fun i => exists_head_of_headEdits hold
  obtain ⟨visits, out, s', h⟩ := exists_rounds (answers_renamedCall new) (width sql + 1) sql s
  obtain ⟨hedited, rfl⟩ := h.renames hold hnew hsweep
  refine ⟨out, ?_, hedited⟩
  rw [renameCalls_eq]
  exact h.run

/-- The renaming, all at once. -/
theorem renameCalls_eq_patched (hold : isName old = true) (hnew : isName new = true) (sql : Text) :
    (renameCalls sql old new : Editing σ Text) = pure (patched (headEdits old new sql) 0 0 sql) := by
  ext1 s
  obtain ⟨out, hrun, hedited⟩ := run_renameCalls hold hnew sql s
  rw [← hedited.eq_patched]
  exact hrun

theorem edited_headEdits (hold : isName old = true) (hnew : isName new = true) (sql : Text) :
    Edited (headEdits old new sql) code 0 sql (patched (headEdits old new sql) 0 0 sql) := by
  obtain ⟨out, -, hedited⟩ := run_renameCalls hold hnew sql ()
  rwa [← hedited.eq_patched]

/-! ## What is not renamed -/

/-- A place in the query and the same place in the query with edits: `t` is left to read behind `p`, and `t'`
behind `p'`. -/
structure Abreast (sql out p p' t t' : Text) : Prop where
  whole : sql = p ++ t
  now : out = p' ++ t'
  state : code.after p' = code.after p
  ends : endsInWord p' = endsInWord p

theorem Abreast.keep {c : Char} (h : Abreast sql out p p' (c :: t) (c :: t')) :
    Abreast sql out (p ++ [c]) (p' ++ [c]) t t' := by
  constructor
  · simp [h.whole]
  · simp [h.now]
  · rw [after_append, after_append, h.state]
  · rw [endsInWord_append (by simp), endsInWord_append (by simp)]

/-- Behind two heads. -/
theorem Abreast.swap {k r : Text} (h : Abreast sql out p p' (k ++ ['('] ++ t) (r ++ ['('] ++ t'))
    (hlive : (code.after p).live = true) (hk : Part (k ++ ['('])) (hr : Part (r ++ ['('])) :
    Abreast sql out (p ++ (k ++ ['('])) (p' ++ (r ++ ['('])) t t' := by
  constructor
  · simp [h.whole]
  · simp [h.now]
  · rw [after_append code p, after_append code p', hk.after hlive, hr.after (by rw [h.state]; exact hlive)]
  · rw [← List.append_assoc, ← List.append_assoc, endsInWord_append (by simp), endsInWord_append (by simp)]

/-- A closed call that begins in front of a word has its head there. -/
theorem isSome_matchedAt?_within {a : Text} (hname : isName name = true) (ha : a ≠ []) (ho : OpensWord (p ++ a) o) :
    (Call.matchedAt? name (mask (p ++ (a ++ o))) (width p)).isSome = true ↔
      (code.after p).live = true ∧ endsInWord p = false ∧
        ∃ h y, a = h ++ '(' :: y ∧ HeadText name h ∧ ¬ Unshut code 0 (y ++ o) := by
  rw [isSome_matchedAt?_iff hname]
  constructor
  · rintro ⟨hlive, hend, h, y, hsplit, hh, hy⟩
    have hlt : width p < width (p ++ a) := by
      have := width_pos ha
      rw [width_append]
      omega
    have hhead : Heads name (mask (p ++ a ++ o)) (width p) (width (p ++ h) + 1) :=
      (heads_mask_iff hname).2 ⟨p, h, y, by rw [List.append_assoc, hsplit], rfl, rfl, hlive, hend, hh⟩
    obtain ⟨q, h', y', hq, hwidth, hstop, -, -, -⟩ :=
      (heads_mask_iff hname).1 ((heads_append_iff hname ho hlt).1 hhead)
    obtain ⟨rfl, rfl⟩ := append_inj_of_width hq hwidth
    -- both heads end at the same place
    have hsame : h' ++ ('(' :: (y' ++ o)) = h ++ ('(' :: y) := by simpa using hsplit
    obtain ⟨rfl, hrest⟩ := append_inj_of_width hsame (by
      simp only [width_append] at hstop
      omega)
    obtain rfl : y' ++ o = y := (List.cons.inj hrest).2
    exact ⟨hlive, hend, h', y', rfl, hh, hy⟩
  · rintro ⟨hlive, hend, h, y, rfl, hh, hy⟩
    exact ⟨hlive, hend, h, y ++ o, by simp, hh, hy⟩

/-- Where the text goes on as it was, a closed call begins if one began there. -/
theorem Abreast.matched_iff {c : Char} {E : Nat → Option (Nat × Text)} (hold : isName old = true)
    (hname : isName name = true) (hE : ∀ i, E i ≠ none → ∃ j, Heads old (mask sql) i j)
    (h : Abreast sql out p p' (c :: t) (c :: t'))
    (hedited : Edited E ((code.after p).step c) (width p + c.utf8Size) t t') :
    (Call.matchedAt? name (mask out) (width p')).isSome = true ↔
      (Call.matchedAt? name (mask sql) (width p)).isSome = true := by
  obtain ⟨a, o, o', rfl, rfl, hkept, hbehind⟩ := hedited.exists_kept
  have hne : c :: a ≠ [] := by simp
  have hends : endsInWord (p' ++ c :: a) = endsInWord (p ++ c :: a) := by
    rw [endsInWord_append hne, endsInWord_append hne]
  have hstate : code.after (p' ++ c :: a) = code.after (p ++ c :: a) := by
    rw [after_append, after_append, h.state]
  obtain ⟨ho, ho'⟩ : OpensWord (p ++ c :: a) o ∧ OpensWord (p' ++ c :: a) o' := by
    rcases hbehind with ⟨rfl, rfl⟩ | ⟨hedit, hlive, ho, ho'⟩
    · exact ⟨.inl rfl, .inl rfl⟩
    -- the edit is made at a head, where no word ends
    have hwidth : width (p ++ c :: a) = width p + c.utf8Size + width a := by
      rw [width_append, width_cons, Nat.add_assoc]
    obtain ⟨j, hhead⟩ := hE _ hedit
    obtain ⟨x, g, y, hsplit, hx, -, -, hend, -⟩ := (heads_mask_iff hold).1 hhead
    have hsql : x ++ (g ++ '(' :: y) = p ++ c :: a ++ o := by rw [← hsplit, h.whole]; simp
    obtain ⟨rfl, -⟩ := append_inj_of_width hsql (by rw [← hx, hwidth])
    have hlive' : (code.after (p ++ c :: a)).live = true := by rw [after_append]; exact hlive
    exact ⟨.inr ⟨hlive', hend, ho⟩, .inr ⟨by rwa [hstate], by rwa [hends], ho'⟩⟩
  have hsql : sql = p ++ (c :: a ++ o) := h.whole
  have hout : out = p' ++ (c :: a ++ o') := h.now
  rw [hsql, hout, isSome_matchedAt?_within hname hne ho, isSome_matchedAt?_within hname hne ho', h.state, h.ends]
  refine and_congr_right fun hlive => and_congr_right fun _ => exists_congr fun f => exists_congr fun y =>
    and_congr_right fun hhead => and_congr_right fun hf => not_congr ?_
  cases f with
  | nil => exact absurd hf.part.begins (by decide)
  | cons d f =>
    obtain ⟨rfl, rfl⟩ := List.cons.inj hhead
    have hrest := hkept (f ++ ['(']) y (by simp)
    have hcode : ((code.after p).step c).after (f ++ ['(']) = code := hf.part.after hlive
    rw [hcode] at hrest
    exact hrest.unshut_iff.symm

/-! ## What is renamed -/

/-- An edit of a renaming stands where a closed call begins. -/
theorem exists_of_headEdits {k r : Text} (hold : isName old = true)
    (h : headEdits old new (p ++ (k ++ t)) (width p) = some (width p + width k, r)) :
    r = new ++ ['('] ∧ (code.after p).live = true ∧ endsInWord p = false ∧
      ∃ g, k = g ++ ['('] ∧ HeadText old g ∧ ¬ Unshut code 0 t := by
  have hopen : '('.utf8Size = 1 := by decide
  obtain ⟨⟨closing, hmatched⟩, hr⟩ := headEdits_eq_some_iff.1 h
  obtain ⟨hlive, hend, g, y, hsplit, hstop, hg, hy⟩ := exists_of_matchedAt? hold hmatched
  have hparen : k ++ t = g ++ ['('] ++ y := by simpa using hsplit
  obtain ⟨rfl, rfl⟩ := append_inj_of_width hparen (by
    simp only [width_append, width_cons, width_nil, hopen] at hstop ⊢
    omega)
  exact ⟨hr, hlive, hend, g, rfl, hg, hy⟩

/-- The word of a head in front of which no other word stands. -/
theorem spelled_of_headText {g y : Text} (hname : isName name = true) (hnew : isName new = true)
    (hg : HeadText name g) (h : g ++ '(' :: y = new ++ '(' :: t) : Spelled name new := by
  obtain ⟨n, b, hmask, hn, hb⟩ := hg.named
  have hword : ∀ c ∈ new, Unicode.isWordChar c = true := (spelled_self new).isWordChar hnew
  have hopen : Unicode.isWordChar '(' = false := by decide
  have hsame : n ++ (b ++ '(' :: mask y) = new ++ '(' :: mask t := by
    have hleft := hg.mask_eq (x := []) rfl y
    have hright := (headText_self hnew).mask_eq (x := []) rfl t
    have hplain : mask (new ++ ['(']) = new ++ ['('] := mask_of_all_isPlain fun c hc => by
      rcases List.mem_append.1 hc with hc | hc
      · exact isPlain_of_isWordChar (hword c hc)
      · obtain rfl := List.mem_singleton.1 hc
        decide
    rw [List.nil_append, mask_nil, List.nil_append, hmask] at hleft
    rw [List.nil_append, mask_nil, List.nil_append, hplain, ← h, hleft] at hright
    simpa using hright
  -- the word characters at the beginning are the same
  have hbehind : (b ++ '(' :: mask y).takeWhile Unicode.isWordChar = [] := by
    cases b with
    | nil => simp [hopen]
    | cons c b => simp [isWordChar_of_isBlank (hb c (by simp))]
  have htake := congrArg (List.takeWhile Unicode.isWordChar) hsame
  rw [List.takeWhile_append_of_pos (hn.isWordChar hname), List.takeWhile_append_of_pos hword, hbehind] at htake
  obtain rfl : n = new := by simpa [hopen] using htake
  exact hn

/-- No closed call of another name begins in a new name. -/
theorem not_matchedAt?_new {x z : Text} (hold : isName old = true) (hnew : isName new = true)
    (hne : ¬ Spelled old new) (hsplit : new ++ ['('] = x ++ z) (hz : z ≠ []) :
    ¬ (Call.matchedAt? old (mask (p ++ x ++ (z ++ t))) (width (p ++ x))).isSome = true := by
  rw [isSome_matchedAt?_iff hold]
  rintro ⟨-, hend, g, y, hhead, hg, -⟩
  by_cases hx : x = []
  · subst hx
    obtain rfl : new ++ ['('] = z := hsplit
    exact hne (spelled_of_headText (t := t) hold hnew hg (by rw [← hhead]; simp))
  · rw [endsInWord_append hx] at hend
    have hword : endsInWord x = true := by
      apply endsInWord_of_all hx
      intro c hc
      obtain ⟨z, d, rfl⟩ := (List.eq_nil_or_concat' z).resolve_left hz
      rw [← List.append_assoc] at hsplit
      obtain ⟨rfl, -⟩ := List.append_inj' hsplit rfl
      exact (spelled_self _).isWordChar hnew c (by simp [hc])
    rw [hend] at hword
    exact absurd hword (by decide)

/-- No closed call of the old name begins in what is left to read. -/
theorem Edited.not_matchedAt? {s : LexState} (hold : isName old = true) (hnew : isName new = true)
    (hne : ¬ Spelled old new) (h : Edited (headEdits old new sql) s i t t') (hs : s = code.after p) (hi : i = width p)
    (habreast : Abreast sql out p p' t t') {x z : Text} (hx : t' = x ++ z) :
    ¬ (Call.matchedAt? old (mask out) (width (p' ++ x))).isSome = true := by
  induction h generalizing p p' x with
  | nil s i =>
    obtain ⟨rfl, rfl⟩ := List.append_eq_nil_iff.1 hx.symm
    have hout : out = p' ++ [] ++ [] := by rw [List.append_nil, ← habreast.now]
    rw [hout, isSome_matchedAt?_iff hold]
    rintro ⟨-, -, g, y, hsplit, -⟩
    simp at hsplit
  | @keep s i c t t' hE h ih =>
    subst hs hi
    cases x with
    | nil =>
      rw [List.append_nil, habreast.matched_iff hold hold (fun i => exists_head_of_headEdits hold) h,
        headEdits_eq_none_iff.1 hE]
      decide
    | cons d x =>
      obtain ⟨rfl, rfl⟩ := List.cons.inj hx
      have := ih (by rw [after_append]; rfl) (by simp) habreast.keep rfl
      simpa using this
  | @swap s i e k r t t' hE hlive hk hr hnest hnest' h ih =>
    subst hs hi
    have hnow := habreast.now
    rw [habreast.whole] at hE
    obtain ⟨rfl, -, -, g, rfl, hg, -⟩ := exists_of_headEdits hold hE
    have hbehind := habreast.swap hlive hk hr
    have hcode : code = code.after (p ++ (g ++ ['('])) := by rw [after_append, hk.after hlive]
    have hwidth : width p + width (g ++ ['(']) = width (p ++ (g ++ ['('])) := (width_append _ _).symm
    rcases List.append_eq_append_iff.1 hx with ⟨x', rfl, ht'⟩ | ⟨z', hr', rfl⟩
    · have := ih hcode hwidth hbehind ht'
      rwa [List.append_assoc] at this
    · by_cases hz : z' = []
      · have := ih (x := []) hcode hwidth hbehind (by rw [hz]; rfl)
        rwa [List.append_nil, hr', hz, List.append_nil] at this
      · rw [hnow, hr', List.append_assoc x, ← List.append_assoc p']
        exact not_matchedAt?_new hold hnew hne hr' hz

/-- Renaming back. -/
theorem Edited.reverse {s : LexState} (hold : isName old = true) (hnew : isName new = true)
    (hspelled : ∀ i j closing, Call.matchedAt? old (mask sql) i = some (j, closing) →
      slice? sql i j = some (old ++ ['(']))
    (hnone : ∀ i, Call.matchedAt? new (mask sql) i = none)
    (h : Edited (headEdits old new sql) s i t t') (hs : s = code.after p) (hi : i = width p)
    (habreast : Abreast sql out p p' t t') :
    Edited (headEdits new old out) (code.after p') (width p') t' t := by
  induction h generalizing p p' with
  | nil => exact .nil _ _
  | @keep s i c t t' hE h ih =>
    subst hs hi
    have hrest := ih (by rw [after_append]; rfl) (by simp) habreast.keep
    rw [after_append, width_append, width_cons, width_nil, Nat.add_zero] at hrest
    have hkept := habreast.matched_iff hold hnew (fun i => exists_head_of_headEdits hold) h
    refine .keep ?_ hrest
    rw [headEdits_eq_none_iff, ← Option.isNone_iff_eq_none, ← Option.not_isSome, Bool.not_eq_true', ← Bool.not_eq_true]
    rw [hkept, hnone]
    decide
  | @swap s i e k r t t' hE hlive hk hr hnest hnest' h ih =>
    subst hs hi
    have hmatched := headEdits_eq_some_iff.1 hE
    rw [habreast.whole] at hE
    obtain ⟨rfl, -, hend, g, rfl, hg, hclosed⟩ := exists_of_headEdits hold hE
    -- the head is spelled as the name that comes back
    obtain ⟨⟨closing, hmatched⟩, -⟩ := hmatched
    have hslice := hspelled _ _ _ hmatched
    rw [habreast.whole, ← List.append_assoc, slice?_append] at hslice
    obtain rfl : old = g := (List.append_cancel_right (Option.some.inj hslice)).symm
    have hstate := habreast.state
    have hback := headEdits_of_head old hnew (hstate ▸ hlive) (habreast.ends.trans hend) (headText_self hnew)
      (h.unshut_iff.not.1 hclosed)
    have hout : out = p' ++ (new ++ '(' :: t') := by rw [habreast.now]; simp
    rw [← hout] at hback
    have hrest := ih (by rw [after_append, hk.after hlive]) (width_append _ _).symm (habreast.swap hlive hk hr)
    rw [after_append, hr.after (hstate ▸ hlive), width_append] at hrest
    exact .swap hback (hstate ▸ hlive) hr hk hnest' hnest hrest

/-- Renaming puts the new name in place of the heads of the closed calls. If it is another name, no closed call
has the old one any more. If each call was spelled as the old name is, and none had the new one, then renaming back
gives the query. -/
theorem renameCalls_exact (hold : isName old = true) (hnew : isName new = true) (sql : Text) :
    (renameCalls sql old new : Editing σ Text) = pure (patched (headEdits old new sql) 0 0 sql) ∧
      (¬ Spelled old new → ∀ i, Call.matchedAt? old (mask (patched (headEdits old new sql) 0 0 sql)) i = none) ∧
      ((∀ i j closing, Call.matchedAt? old (mask sql) i = some (j, closing) → slice? sql i j = some (old ++ ['('])) →
        (∀ i, Call.matchedAt? new (mask sql) i = none) →
        (renameCalls sql old new >>= fun t => renameCalls t new old : Editing σ Text) = pure sql) := by
  have hedited := edited_headEdits hold hnew sql
  have hrename := renameCalls_eq_patched (σ := σ) hold hnew sql
  generalize patched (headEdits old new sql) 0 0 sql = out at hedited hrename ⊢
  have habreast : Abreast sql out [] [] sql out := ⟨rfl, rfl, rfl, rfl⟩
  refine ⟨hrename, ?_, ?_⟩
  · intro hne i
    by_contra hmatched
    obtain ⟨⟨j, closing⟩, hmatched⟩ := Option.ne_none_iff_exists'.1 hmatched
    obtain ⟨x, g, y, hsplit, rfl, -⟩ := (heads_mask_iff hold).1 ((matchedAt?_eq_some_iff hold).1 hmatched).1
    apply hedited.not_matchedAt? hold hnew hne rfl rfl habreast hsplit
    rw [List.nil_append, hmatched]
    rfl
  · intro hspelled hnone
    have hreverse : Edited (headEdits new old out) code 0 out sql :=
      hedited.reverse hold hnew hspelled hnone rfl rfl habreast
    rw [hrename, pure_bind, renameCalls_eq_patched hnew hold, ← hreverse.eq_patched]

/-- A call in a call, and one that is not closed. -/
theorem renameCalls_exact_nested :
    (isName "NVL".toList = true ∧ isName "ISNULL".toList = true ∧ ¬ Spelled "NVL".toList "ISNULL".toList ∧
      (∀ i j closing, Call.matchedAt? "NVL".toList (mask "NVL(a, NVL(b)) NVL(".toList) i = some (j, closing) →
        slice? "NVL(a, NVL(b)) NVL(".toList i j = some ("NVL".toList ++ ['('])) ∧
      ∀ i, Call.matchedAt? "ISNULL".toList (mask "NVL(a, NVL(b)) NVL(".toList) i = none) ∧
      (renameCalls "NVL(a, NVL(b)) NVL(".toList "NVL".toList "ISNULL".toList : Editing Nat Text) =
        pure "ISNULL(a, ISNULL(b)) NVL(".toList ∧
      (∀ i, Call.matchedAt? "NVL".toList (mask "ISNULL(a, ISNULL(b)) NVL(".toList) i = none) ∧
      (renameCalls "NVL(a, NVL(b)) NVL(".toList "NVL".toList "ISNULL".toList >>= fun t =>
        renameCalls t "ISNULL".toList "NVL".toList : Editing Nat Text) = pure "NVL(a, NVL(b)) NVL(".toList := by
  have hnames : isName "NVL".toList = true ∧ isName "ISNULL".toList = true := by decide
  have hother : ¬ Spelled "NVL".toList "ISNULL".toList := by decide
  have hspelled : ∀ i j closing,
      Call.matchedAt? "NVL".toList (mask "NVL(a, NVL(b)) NVL(".toList) i = some (j, closing) →
        slice? "NVL(a, NVL(b)) NVL(".toList i j = some ("NVL".toList ++ ['(']) := by
    have hheads : ∀ m ∈ (Call.head "NVL".toList).findAll (mask "NVL(a, NVL(b)) NVL(".toList),
        slice? "NVL(a, NVL(b)) NVL(".toList m.start m.stop = some ("NVL".toList ++ ['(']) := by decide +kernel
    intro i j closing hmatched
    obtain ⟨m, hm, rfl, rfl⟩ := ((matchedAt?_eq_some_iff hnames.1).1 hmatched).1
    exact hheads m hm
  have hnone : ∀ i, Call.matchedAt? "ISNULL".toList (mask "NVL(a, NVL(b)) NVL(".toList) i = none := by
    have hempty : (Call.head "ISNULL".toList).findAll (mask "NVL(a, NVL(b)) NVL(".toList) = [] := by decide +kernel
    intro i
    rw [Call.matchedAt?, hempty]
    rfl
  have hpatched : patched (headEdits "NVL".toList "ISNULL".toList "NVL(a, NVL(b)) NVL(".toList) 0 0
      "NVL(a, NVL(b)) NVL(".toList = "ISNULL(a, ISNULL(b)) NVL(".toList := by decide +kernel
  obtain ⟨hrenamed, hgone, hback⟩ :=
    renameCalls_exact (σ := Nat) hnames.1 hnames.2 "NVL(a, NVL(b)) NVL(".toList
  rw [hpatched] at hrenamed hgone
  exact ⟨⟨hnames.1, hnames.2, hother, hspelled, hnone⟩, hrenamed, hgone hother, hback hspelled hnone⟩

end

end DialectBridge
