import DialectBridge.Proofs.CallHeads
import DialectBridge.Proofs.MaskedTokens
/-!
# A query cut at a call

A call that is found in the mask is one in the code of the query: the lexer is in code at its name,
at its parentheses and at the commas between its arguments (`exists_callCut`).
-/
namespace DialectBridge
open Pattern Cursor LexState

/-! ## Arguments -/

/-- The texts that the arguments of a call are trimmed from. -/
structure ArgumentCut (inside : Text) (pieces : List Text) : Prop where
  joined : inside = Text.join [','] pieces
  ne_nil : pieces ≠ []
  live : ∀ p ∈ pieces, (code.after p).live = true

/-- The numbers of bytes from `start` on between the commas at `cuts`, the last one up to `stop`. -/
def gaps (stop : Nat) : Nat → List Nat → List Nat
  | start, [] => [stop - start]
  | start, i :: cuts => (i - start) :: gaps stop (i + 1) cuts

/-- Commas in code cut a text into pieces. -/
theorem exists_cutAt?_pieces {a t b : Text} {cuts : List Nat}
    (hcuts : ∀ i ∈ cuts, ∃ p q, t = p ++ ',' :: q ∧ i = Text.width (a ++ p) ∧
      (code.after p).live = true)
    (hpair : cuts.Pairwise (· < ·)) (hlive : (code.after t).live = true) :
    ∃ pieces, cutAt? (a ++ t ++ b) (Text.width a) (Text.width (a ++ t)) cuts =
        some (pieces.map Text.trim) ∧ ArgumentCut t pieces ∧
      pieces.map Text.width = gaps (Text.width (a ++ t)) (Text.width a) cuts := by
  have hcomma : ','.utf8Size = 1 := by decide
  induction cuts generalizing a t with
  | nil =>
    have hslice := Text.slice?_append a t b
    refine ⟨[t], ?_, ⟨by simp [Text.join, List.intercalate], by simp, by simpa using hlive⟩, by simp [gaps]⟩
    rw [cutAt?, Text.width_append, hslice]
    rfl
  | cons i cuts ih =>
    obtain ⟨p, q, rfl, rfl, hp⟩ := hcuts _ List.mem_cons_self
    obtain ⟨hnext, hpair⟩ := List.pairwise_cons.1 hpair
    have hbehind : code.after (p ++ [',']) = code := by
      rw [after_append]
      exact after_of_all_isPlain hp (by decide) (by simp)
    have hsplit : a ++ (p ++ ',' :: q) ++ b = a ++ p ++ [','] ++ q ++ b := by simp
    have hwidth : Text.width (a ++ p) + 1 = Text.width (a ++ p ++ [',']) := by
      simp [hcomma, Nat.add_assoc]
    have hstop : Text.width (a ++ (p ++ ',' :: q)) = Text.width (a ++ p ++ [','] ++ q) := by simp
    have hlive' : (code.after q).live = true := by
      rwa [← List.singleton_append, ← List.append_assoc, after_append, hbehind] at hlive
    obtain ⟨pieces, hpieces, hcut, hwidths⟩ := ih (a := a ++ p ++ [',']) (t := q) (fun j hj => by
      obtain ⟨p', q', ht, rfl, hp'⟩ := hcuts j (List.mem_cons_of_mem _ hj)
      have hlt := hnext _ hj
      obtain ⟨r, rfl, rfl⟩ : ∃ r, p' = p ++ [','] ++ r ∧ q = r ++ ',' :: q' := by
        have ht' : p ++ [','] ++ q = p' ++ ',' :: q' := by rw [← ht]; simp
        obtain ⟨r, rfl, -⟩ := Text.exists_of_width_le ht' (by
          simp only [Text.width_append, Text.width_cons, Text.width_nil, hcomma] at hlt ⊢
          omega)
        exact ⟨r, rfl, by simpa using ht'⟩
      refine ⟨r, q', rfl, by simp, ?_⟩
      rwa [after_append, hbehind] at hp') hpair hlive'
    have hslice := Text.slice?_append a p (',' :: q ++ b)
    refine ⟨p :: pieces, ?_, ⟨?_, by simp, ?_⟩, ?_⟩
    · have hsplit' : a ++ (p ++ ',' :: q) ++ b = a ++ p ++ (',' :: q ++ b) := by simp
      rw [← Text.width_append, ← hsplit'] at hslice
      rw [cutAt?, hslice, hwidth, hstop, hsplit, hpieces]
      rfl
    · rw [Text.join_cons hcut.ne_nil, ← hcut.joined]
      simp
    · simpa [hp] using hcut.live
    · rw [List.map_cons, hwidths, gaps, hstop, hwidth, Text.width_append a p, Nat.add_sub_cancel_left]

/-- The arguments of a call are trimmed pieces of the text between its parentheses. -/
theorem exists_splitArgs?_pieces {a inside y : Text} {u v : Text} (hmask : mask inside = u)
    (hlive : (code.after inside).live = true)
    (hsql : mask (a ++ '(' :: (inside ++ ')' :: y)) = mask a ++ '(' :: (u ++ ')' :: v)) :
    ∃ pieces, splitArgs? (a ++ '(' :: (inside ++ ')' :: y))
        (mask (a ++ '(' :: (inside ++ ')' :: y))) (Text.width a) (Text.width (a ++ '(' :: inside)) =
        some (if pieces.map Text.trim = [[]] then [] else pieces.map Text.trim) ∧
      ArgumentCut inside pieces ∧ pieces.map Text.width = gaps (Text.width (a ++ '(' :: inside))
        (Text.width a + 1) (Paren.commas 0 (Text.indexedFrom (Text.width a + 1) u)) := by
  have hopen : '('.utf8Size = 1 := by decide
  have hwidth : Text.width a + 1 = Text.width (a ++ ['(']) := by simp [hopen]
  have hstop : Text.width (a ++ '(' :: inside) = Text.width (a ++ ['('] ++ inside) := by simp
  have hslice : Text.slice? (mask (a ++ '(' :: (inside ++ ')' :: y))) (Text.width a + 1)
      (Text.width (a ++ '(' :: inside)) = some u := by
    have := Text.slice?_append (mask a ++ ['(']) u (')' :: v)
    have hopen' : Text.width (mask a ++ ['(']) = Text.width a + 1 := by simp [width_mask, hopen]
    rw [hopen', ← hmask, width_mask, hmask] at this
    rw [hsql, hstop, Text.width_append, ← hwidth]
    simpa using this
  have hcuts : ∀ i ∈ Paren.commas 0 (Text.indexedFrom (Text.width a + 1) u), ∃ p q,
      inside = p ++ ',' :: q ∧ i = Text.width (a ++ ['('] ++ p) ∧ (code.after p).live = true := by
    intro i hi
    obtain ⟨u', v', hu, rfl⟩ := mem_commas hi
    obtain ⟨p, q, hinside, hp, -, hj⟩ := exists_of_mask_eq (by decide) (hmask.trans hu)
    refine ⟨p, q, hinside, ?_, live_of_joins hj (by decide)⟩
    rw [hwidth, ← hp, width_mask, Text.width_append _ p]
  obtain ⟨pieces, hpieces, hcut, hwidths⟩ := exists_cutAt?_pieces (b := ')' :: y) hcuts
    (pairwise_commas 0 _ u) hlive
  have hsplit : a ++ '(' :: (inside ++ ')' :: y) = a ++ ['('] ++ inside ++ ')' :: y := by simp
  rw [← hsplit, ← hstop, ← hwidth] at hpieces
  rw [← hstop, ← hwidth] at hwidths
  refine ⟨pieces, ?_, hcut, hwidths⟩
  simp only [splitArgs?, hslice, hpieces, Option.bind_eq_bind, Option.bind_some]
  rfl

/-! ## Calls -/

/-- A query cut at the call that `m` begins: `h` is its name, with what stands in front of the
parenthesis. -/
structure CallCut (name sql : Text) (m : Match) (closing : Nat) (x h inside y : Text)
    (pieces : List Text) : Prop where
  split : sql = x ++ (h ++ '(' :: (inside ++ ')' :: y))
  start : m.start = Text.width x
  stop : m.stop = Text.width (x ++ h) + 1
  shut : closing = Text.width (x ++ h ++ '(' :: inside)
  left : endsInWord (mask x) = false
  named : ∃ n b, mask (x ++ h) = mask x ++ (n ++ b) ∧ Spelled name n ∧ ∀ c ∈ b, Unicode.isBlank c = true
  live : (code.after x).live = true
  joins : (code.after x).joins (h ++ '(' :: (inside ++ ')' :: y)) = true
  opened : code.after (x ++ h ++ ['(']) = code
  closed : (code.after inside).live = true
  arguments : ArgumentCut inside pieces
  widths : pieces.map Text.width =
    gaps closing m.stop (Paren.commas 0 (Text.indexedFrom m.stop (mask inside)))
  read : Call.read? sql (mask sql) m closing = some ⟨Text.width x,
    Text.width (x ++ h ++ '(' :: inside) + 1, inside,
    if pieces.map Text.trim = [[]] then [] else pieces.map Text.trim, y⟩

theorem exists_callCut {sql name : Text} {m : Match} {closing : Nat} (hname : isName name = true)
    (hm : m ∈ (Call.head name).findAll (mask sql))
    (hclosing : matchingParen? (mask sql) (m.stop - 1) = some closing) :
    ∃ x h inside y pieces, CallCut name sql m closing x h inside y pieces := by
  have hopen : '('.utf8Size = 1 := by decide
  have hclose : ')'.utf8Size = 1 := by decide
  obtain ⟨u, w, b, v', hmask, hspelled, hblank, hleft, hstart, hstop⟩ := exists_headAt hname hm
  -- the parentheses
  have hparen : mask sql = u ++ (w ++ b) ++ '(' :: v' := by
    rw [hmask]
    simp
  rw [hparen, hstop, Nat.add_sub_cancel] at hclosing
  obtain ⟨i, v, rfl, rfl, -⟩ := exists_nest_of_matchingParen? hclosing
  obtain ⟨a, r, rfl, ha, hr, hja⟩ := exists_of_mask_eq (by decide) hparen
  obtain ⟨inside, y, rfl, hi, hy, hji⟩ := exists_of_mask_eq (by decide) hr
  have hla := live_of_joins hja (by decide)
  have hcode : code.after (a ++ ['(']) = code := by
    rw [after_append]
    exact after_of_all_isPlain hla (by decide) (by simp)
  -- the name
  obtain ⟨x, r, hsplit, hx, -, hlive, -⟩ := exists_cut_word (hspelled.ne_nil hname)
    (hspelled.isWordChar hname)
    (show mask _ = u ++ (w ++ (b ++ '(' :: (i ++ ')' :: v))) by rw [hparen]; simp)
  obtain ⟨h, rfl, -⟩ := Text.exists_of_width_le hsplit.symm (by
    rw [← width_mask a, ha, ← width_mask x, hx, Text.width_append]
    omega)
  have hwidth : Text.width (x ++ h) = Text.width (u ++ (w ++ b)) := by rw [← width_mask, ha]
  obtain ⟨pieces, hargs, hcut, hwidths⟩ := exists_splitArgs?_pieces (y := y) (v := v) hi
    (live_of_joins hji (by decide)) (by rw [hparen, ha])
  have hjoins : (code.after x).joins (h ++ '(' :: (inside ++ ')' :: y)) = true := by
    rw [List.append_assoc] at hsplit
    rw [List.append_cancel_left hsplit]
    refine joins_of_head?_isPlain hlive fun c hc => ?_
    rw [List.head?_append_of_ne_nil _ (hspelled.ne_nil hname)] at hc
    exact isPlain_of_isWordChar (hspelled.isWordChar hname c (List.mem_of_head? hc))
  have hclosing' : Text.width (u ++ (w ++ b) ++ '(' :: i) = Text.width (x ++ h ++ '(' :: inside) := by
    rw [Text.width_append, ← hwidth, Text.width_append _ (_ :: inside), Text.width_cons,
      Text.width_cons, ← hi, width_mask]
  refine ⟨x, h, inside, y, pieces, by simp, by rw [hstart, ← hx, width_mask], by rw [hstop, ← hwidth], hclosing',
    by rwa [hx], ⟨w, b, by rw [ha, hx], hspelled, hblank⟩, hlive, hjoins, hcode, live_of_joins hji (by decide), hcut,
    by rw [hclosing', hstop, ← hwidth, hi, hwidths], ?_⟩
  have hinner := Text.slice?_append (x ++ h ++ ['(']) inside (')' :: y)
  have htail := Text.from?_append (x ++ h ++ '(' :: inside ++ [')']) y
  have hwidth' : Text.width (x ++ h) + 1 = Text.width (x ++ h ++ ['(']) := by
    simp [hopen, Nat.add_assoc]
  have hinner' : Text.slice? (x ++ h ++ '(' :: (inside ++ ')' :: y)) m.stop
      (Text.width (x ++ h ++ '(' :: inside)) = some inside := by
    rw [hstop, ← hwidth, hwidth']
    rw [← Text.width_append] at hinner
    simpa using hinner
  have htail' : Text.from? (x ++ h ++ '(' :: (inside ++ ')' :: y))
      (Text.width (x ++ h ++ '(' :: inside) + 1) = some y := by
    rw [Text.width_append _ [')'], Text.width_cons, Text.width_nil, hclose] at htail
    simpa using htail
  rw [Call.read?, hclosing', hinner', htail', hstop, Nat.add_sub_cancel, ← hwidth, hargs, hstart,
    ← width_mask x, hx]
  rfl

end DialectBridge
