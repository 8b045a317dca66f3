import DialectBridge.Proofs.Outcomes
import DialectBridge.Proofs.Scopes
import DialectBridge.Sql.Call
/-!
# Reading and replacing calls

The parentheses of a call and the commas between its arguments are visible in the mask, so a call
that is found can be read from the query (`exists_read?`) and replaced (`total_replaceCalls`).
-/
namespace DialectBridge
open Pattern Text Cursor

/-! ## Arguments -/

theorem mem_commas {n i j : Nat} {t : Text} (h : j ∈ Paren.commas n (indexedFrom i t)) :
    ∃ u v, t = u ++ ',' :: v ∧ j = i + width u := by
  induction t generalizing n i with
  | nil => simp [indexedFrom, Paren.commas] at h
  | cons c t ih =>
    have later : ∀ {n}, j ∈ Paren.commas n (indexedFrom (i + c.utf8Size) t) →
        ∃ u v, c :: t = u ++ ',' :: v ∧ j = i + width u := by
      intro n h
      obtain ⟨u, v, rfl, rfl⟩ := ih h
      exact ⟨c :: u, v, rfl, by rw [width_cons]; omega⟩
    simp only [indexedFrom, Paren.commas] at h
    split_ifs at h with h1 h2 h3
    · exact later h
    · exact later h
    · rcases List.mem_cons.1 h with rfl | h
      · exact ⟨[], t, by rw [h3.1]; rfl, rfl⟩
      · exact later h
    · exact later h

theorem pairwise_commas (n i : Nat) (t : Text) :
    (Paren.commas n (indexedFrom i t)).Pairwise (· < ·) := by
  induction t generalizing n i with
  | nil => exact .nil
  | cons c t ih =>
    simp only [indexedFrom, Paren.commas]
    split_ifs with h1 h2 h3
    · exact ih _ _
    · exact ih _ _
    · refine List.pairwise_cons.2 ⟨fun j hj => ?_, ih _ _⟩
      obtain ⟨u, v, -, rfl⟩ := mem_commas hj
      have := c.utf8Size_pos
      omega
    · exact ih _ _

/-- Arguments can be cut out between boundaries in order. -/
theorem exists_cutAt? {sql : Text} {start stop : Nat} {cuts : List Nat}
    (hstart : IsBoundary sql start) (hstop : IsBoundary sql stop) (hle : start ≤ stop)
    (hcuts : ∀ i ∈ cuts, IsBoundary sql i ∧ IsBoundary sql (i + 1) ∧ start ≤ i ∧ i + 1 ≤ stop)
    (hpair : cuts.Pairwise (· < ·)) : ∃ args, cutAt? sql start stop cuts = some args := by
  induction cuts generalizing start with
  | nil =>
    obtain ⟨s, hs⟩ := exists_slice? hstart hstop hle
    exact ⟨[Text.trim s], by simp [cutAt?, hs]⟩
  | cons i cuts ih =>
    obtain ⟨hi, hi', hlo, hhi⟩ := hcuts i (by simp)
    obtain ⟨hnext, hpair⟩ := List.pairwise_cons.1 hpair
    obtain ⟨s, hs⟩ := exists_slice? hstart hi hlo
    obtain ⟨args, hargs⟩ := ih hi' hhi (fun j hj => by
      obtain ⟨h1, h2, -, h4⟩ := hcuts j (by simp [hj])
      exact ⟨h1, h2, hnext j hj, h4⟩) hpair
    exact ⟨Text.trim s :: args, by simp [cutAt?, hs, hargs]⟩

/-- The arguments of a call can be cut out of the query. -/
theorem exists_splitArgs? {sql u inside v : Text} (h : mask sql = u ++ '(' :: (inside ++ ')' :: v)) :
    ∃ args, splitArgs? sql (mask sql) (width u) (width (u ++ '(' :: inside)) = some args := by
  have hopen : '('.utf8Size = 1 := by decide
  have hcomma : ','.utf8Size = 1 := by decide
  have hwidth : width (u ++ ['(']) = width u + 1 := by simp [hopen]
  have hstop : width (u ++ '(' :: inside) = width u + 1 + width inside := by
    simp only [width_append, width_cons, hopen]
    omega
  have hslice : slice? (mask sql) (width u + 1) (width (u ++ '(' :: inside)) = some inside := by
    have := slice?_append (u ++ ['(']) inside (')' :: v)
    rw [hwidth, ← hstop] at this
    rw [h]
    simpa using this
  have hstart' : IsBoundary sql (width u + 1) := hwidth ▸ isBoundary_after (by decide) h
  have hstop' : IsBoundary sql (width (u ++ '(' :: inside)) := by
    refine isBoundary_before (x := ')') (v := v) (by decide) ?_
    rw [h]
    simp
  have hcuts : ∀ i ∈ Paren.commas 0 (indexedFrom (width u + 1) inside), IsBoundary sql i ∧
      IsBoundary sql (i + 1) ∧ width u + 1 ≤ i ∧ i + 1 ≤ width (u ++ '(' :: inside) := by
    intro i hi
    obtain ⟨x, y, rfl, rfl⟩ := mem_commas hi
    have hmask : mask sql = u ++ '(' :: x ++ ',' :: (y ++ ')' :: v) := by rw [h]; simp
    have hplace : width (u ++ '(' :: x) = width u + 1 + width x := by
      simp only [width_append, width_cons, hopen]
      omega
    have hbefore := isBoundary_before (x := ',') (by decide) hmask
    have hafter := isBoundary_after (x := ',') (by decide) hmask
    rw [hplace] at hbefore
    rw [width_append, hplace, width_cons, hcomma] at hafter
    rw [hstop, width_append, width_cons, hcomma]
    exact ⟨hbefore, hafter, by omega, by omega⟩
  obtain ⟨args, hargs⟩ := exists_cutAt? hstart' hstop' (by omega) hcuts (pairwise_commas 0 _ inside)
  refine ⟨if args = [[]] then [] else args, ?_⟩
  simp only [splitArgs?, hslice, hargs, Option.bind_eq_bind, Option.bind_some]
  rfl

/-! ## Calls -/

theorem visible_caseless {c : Char} (hc : (c.isAlphanum || c == '_') = true) :
    (CharSet.caseless c).visible = true := by
  have key : ∀ c : Char, c.toNat < 128 → (c.isAlphanum || c == '_') = true → (CharSet.caseless c).visible = true :=
    of_ascii (by decide +kernel)
  exact key c (toNat_lt_of_isNameChar hc) hc

/-- The head of a call begins with the name and ends with the parenthesis. -/
theorem framed_head {name : Text} (h : isName name = true) : (Call.head name).framed = true := by
  have hopen : (CharSet.single '(').visible = true := by decide
  simp only [isName, Bool.and_eq_true, List.all_eq_true] at h
  obtain ⟨c, t, rfl⟩ := List.exists_cons_of_ne_nil (by simpa using h.1 : name ≠ [])
  have hc := visible_caseless (h.2 c (by simp))
  have hword : (word (c :: t)).visibleStart = true ∧ (word (c :: t)).nullable = false := by
    cases t with
    | nil => exact ⟨hc, rfl⟩
    | cons d t => simp [word, visibleStart, nullable, hc]
  have hhead : Call.head (c :: t) =
      seq (seq (seq edge (word (c :: t))) blanks) (one (.single '(')) := rfl
  have hnullable : (Call.head (c :: t)).nullable = false := Bool.and_false _
  have hend : (Call.head (c :: t)).visibleEnd = true := by
    rw [hhead, visibleEnd, visibleEnd, hopen]
    rfl
  have hstart : (Call.head (c :: t)).visibleStart = true := by
    simp only [hhead, visibleStart, nullable, hword.1, hword.2]
    rfl
  rw [framed, hnullable, hend, hstart]
  rfl

/-- A pattern that ends with a parenthesis stops behind it. -/
theorem exists_of_matchAt?_open {p : Pattern} {u x : Text} {m : Match}
    (hat : (p ++ sym '(').matchAt? (between u x) = some m) :
    ∃ w v, x = w ++ '(' :: v ∧ m.start = width u ∧ m.stop = width (u ++ w) + 1 := by
  obtain ⟨w, v, rfl, hfirst, hlast, w, p, g, rfl, -, hp⟩ := matchAt?_eq_some hat
  obtain ⟨⟨y, rfl, hy⟩, -⟩ := hp
  obtain rfl : y = '(' := by simpa [CharSet.contains_single] using hy
  have hopen : '('.utf8Size = 1 := by decide
  refine ⟨w, v, by simp, by simp [Match.start, hfirst], ?_⟩
  simp only [Match.stop, hlast, offset_between, width_append, width_cons, width_nil, hopen]
  omega

/-- What stands between a parenthesis in code and its partner can be cut out of the query. -/
theorem exists_inner {sql u b : Text} {closing : Nat} (hmask : mask sql = u ++ '(' :: b)
    (hclosing : matchingParen? (mask sql) (width u) = some closing) :
    (∃ inner, slice? sql (width u + 1) closing = some inner) ∧
      (∃ args, splitArgs? sql (mask sql) (width u) closing = some args) ∧
      IsBoundary sql (closing + 1) ∧ width u < closing := by
  have hopen : '('.utf8Size = 1 := by decide
  have hclose : ')'.utf8Size = 1 := by decide
  rw [hmask] at hclosing
  obtain ⟨inside, v, rfl, rfl, -⟩ := exists_nest_of_matchingParen? hclosing
  have hmask' : mask sql = u ++ '(' :: inside ++ ')' :: v := by rw [hmask]; simp
  have hinner := isBoundary_after (by decide) hmask
  have hbefore := isBoundary_before (by decide) hmask'
  have hafter := isBoundary_after (by decide) hmask'
  rw [width_append, width_cons, hopen, width_nil] at hinner
  rw [width_append _ [')'], width_cons, hclose, width_nil] at hafter
  have hstop : width u + 1 ≤ width (u ++ '(' :: inside) := by
    rw [width_append, width_cons, hopen]
    omega
  exact ⟨exists_slice? hinner hbefore hstop, exists_splitArgs? hmask, hafter, hstop⟩

/-- A call that is found can be read, and what is put into its place can end anywhere in the text
behind it. -/
theorem exists_read? {sql name : Text} {m : Match} {closing : Nat}
    (hm : m ∈ (Call.head name).findAll (mask sql))
    (hclosing : matchingParen? (mask sql) (m.stop - 1) = some closing) :
    ∃ call, Call.read? sql (mask sql) m closing = some call ∧ call.start = m.start ∧
      m.start ≤ call.stop ∧ ∀ i, IsBoundary call.tail i → IsBoundary sql (call.stop + i) := by
  obtain ⟨u, x, hmask, hat⟩ := exists_of_mem_findAll hm
  obtain ⟨w, v, rfl, hstart, hstop⟩ := exists_of_matchAt?_open hat
  have hparen : m.stop - 1 = width (u ++ w) := by omega
  rw [hparen] at hclosing
  obtain ⟨⟨inner, hinner⟩, ⟨args, hargs⟩, hafter, hlt⟩ :=
    exists_inner (u := u ++ w) (b := v) (by rw [hmask]; simp) hclosing
  obtain ⟨front, tail, rfl, hfront⟩ := hafter
  have htail : from? (front ++ tail) (closing + 1) = some tail := by rw [← hfront, from?_append]
  rw [← hstop] at hinner
  refine ⟨⟨m.start, closing + 1, inner, args, tail⟩, ?_, rfl, ?_, ?_⟩
  · simp only [Call.read?, hparen, hinner, hargs, htail, Option.bind_eq_bind, Option.bind_some]
    rfl
  · rw [width_append] at hlt
    simp only
    omega
  · rintro i ⟨a, b, rfl, rfl⟩
    exact ⟨front ++ a, b, by simp, by rw [width_append, hfront]⟩

variable {σ : Type} {name : Text}

/-- Calls can be replaced if each of them has a replacement, and if with it a part of the text
behind the call is replaced that can be cut off. -/
theorem total_replaceCallsBefore (hname : isName name = true)
    {f : Call → Editing σ (Option (Text × Nat))}
    (hf : ∀ call, Yields (f call) fun r => ∀ x ∈ r, IsBoundary call.tail x.2) (limit : Nat)
    (sql : Text) : Total (replaceCallsBefore name f limit sql) := by
  induction limit using Nat.strongRecOn generalizing sql with
  | ind limit ih =>
    rw [replaceCallsBefore]
    split
    · exact total_pure sql
    · rename_i m hlast
      have hlt := Call.start_lt_of_lastBefore? hlast
      have hm : m ∈ (Call.head name).findAll (mask sql) :=
        List.mem_reverse.1 (List.mem_of_find?_eq_some hlast)
      split
      · exact ih _ hlt sql
      · rename_i closing hclosing
        obtain ⟨call, hread, hstart, hle, htail⟩ := exists_read? hm hclosing
        obtain ⟨r, hr, hcut⟩ := hf call
        obtain ⟨hbegin, -, -⟩ := isBoundary_of_mem_findAll (framed_head hname) hm
        cases r with
        | none =>
          obtain ⟨out, hout⟩ := ih _ hlt sql
          exact ⟨out, (gives_lift hread).bind (hr.bind hout)⟩
        | some r =>
          obtain ⟨replacement, consumed⟩ := r
          obtain ⟨next, hnext, -⟩ := exists_splice? (hstart ▸ hbegin) (htail _ (hcut _ rfl))
            (by omega) replacement
          obtain ⟨out, hout⟩ := ih _ hlt next
          exact ⟨out, (gives_lift hread).bind (hr.bind ((gives_lift hnext).bind hout))⟩

theorem total_replaceCalls (hname : isName name = true)
    {f : Call → Editing σ (Option Text)} (hf : ∀ call, Total (f call)) (sql : Text) :
    Total (replaceCalls sql name f) := by
  refine total_replaceCallsBefore hname (fun call => ?_) _ sql
  obtain ⟨r, hr⟩ := hf call
  refine ⟨r.map fun r => (r, 0), hr.bind (gives_pure _), fun x hx => ?_⟩
  obtain ⟨t, -, rfl⟩ := Option.map_eq_some_iff.1 hx
  exact isBoundary_zero _

theorem total_renameCalls {old : Text} (hold : isName old = true) (sql new : Text) :
    Total (renameCalls sql old new : Editing σ Text) :=
  total_replaceCalls hold (fun _ => total_pure _) sql

/-! ## The clause behind a call -/

/-- The clause `WITHIN GROUP` can be cut off. -/
theorem exists_withinGroup? (tail : Text) :
    ∃ r, withinGroup? tail = some r ∧ ∀ x ∈ r, IsBoundary tail x.2 := by
  rw [withinGroup?]
  split
  · exact ⟨none, rfl, by simp⟩
  rename_i head hhead
  split
  · exact ⟨none, rfl, by simp⟩
  rename_i closing hclosing
  obtain ⟨u, x, hmask, hat⟩ := exists_of_find? hhead
  obtain ⟨w, v, rfl, -, hstop⟩ := exists_of_matchAt?_open hat
  have hparen : head.stop - 1 = width (u ++ w) := by omega
  rw [hparen] at hclosing
  obtain ⟨⟨inner, hinner⟩, -, hafter, -⟩ :=
    exists_inner (u := u ++ w) (b := v) (by rw [hmask]; simp) hclosing
  rw [← hstop] at hinner
  refine ⟨some (trim (orderByHead.replaceFirstBy (fun _ => []) (trim inner)), closing + 1), ?_, ?_⟩
  · simp only [hinner, Option.bind_eq_bind, Option.bind_some]
    rfl
  · rintro _ ⟨⟩
    exact hafter

end DialectBridge
