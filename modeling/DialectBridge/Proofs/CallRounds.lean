import DialectBridge.Proofs.Sweep
/-!
# The rounds of a replacement of calls

`Rounds` is the replacement of calls round by round, with the calls that are visited and the answers that they
get. Whatever the name is and whatever the answers are, as long as each is given and ends between two
characters, the rounds come to an end (`exists_rounds`), each visit starts before the one that came before it
(`Rounds.pairwise`), and what stands in front of a visit is still the text of the beginning (`Rounds.front`).
-/
namespace DialectBridge
open Pattern Text Cursor

variable {σ : Type}

/-- A call that is visited, in the text of that moment, with the answer: nothing, or the replacement and the
number of bytes of the tail that it replaces too. -/
structure Visit where
  text : Text
  call : Call
  answer : Option (Text × Nat)

/-- The rounds that replace the calls of `name` in `text` that start before `limit`, from one log to another. -/
inductive Rounds (name : Text) (f : Call → Editing σ (Option (Text × Nat))) :
    (limit : Nat) → (text : Text) → σ → List Visit → Text → σ → Prop
  | done {limit : Nat} {text : Text} {s : σ} :
    Call.lastBefore? name (mask text) limit = none → Rounds name f limit text s [] text s
  | unmatched {limit : Nat} {text out : Text} {s s' : σ} {m : Match} {visits : List Visit} :
    Call.lastBefore? name (mask text) limit = some m → matchingParen? (mask text) (m.stop - 1) = none →
      Rounds name f m.start text s visits out s' → Rounds name f limit text s visits out s'
  | kept {limit closing : Nat} {text out : Text} {s s₁ s' : σ} {m : Match} {call : Call} {visits : List Visit} :
    Call.lastBefore? name (mask text) limit = some m → matchingParen? (mask text) (m.stop - 1) = some closing →
      Call.read? text (mask text) m closing = some call → (f call).run s = some (none, s₁) →
      Rounds name f m.start text s₁ visits out s' →
      Rounds name f limit text s (⟨text, call, none⟩ :: visits) out s'
  | replaced {limit closing consumed : Nat} {text next out r : Text} {s s₁ s' : σ} {m : Match} {call : Call}
      {visits : List Visit} :
    Call.lastBefore? name (mask text) limit = some m → matchingParen? (mask text) (m.stop - 1) = some closing →
      Call.read? text (mask text) m closing = some call → (f call).run s = some (some (r, consumed), s₁) →
      splice? text call.start (call.stop + consumed) r = some next →
      Rounds name f m.start next s₁ visits out s' →
      Rounds name f limit text s (⟨text, call, some (r, consumed)⟩ :: visits) out s'

section
variable {name : Text} {f : Call → Editing σ (Option (Text × Nat))} {limit : Nat} {text out : Text} {s s' : σ}
  {visits : List Visit}

/-- The rounds are those of the replacement. -/
theorem Rounds.run (h : Rounds name f limit text s visits out s') :
    (replaceCallsBefore name f limit text).run s = some (out, s') := by
  induction h with
  | done hlast => rw [replaceCallsBefore_of_none hlast]; rfl
  | unmatched hlast hclosing _ ih => rw [replaceCallsBefore_of_some hlast, hclosing]; exact ih
  | kept hlast hclosing hread hf _ ih =>
    rw [replaceCallsBefore_of_some hlast, hclosing]
    simp only [hread, Editing.lift_some_bind, StateT.run_bind, hf]
    exact ih
  | replaced hlast hclosing hread hf hsplice _ ih =>
    rw [replaceCallsBefore_of_some hlast, hclosing]
    simp only [hread, Editing.lift_some_bind, StateT.run_bind, hf]
    change (liftM (splice? _ _ _ _) >>= _ : Editing σ Text).run _ = _
    rw [hsplice]
    exact ih

/-- Other edits that give the same answers have the same rounds. -/
theorem Rounds.transfer {τ : Type} {g : Call → Editing τ (Option (Text × Nat))}
    (h : Rounds name f limit text s visits out s')
    (hg : ∀ v ∈ visits, ∀ t, ∃ t', (g v.call).run t = some (v.answer, t')) (t : τ) :
    ∃ t', Rounds name g limit text t visits out t' := by
  induction h generalizing t with
  | done hlast => exact ⟨t, .done hlast⟩
  | unmatched hlast hclosing _ ih =>
    obtain ⟨t', h⟩ := ih hg t
    exact ⟨t', .unmatched hlast hclosing h⟩
  | kept hlast hclosing hread _ _ ih =>
    obtain ⟨hcall, hg⟩ := List.forall_mem_cons.1 hg
    obtain ⟨t₁, ht₁⟩ := hcall t
    obtain ⟨t', h⟩ := ih hg t₁
    exact ⟨t', .kept hlast hclosing hread ht₁ h⟩
  | replaced hlast hclosing hread _ hsplice _ ih =>
    obtain ⟨hcall, hg⟩ := List.forall_mem_cons.1 hg
    obtain ⟨t₁, ht₁⟩ := hcall t
    obtain ⟨t', h⟩ := ih hg t₁
    exact ⟨t', .replaced hlast hclosing hread ht₁ hsplice h⟩

theorem read?_eq_some {sql masked : Text} {m : Match} {closing : Nat} {call : Call}
    (h : Call.read? sql masked m closing = some call) :
    call.start = m.start ∧ call.stop = closing + 1 ∧ slice? sql m.stop closing = some call.inner := by
  simp only [Call.read?, Option.bind_eq_bind, Option.bind_eq_some_iff] at h
  obtain ⟨inner, hinner, args, -, tail, -, h⟩ := h
  cases h
  exact ⟨rfl, rfl, hinner⟩

/-- A query can be cut where a call begins: there a word begins, or ends. -/
theorem isBoundary_start {sql : Text} {m : Match} (hm : m ∈ (Call.head name).findAll (mask sql)) :
    IsBoundary sql m.start := by
  obtain ⟨u, x, hmask, hat⟩ := exists_of_mem_findAll hm
  obtain ⟨w, v, rfl, hfirst, -, hw⟩ := matchAt?_eq_some hat
  obtain ⟨w, p, rfl, hw, -⟩ := matches_seq.1 (show Matches (Call.head name) u w v from ⟨_, _, hw⟩)
  obtain ⟨w, b, rfl, hw, -⟩ := matches_seq.1 hw
  obtain ⟨e, n, rfl, he, -⟩ := matches_seq.1 hw
  obtain ⟨rfl, hedge⟩ := matches_edge.1 he
  have hblank : ∀ c, Unicode.isWordChar c = true → Unicode.isBlank c = false := fun c hc => by
    by_contra hb
    rw [isWordChar_of_isBlank (by simpa using hb)] at hc
    exact absurd hc (by decide)
  have hstart : m.start = width u := by simp [Match.start, hfirst]
  rw [hstart]
  cases hu : endsInWord u with
  | true =>
    refine isBoundary_of_getLast? hmask fun c hc => hblank c ?_
    obtain ⟨u, rfl⟩ := List.getLast?_eq_some_iff.1 hc
    rwa [endsInWord_append (by simp)] at hu
  | false =>
    refine isBoundary_of_head? hmask fun c hc => hblank c ?_
    rw [hu] at hedge
    obtain ⟨t, ht⟩ := List.head?_eq_some_iff.1 hc
    simp only [List.nil_append, List.append_assoc] at ht hedge
    rw [ht] at hedge
    simpa using hedge.symm

/-- Whether each call gets an answer, and what is replaced with it ends between two characters of the tail. -/
def Answers (f : Call → Editing σ (Option (Text × Nat))) : Prop :=
  ∀ call s, ∃ r s', (f call).run s = some (r, s') ∧ ∀ x ∈ r, IsBoundary call.tail x.2

/-- The rounds come to an end. -/
theorem exists_rounds (hf : Answers f) (limit : Nat) (text : Text) (s : σ) :
    ∃ visits out s', Rounds name f limit text s visits out s' := by
  induction limit using Nat.strongRecOn generalizing text s with
  | ind limit ih =>
    cases hlast : Call.lastBefore? name (mask text) limit with
    | none => exact ⟨[], text, s, .done hlast⟩
    | some m =>
      have hlt := Call.start_lt_of_lastBefore? hlast
      have hm : m ∈ (Call.head name).findAll (mask text) := List.mem_reverse.1 (List.mem_of_find?_eq_some hlast)
      cases hclosing : matchingParen? (mask text) (m.stop - 1) with
      | none =>
        obtain ⟨visits, out, s', h⟩ := ih _ hlt text s
        exact ⟨visits, out, s', .unmatched hlast hclosing h⟩
      | some closing =>
        obtain ⟨call, hread, hstart, hle, htail⟩ := exists_read? hm hclosing
        obtain ⟨r, s₁, hr, hcut⟩ := hf call s
        cases r with
        | none =>
          obtain ⟨visits, out, s', h⟩ := ih _ hlt text s₁
          exact ⟨_, out, s', .kept hlast hclosing hread hr h⟩
        | some r =>
          obtain ⟨next, hnext, -⟩ := exists_splice? (hstart ▸ isBoundary_start hm) (htail _ (hcut _ rfl))
            (by omega) r.1
          obtain ⟨visits, out, s', h⟩ := ih _ hlt next s₁
          exact ⟨_, out, s', .replaced hlast hclosing hread hr hnext h⟩

theorem Rounds.start_lt (h : Rounds name f limit text s visits out s') : ∀ v ∈ visits, v.call.start < limit := by
  induction h with
  | done => simp
  | unmatched hlast _ _ ih => exact fun v hv => Nat.lt_trans (ih v hv) (Call.start_lt_of_lastBefore? hlast)
  | kept hlast _ hread _ _ ih | replaced hlast _ hread _ _ _ ih =>
    have hlt := Call.start_lt_of_lastBefore? hlast
    exact List.forall_mem_cons.2 ⟨by rwa [(read?_eq_some hread).1], fun v hv => Nat.lt_trans (ih v hv) hlt⟩

/-- Each visit starts before the one that came before it. -/
theorem Rounds.pairwise (h : Rounds name f limit text s visits out s') :
    visits.Pairwise fun v w => w.call.start < v.call.start := by
  induction h with
  | done => exact .nil
  | unmatched _ _ _ ih => exact ih
  | kept _ _ hread _ hrest ih | replaced _ _ hread _ _ hrest ih =>
    exact List.pairwise_cons.2 ⟨fun w hw => (read?_eq_some hread).1 ▸ hrest.start_lt w hw, ih⟩

theorem splitAt?_append_left {a : Text} {k : Nat} (h : k ≤ width a) (b : Text) :
    splitAt? (a ++ b) k = (splitAt? a k).map fun x => (x.1, x.2 ++ b) := by
  induction a generalizing k with
  | nil =>
    obtain rfl : k = 0 := Nat.le_zero.1 h
    cases b <;> rfl
  | cons c a ih =>
    rw [width_cons] at h
    rw [List.cons_append, splitAt?, splitAt?]
    split_ifs
    · rfl
    · rfl
    · rw [ih (by omega), Option.map_map, Option.map_map]
      rfl

/-- What is in front of a replacement stays. -/
theorem upTo?_of_splice? {t r next : Text} {i j k : Nat} (h : splice? t i j r = some next) (hk : k ≤ i) :
    upTo? next k = upTo? t k := by
  obtain ⟨hi, hj, hij⟩ := isBoundary_of_splice? h
  obtain ⟨a, x, b, rfl, rfl, rfl⟩ := exists_cuts hi hj hij
  rw [splice?_append] at h
  obtain rfl := Option.some.inj h
  simp only [upTo?, List.append_assoc, splitAt?_append_left hk, Option.map_map]
  rfl

/-- What stands in front of a visit is the text of the beginning. -/
theorem Rounds.front (h : Rounds name f limit text s visits out s') :
    ∀ v ∈ visits, ∃ front, upTo? v.text v.call.start = some front ∧ upTo? text v.call.start = some front := by
  have hfront : ∀ {text : Text} {limit : Nat} {m : Match} {call : Call} {closing : Nat},
      Call.lastBefore? name (mask text) limit = some m → Call.read? text (mask text) m closing = some call →
      ∃ front, upTo? text call.start = some front := by
    intro text limit m call closing hlast hread
    rw [(read?_eq_some hread).1]
    exact exists_upTo? (isBoundary_start (List.mem_reverse.1 (List.mem_of_find?_eq_some hlast)))
  induction h with
  | done => simp
  | unmatched _ _ _ ih => exact ih
  | kept hlast _ hread _ _ ih =>
    obtain ⟨front, hv⟩ := hfront hlast hread
    exact List.forall_mem_cons.2 ⟨⟨front, hv, hv⟩, ih⟩
  | replaced hlast _ hread _ hsplice hrest ih =>
    obtain ⟨front, hv⟩ := hfront hlast hread
    refine List.forall_mem_cons.2 ⟨⟨front, hv, hv⟩, fun w hw => ?_⟩
    obtain ⟨front, hw', hnext⟩ := ih w hw
    have hlt := hrest.start_lt w hw
    rw [← (read?_eq_some hread).1] at hlt
    exact ⟨front, hw', upTo?_of_splice? hsplice (Nat.le_of_lt hlt) ▸ hnext⟩

end

end DialectBridge
