import DialectBridge.Pattern.Basic
/-!
# Finding a pattern in a text

The first match starts as far left as possible, and of the matches from there it is the one
that the pattern's own order puts first. `findAll` gives the matches from left to right: each
starts where the one before it stopped or later, and an empty match never touches the end of
the one before it. `findFrom?_cons` and `findAllFrom_cons_of_none` say that no place is left out.
-/
namespace DialectBridge

/-- A match: where it starts and stops, and its groups. -/
structure Match where
  first : Cursor
  last : Cursor
  groups : Groups
  deriving DecidableEq, Repr

namespace Match

def start (m : Match) : Nat := m.first.offset

/-- The byte offset just past the match. -/
def stop (m : Match) : Nat := m.last.offset

def span (m : Match) : Span := ⟨m.start, m.stop⟩

def text (m : Match) : Text := m.first.upTo m.last

def width (m : Match) : Nat := m.stop - m.start

/-- The bytes of group `i`, if it took part in the match; the group 0 is the whole match. -/
def groupSpan? (m : Match) (i : Nat) : Option Span :=
  if i = 0 then some m.span else (m.groups.lookup i).map fun (c, d) => ⟨c.offset, d.offset⟩

/-- The text of group `i`, if it took part in the match; the group 0 is the whole match. -/
def group? (m : Match) (i : Nat) : Option Text :=
  if i = 0 then some m.text else (m.groups.lookup i).map fun (c, d) => c.upTo d

/-- The text of group `i`, empty if it took no part in the match. -/
def groupD (m : Match) (i : Nat) : Text := (m.group? i).getD []

end Match

namespace Pattern

/-- The match of `p` that starts at `c`. -/
def matchAt? (p : Pattern) (c : Cursor) : Option Match :=
  p.run (fun d g => some ⟨c, d, g⟩) c []

/-! ## Places that need no trial

A pattern that begins with some characters of a set, as many as there are or fewer, has no match in
the middle of such characters if it has none before them: it would have come to the same places. -/

/-- The set of the characters that the pattern takes in any number before all else. -/
def leading? : Pattern → Option CharSet
  | star true (one s) => some s
  | seq (one s) (star true (one t)) => if s = t then some s else none
  | seq p _ => leading? p
  | group _ p => leading? p
  | alt p q => do
    let s ← leading? p
    if leading? q = some s then some s else none
  | _ => none

/-- Whether there is no match behind `c` if there is none before it; `lead` is the leading set. -/
def isMiddle (lead : Option CharSet) (c : Char) : Bool := lead.any (·.contains c)

theorem rounds_eq_none {α : Type} {greedy : Bool}
    {body : (Cursor → Groups → Option α) → Cursor → Groups → Option α}
    (hb : ∀ k k', (∀ c g g', k c g = none → k' c g' = none) →
      ∀ c g g', body k c g = none → body k' c g' = none)
    {k k' : Cursor → Groups → Option α} (hk : ∀ c g g', k c g = none → k' c g' = none)
    (fuel : Text) (c : Cursor) (g g' : Groups) (h : rounds greedy body k fuel c g = none) :
    rounds greedy body k' fuel c g' = none := by
  induction fuel generalizing c g g' with
  | nil => exact hk c g g' h
  | cons _ fuel ih =>
    cases greedy <;> simp only [rounds, Bool.false_eq_true, if_true, if_false,
      Option.orElse_eq_or, Option.or_eq_none_iff] at h ⊢
    · exact ⟨hk c g g' h.1, hb _ _ (fun c g g' => ih c g g') c g g' h.2⟩
    · exact ⟨hb _ _ (fun c g g' => ih c g g') c g g' h.1, hk c g g' h.2⟩

/-- Whether a pattern finds something does not depend on the groups. -/
theorem run_eq_none {α : Type} (p : Pattern) {k k' : Cursor → Groups → Option α}
    (hk : ∀ c g g', k c g = none → k' c g' = none) (c : Cursor) (g g' : Groups)
    (h : p.run k c g = none) : p.run k' c g' = none := by
  induction p generalizing k k' c g g' with
  | empty => exact hk c g g' h
  | one s =>
    simp only [run] at h ⊢
    split
    · rfl
    · rename_i hr
      rw [hr] at h
      split
      · rename_i hx
        exact hk _ g g' (by simpa [hx] using h)
      · rfl
  | check a =>
    simp only [run] at h ⊢
    split <;> simp_all
    exact hk _ _ _ h
  | seq p q ihp ihq => exact ihp (fun c g g' => ihq hk c g g') c g g' h
  | alt p q ihp ihq =>
    simp only [run, Option.orElse_eq_or, Option.or_eq_none_iff] at h ⊢
    exact ⟨ihp hk c g g' h.1, ihq hk c g g' h.2⟩
  | star greedy p ih =>
    exact rounds_eq_none (fun k k' hk c g g' => ih hk c g g') hk _ c g g' h
  | group i p ih => exact ih (fun c' g g' => hk c' _ _) c g g' h

theorem run_eq_none_of_leading {α : Type} {p : Pattern} {s : CharSet} (hp : p.leading? = some s)
    {k k' : Cursor → Groups → Option α} (hk : ∀ c g g', k c g = none → k' c g' = none)
    {x : Char} (hx : s.contains x = true) {left : Passed} {right : Text} {g g' : Groups}
    (h : p.run k ⟨left, x :: right⟩ g = none) : p.run k' ⟨left.add x, right⟩ g' = none := by
  induction p generalizing k k' g g' with
  | star greedy p _ =>
    cases greedy <;> cases p <;> simp only [leading?, reduceCtorEq, Option.some.injEq] at hp
    subst hp
    simp only [run, rounds, if_true, hx, Option.orElse_eq_or, Option.or_eq_none_iff] at h
    exact rounds_eq_none (fun k k' hk c g g' => run_eq_none (one _) hk c g g') hk _ _ _ _ h.1
  | seq p q ihp _ =>
    by_cases hs : ∃ s t, p = one s ∧ q = star true (one t)
    · obtain ⟨s, t, rfl, rfl⟩ := hs
      simp only [leading?] at hp
      split at hp <;> simp only [Option.some.injEq, reduceCtorEq] at hp
      rename_i hst
      subst hst hp
      simp only [run, hx, if_true] at h
      cases right with
      | nil => rfl
      | cons y right =>
        simp only [run]
        split
        · rename_i hy
          simp only [rounds, hy, if_true, Option.orElse_eq_or, Option.or_eq_none_iff] at h
          exact rounds_eq_none (fun k k' hk c g g' => run_eq_none (one _) hk c g g') hk _ _ _ _ h.1
        · rfl
    · rw [leading?] at hp
      · exact ihp hp (fun c g g' => run_eq_none q hk c g g') h
      · exact fun s t h h' => hs ⟨s, t, h, h'⟩
  | group i p ih => exact ih hp (fun c g g' => hk c _ _) h
  | alt p q ihp ihq =>
    simp only [leading?] at hp
    cases hs : leading? p with
    | none => simp [hs] at hp
    | some t =>
      simp only [hs, Option.bind_eq_bind, Option.bind_some] at hp
      split at hp
      · rename_i ht
        simp only [Option.some.injEq] at hp
        subst hp
        simp only [run, Option.orElse_eq_or, Option.or_eq_none_iff] at h ⊢
        exact ⟨ihp hs hk h.1, ihq ht hk h.2⟩
      · simp at hp
  | _ => simp [leading?] at hp

theorem matchAt?_eq_none_of_isMiddle {p : Pattern} {x : Char} {left : Passed} {right : Text}
    (hx : isMiddle p.leading? x = true) (h : p.matchAt? ⟨left, x :: right⟩ = none) :
    p.matchAt? ⟨left.add x, right⟩ = none := by
  cases hs : p.leading? with
  | none => simp [isMiddle, hs] at hx
  | some s =>
    exact run_eq_none_of_leading hs (fun c g g' h => by simp at h)
      (by simpa [isMiddle, hs] using hx) h

/-! ## Search -/

/-- The first match of `p` that starts at the beginning of `right` or later. There is none at the
beginning if this place is known to be a `middle`. -/
def findFrom? (p : Pattern) (lead : Option CharSet) : (middle : Bool) → Passed → Text → Option Match
  | middle, left, [] => if middle then none else p.matchAt? ⟨left, []⟩
  | middle, left, c :: right =>
    match if middle then none else p.matchAt? ⟨left, c :: right⟩ with
    | some m => some m
    | none => findFrom? p lead (isMiddle lead c) (left.add c) right

def find? (p : Pattern) (t : Text) : Option Match := p.findFrom? p.leading? false .nil t

def occursIn (p : Pattern) (t : Text) : Bool := (p.find? t).isSome

theorem findFrom?_middle {p : Pattern} {left : Passed} {right : Text}
    (h : p.matchAt? ⟨left, right⟩ = none) (lead : Option CharSet) (middle : Bool) :
    p.findFrom? lead middle left right = p.findFrom? lead false left right := by
  cases right <;> cases middle <;> simp [findFrom?, h]

/-- Every place is tried in turn. -/
theorem findFrom?_cons (p : Pattern) (left : Passed) (c : Char) (right : Text) :
    p.findFrom? p.leading? false left (c :: right) =
      (p.matchAt? ⟨left, c :: right⟩).orElse fun _ =>
        p.findFrom? p.leading? false (left.add c) right := by
  rw [findFrom?]
  cases h : p.matchAt? ⟨left, c :: right⟩ with
  | some m => rfl
  | none =>
    cases hc : isMiddle p.leading? c with
    | false => rfl
    | true => exact findFrom?_middle (matchAt?_eq_none_of_isMiddle hc h) _ _

/-- The matches from the beginning of `right` on. The next `skip` bytes belong to the
match before; `touching` says that this match stops at the place reached after them. There is no
match at the beginning if this place is known to be a `middle`. -/
def findAllFrom (p : Pattern) (lead : Option CharSet) :
    (skip : Nat) → (touching middle : Bool) → Passed → Text → List Match
  | _, touching, middle, left, [] =>
    match if middle then none else p.matchAt? ⟨left, []⟩ with
    | some m => if touching then [] else [m]
    | none => []
  | skip + 1, touching, middle, left, c :: right =>
    findAllFrom p lead (skip + 1 - c.utf8Size) touching middle (left.add c) right
  | 0, touching, middle, left, c :: right =>
    match if middle then none else p.matchAt? ⟨left, c :: right⟩ with
    | none => findAllFrom p lead 0 false (isMiddle lead c) (left.add c) right
    | some m =>
      match m.width with
      | 0 =>
        if touching then findAllFrom p lead 0 false false (left.add c) right
        else m :: findAllFrom p lead 0 false false (left.add c) right
      | n + 1 => m :: findAllFrom p lead (n + 1 - c.utf8Size) true false (left.add c) right

theorem findAllFrom_middle {p : Pattern} {left : Passed} {right : Text}
    (h : p.matchAt? ⟨left, right⟩ = none) (lead : Option CharSet) (touching middle : Bool) :
    p.findAllFrom lead 0 touching middle left right =
      p.findAllFrom lead 0 touching false left right := by
  cases right <;> cases middle <;> simp [findAllFrom, h]

/-- Where there is no match, the search goes on behind the next character. -/
theorem findAllFrom_cons_of_none {p : Pattern} {left : Passed} {c : Char} {right : Text}
    (h : p.matchAt? ⟨left, c :: right⟩ = none) (touching : Bool) :
    p.findAllFrom p.leading? 0 touching false left (c :: right) =
      p.findAllFrom p.leading? 0 false false (left.add c) right := by
  rw [findAllFrom]
  simp only [Bool.false_eq_true, if_false, h]
  cases hc : isMiddle p.leading? c with
  | false => rfl
  | true => exact findAllFrom_middle (matchAt?_eq_none_of_isMiddle hc h) _ _ _

/-- The matches of `p` in `t` from left to right. -/
def findAll (p : Pattern) (t : Text) : List Match := p.findAllFrom p.leading? 0 false false .nil t

end Pattern
end DialectBridge
