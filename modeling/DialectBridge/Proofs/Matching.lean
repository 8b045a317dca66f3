import DialectBridge.Pattern.Search
import Mathlib.Data.List.Forall2
import Mathlib.Tactic.Common
/-!
# What a pattern matches

`Pattern.run` tries the ways of a pattern in order. `Takes` says without any order which texts a
pattern takes between two others, and `run_eq_some` and `run_ne_none` that a run finds just these.
So there is a match at a place just where some text from there on is taken
(`isSome_matchAt?_iff`).
-/
namespace DialectBridge

theorem Text.width_reverse (t : Text) : Text.width t.reverse = Text.width t := by
  induction t with
  | nil => rfl
  | cons c t ih => simp [ih, Nat.add_comm]

theorem Text.append_inj_of_width {a b a' b' : Text} (h : a ++ b = a' ++ b')
    (hw : Text.width a = Text.width a') : a = a' ∧ b = b' := by
  have hsplit := Text.splitAt?_append a b
  rw [h, hw, Text.splitAt?_append] at hsplit
  simpa [eq_comm] using hsplit

/-- Two texts up to the first place of a character. -/
theorem Text.append_cons_inj {a b a' b' : Text} {c : Char} (h : a ++ c :: b = a' ++ c :: b') (ha : c ∉ a)
    (ha' : c ∉ a') : a = a' ∧ b = b' := by
  rcases List.append_eq_append_iff.1 h with ⟨m, rfl, hm⟩ | ⟨m, rfl, hm⟩
  · cases m with
    | nil => simpa using hm
    | cons d m =>
      obtain ⟨rfl, -⟩ := List.cons.inj hm
      simp at ha'
  · cases m with
    | nil => simpa [eq_comm] using hm
    | cons d m =>
      obtain ⟨rfl, -⟩ := List.cons.inj hm
      simp at ha

/-- Of two places in a text one is further right. -/
theorem Text.exists_of_width_le {a b a' b' : Text} (h : a ++ b = a' ++ b')
    (hw : Text.width a ≤ Text.width a') : ∃ m, a' = a ++ m ∧ b = m ++ b' := by
  rcases List.append_eq_append_iff.1 h with ⟨m, ha, hb⟩ | ⟨m, ha, hb⟩
  · exact ⟨m, ha, hb⟩
  · have hm : m = [] := by
      by_contra hne
      have := Text.width_pos hne
      rw [ha, Text.width_append] at hw
      omega
    subst hm
    exact ⟨[], by simpa using ha.symm, by simpa using hb.symm⟩

/-- The text `u` as what stands to the left of a place. -/
def Passed.of (u : Text) : Passed := ⟨u.reverse, Text.width u, (Text.width_reverse u).symm⟩

theorem Passed.ext {p q : Passed} (h : p.text = q.text) : p = q := by
  obtain ⟨pt, pw, hp⟩ := p
  obtain ⟨qt, qw, hq⟩ := q
  simp only at h hp hq
  subst h hp hq
  rfl

@[simp] theorem Passed.of_nil : Passed.of [] = Passed.nil := rfl

@[simp] theorem Passed.add_of (u : Text) (c : Char) : (Passed.of u).add c = Passed.of (u ++ [c]) :=
  Passed.ext (by simp [Passed.of, Passed.add])

/-- The place behind `u` and before `v`. -/
def Cursor.between (u v : Text) : Cursor := ⟨.of u, v⟩

namespace Cursor

@[simp] theorem right_between (u v : Text) : (between u v).right = v := rfl

@[simp] theorem left_between (u v : Text) : (between u v).left.text = u.reverse := rfl

@[simp] theorem offset_between (u v : Text) : (between u v).offset = Text.width u := rfl

theorem between_inj {u v u' v' : Text} : between u v = between u' v' ↔ u = u' ∧ v = v' := by
  constructor
  · intro h
    have hl := congrArg (fun c => c.left.text) h
    have hr := congrArg Cursor.right h
    simp only [left_between, List.reverse_inj, right_between] at hl hr
    exact ⟨hl, hr⟩
  · rintro ⟨rfl, rfl⟩
    rfl

/-- The text between two places of one text. -/
theorem upTo_between (u w v : Text) : (between u (w ++ v)).upTo (between (u ++ w) v) = w := by
  simp [upTo, Text.upTo?, Text.splitAt?_append]

end Cursor
open Cursor

namespace Pattern

/-- Rounds in a row. -/
inductive Rounds (P : Text → Text → Text → Groups → Groups → Prop) :
    Text → Text → Text → Groups → Groups → Prop where
  | nil {u v : Text} {g : Groups} : Rounds P u [] v g g
  | cons {u w w' v : Text} {g h g' : Groups} : P u w (w' ++ v) g h →
      Rounds P (u ++ w) w' v h g' → Rounds P u (w ++ w') v g g'

/-- `p` takes `w` between `u` and `v`, and the groups `g` become `g'`. -/
def Takes : Pattern → Text → Text → Text → Groups → Groups → Prop
  | empty, _, w, _, g, g' => w = [] ∧ g' = g
  | one s, _, w, _, g, g' => (∃ x, w = [x] ∧ s.contains x = true) ∧ g' = g
  | check a, u, w, v, g, g' => w = [] ∧ a.holds (between u v) = true ∧ g' = g
  | seq p q, u, w, v, g, g' => ∃ a b h, w = a ++ b ∧ Takes p u a (b ++ v) g h ∧
      Takes q (u ++ a) b v h g'
  | alt p q, u, w, v, g, g' => Takes p u w v g g' ∨ Takes q u w v g g'
  | star _ p, u, w, v, g, g' => Rounds (Takes p) u w v g g'
  | group i p, u, w, v, g, g' =>
      ∃ h, Takes p u w v g h ∧ g' = (i, between u (w ++ v), between (u ++ w) v) :: h

/-! ## Runs -/

variable {α : Type}

theorem rounds_eq_some {greedy : Bool} {p : Pattern}
    (ih : ∀ (k : Cursor → Groups → Option α) (u x : Text) (g : Groups) (r : α),
      p.run k (between u x) g = some r →
      ∃ w v g', x = w ++ v ∧ Takes p u w v g g' ∧ k (between (u ++ w) v) g' = some r)
    {k : Cursor → Groups → Option α} (fuel u x : Text) (g : Groups) (r : α)
    (h : rounds greedy (fun k' c' g' => run p k' c' g') k fuel (between u x) g = some r) :
    ∃ w v g', x = w ++ v ∧ Rounds (Takes p) u w v g g' ∧ k (between (u ++ w) v) g' = some r := by
  induction fuel generalizing u x g with
  | nil => exact ⟨[], x, g, rfl, .nil, by simpa [rounds] using h⟩
  | cons _ fuel ihf =>
    have hagain : run p (fun c' g' => rounds greedy (fun k' c' g' => run p k' c' g') k fuel c' g')
        (between u x) g = some r →
        ∃ w v g', x = w ++ v ∧ Rounds (Takes p) u w v g g' ∧
          k (between (u ++ w) v) g' = some r := by
      intro hr
      obtain ⟨w, v, h', rfl, hw, hk⟩ := ih _ _ _ _ _ hr
      obtain ⟨w', v', g', rfl, hw', hk'⟩ := ihf _ _ _ hk
      exact ⟨w ++ w', v', g', by simp, .cons hw hw', by simpa using hk'⟩
    have hstop : k (between u x) g = some r →
        ∃ w v g', x = w ++ v ∧ Rounds (Takes p) u w v g g' ∧
          k (between (u ++ w) v) g' = some r := by
      intro hk
      exact ⟨[], x, g, rfl, .nil, by simpa using hk⟩
    simp only [rounds, Option.orElse_eq_or] at h
    split at h
    · rcases Option.or_eq_some_iff.1 h with h | ⟨-, h⟩
      · exact hagain h
      · exact hstop h
    · rcases Option.or_eq_some_iff.1 h with h | ⟨-, h⟩
      · exact hstop h
      · exact hagain h

/-- What a run finds is taken. -/
theorem run_eq_some (p : Pattern) {k : Cursor → Groups → Option α} {u x : Text} {g : Groups} {r : α}
    (h : p.run k (between u x) g = some r) :
    ∃ w v g', x = w ++ v ∧ Takes p u w v g g' ∧ k (between (u ++ w) v) g' = some r := by
  induction p generalizing k u x g r with
  | empty => exact ⟨[], x, g, rfl, ⟨rfl, rfl⟩, by simpa [run] using h⟩
  | one s =>
    cases x with
    | nil => simp [run] at h
    | cons c x =>
      simp only [run, right_between] at h
      split at h
      · rename_i hc
        refine ⟨[c], x, g, rfl, ⟨⟨c, rfl, hc⟩, rfl⟩, ?_⟩
        simpa [between] using h
      · simp at h
  | check a =>
    simp only [run] at h
    split at h
    · rename_i ha
      exact ⟨[], x, g, rfl, ⟨rfl, ha, rfl⟩, by simpa using h⟩
    · simp at h
  | seq p q ihp ihq =>
    obtain ⟨a, v, h', rfl, hp, hk⟩ := ihp h
    obtain ⟨b, v, g', rfl, hq, hk⟩ := ihq hk
    exact ⟨a ++ b, v, g', by simp, ⟨a, b, h', rfl, hp, hq⟩, by simpa using hk⟩
  | alt p q ihp ihq =>
    rw [run, Option.orElse_eq_or, Option.or_eq_some_iff] at h
    rcases h with h | ⟨-, h⟩
    · obtain ⟨w, v, g', hx, hp, hk⟩ := ihp h
      exact ⟨w, v, g', hx, .inl hp, hk⟩
    · obtain ⟨w, v, g', hx, hq, hk⟩ := ihq h
      exact ⟨w, v, g', hx, .inr hq, hk⟩
  | star greedy p ih => exact rounds_eq_some (fun k u x g r h => ih h) _ _ _ _ _ h
  | group i p ih =>
    obtain ⟨w, v, h', rfl, hp, hk⟩ := ih h
    exact ⟨w, v, _, rfl, ⟨h', hp, rfl⟩, hk⟩

theorem rounds_ne_none {greedy : Bool} {p : Pattern}
    (ih : ∀ {u w v : Text} {g g' : Groups} (k : Cursor → Groups → Option α), Takes p u w v g g' →
      (∀ h, k (between (u ++ w) v) h ≠ none) → ∀ h, p.run k (between u (w ++ v)) h ≠ none)
    {u w v : Text} {g g' : Groups} (hw : Rounds (Takes p) u w v g g')
    {k : Cursor → Groups → Option α} (hk : ∀ h, k (between (u ++ w) v) h ≠ none)
    {fuel : Text} (hf : w.length ≤ fuel.length) (h : Groups) :
    rounds greedy (fun k' c' g' => run p k' c' g') k fuel (between u (w ++ v)) h ≠ none := by
  induction hw generalizing fuel h with
  | @nil u v g =>
    have hstop : k (between u v) h ≠ none := by simpa using hk h
    cases fuel with
    | nil => exact hstop
    | cons _ fuel =>
      intro hr
      cases greedy <;> simp only [rounds, Bool.false_eq_true, if_true, if_false, Option.orElse_eq_or,
        Option.or_eq_none_iff, List.nil_append] at hr
      · exact hstop hr.1
      · exact hstop hr.2
  | @cons u w w' v g h' g' hp hr ihr =>
    by_cases hne : w = []
    · -- a round that takes nothing can be left out
      subst hne
      simpa using ihr (by simpa using hk) hf h
    · have hpos : 0 < w.length := List.length_pos_iff.2 hne
      cases fuel with
      | nil =>
        rw [List.length_append, List.length_nil] at hf
        omega
      | cons _ fuel =>
        have hagain := ih (fun c g => rounds greedy (fun k' c' g' => run p k' c' g') k fuel c g) hp
          (fun h => ihr (by simpa using hk) (by simp at hf; omega) h) h
        intro hn
        cases greedy <;> simp only [rounds, Bool.false_eq_true, if_true, if_false, Option.orElse_eq_or,
          Option.or_eq_none_iff, List.append_assoc] at hn
        · exact hagain hn.2
        · exact hagain hn.1

/-- What is taken is found by a run that accepts it with any groups. -/
theorem run_ne_none (p : Pattern) {u w v : Text} {g g' : Groups}
    (k : Cursor → Groups → Option α) (hw : Takes p u w v g g')
    (hk : ∀ h, k (between (u ++ w) v) h ≠ none) (h : Groups) :
    p.run k (between u (w ++ v)) h ≠ none := by
  induction p generalizing u w v g g' k h with
  | empty =>
    obtain ⟨rfl, -⟩ := hw
    simpa [run] using hk h
  | one s =>
    obtain ⟨⟨x, rfl, hx⟩, -⟩ := hw
    simpa [run, hx, between] using hk h
  | check a =>
    obtain ⟨rfl, ha, -⟩ := hw
    simpa [run, ha] using hk h
  | seq p q ihp ihq =>
    obtain ⟨a, b, h', rfl, hp, hq⟩ := hw
    rw [List.append_assoc]
    exact ihp _ hp (fun h => ihq _ hq (by simpa using hk) h) h
  | alt p q ihp ihq =>
    intro hn
    rw [run, Option.orElse_eq_or, Option.or_eq_none_iff] at hn
    rcases hw with hp | hq
    · exact ihp k hp hk h hn.1
    · exact ihq k hq hk h hn.2
  | star greedy p ih =>
    exact rounds_ne_none (fun k hp hk h => ih k hp hk h) hw hk (by simp) h
  | group i p ih =>
    obtain ⟨h', hp, -⟩ := hw
    exact ih (fun c g => k c ((i, between u (w ++ v), c) :: g)) hp (fun h => hk _) h

/-! ## Contexts -/

def checks : Pattern → List Assertion
  | empty | one _ => []
  | check a => [a]
  | seq p q | alt p q => p.checks ++ q.checks
  | star _ p | group _ p => p.checks

/-- A text is taken in another context too, and with other groups, if the conditions of the pattern
hold there at the same places. -/
theorem Takes.congr {p : Pattern} {u w v : Text} {g g' : Groups} (hw : Takes p u w v g g')
    {u' v' : Text} (hc : ∀ a ∈ p.checks, ∀ i j, i ++ j = w →
      a.holds (between (u ++ i) (j ++ v)) = a.holds (between (u' ++ i) (j ++ v'))) (h : Groups) :
    ∃ h', Takes p u' w v' h h' := by
  induction p generalizing u w v g g' u' v' h with
  | empty => exact ⟨h, hw.1, rfl⟩
  | one s => exact ⟨h, hw.1, rfl⟩
  | check a =>
    obtain ⟨rfl, ha, -⟩ := hw
    have hcongr := hc a (by simp [checks]) [] [] rfl
    simp only [List.append_nil, List.nil_append] at hcongr
    exact ⟨h, rfl, by rw [← hcongr, ha], rfl⟩
  | seq p q ihp ihq =>
    obtain ⟨a, b, m, rfl, hp, hq⟩ := hw
    simp only [checks, List.mem_append] at hc
    obtain ⟨m', hp'⟩ : ∃ m', Takes p u' a (b ++ v') h m' := ihp hp (fun c hm i j hij => by
      simpa [← hij] using hc c (.inl hm) i (j ++ b) (by simp [← hij])) h
    obtain ⟨h', hq'⟩ : ∃ h', Takes q (u' ++ a) b v' m' h' := ihq hq (fun c hm i j hij => by
      simpa [← hij] using hc c (.inr hm) (a ++ i) j (by simp [← hij])) m'
    exact ⟨h', a, b, m', rfl, hp', hq'⟩
  | alt p q ihp ihq =>
    simp only [checks, List.mem_append] at hc
    rcases hw with hp | hq
    · obtain ⟨h', hp'⟩ := ihp hp (fun c hm => hc c (.inl hm)) h
      exact ⟨h', .inl hp'⟩
    · obtain ⟨h', hq'⟩ := ihq hq (fun c hm => hc c (.inr hm)) h
      exact ⟨h', .inr hq'⟩
  | star greedy p ih =>
    rw [checks] at hc
    simp only [Takes] at hw ⊢
    induction hw generalizing u' v' h with
    | nil => exact ⟨h, .nil⟩
    | @cons u a b v g m g' hp hr ihr =>
      obtain ⟨m', hp'⟩ : ∃ m', Takes p u' a (b ++ v') h m' := ih hp (fun c hm i j hij => by
        simpa [← hij] using hc c hm i (j ++ b) (by simp [← hij])) h
      obtain ⟨h', hr'⟩ : ∃ h', Rounds (Takes p) (u' ++ a) b v' m' h' := ihr (fun c hm i j hij => by
        simpa [← hij] using hc c hm (a ++ i) j (by simp [← hij])) m'
      exact ⟨h', .cons hp' hr'⟩
  | group i p ih =>
    obtain ⟨m, hp, -⟩ := hw
    obtain ⟨h', hp'⟩ := ih hp hc h
    exact ⟨_, h', hp', rfl⟩

/-- `p` takes `w` between `u` and `v`. -/
def Matches (p : Pattern) (u w v : Text) : Prop := ∃ g g', Takes p u w v g g'

theorem Matches.takes {p : Pattern} {u w v : Text} (h : Matches p u w v) (g : Groups) :
    ∃ g', Takes p u w v g g' := by
  obtain ⟨_, _, h⟩ := h
  exact h.congr (fun _ _ _ _ _ => rfl) g

/-! ## Matches of the parts of a pattern -/

@[simp] theorem matches_empty {u w v : Text} : Matches empty u w v ↔ w = [] := by
  simp [Matches, Takes]

@[simp] theorem matches_one {s : CharSet} {u w v : Text} :
    Matches (one s) u w v ↔ ∃ x, w = [x] ∧ s.contains x = true := by
  simp [Matches, Takes]

@[simp] theorem matches_check {a : Assertion} {u w v : Text} :
    Matches (check a) u w v ↔ w = [] ∧ a.holds (between u v) = true := by
  simp [Matches, Takes]

theorem matches_seq {p q : Pattern} {u w v : Text} :
    Matches (p ++ q) u w v ↔
      ∃ a b, w = a ++ b ∧ Matches p u a (b ++ v) ∧ Matches q (u ++ a) b v := by
  constructor
  · rintro ⟨g, g', a, b, h, hw, hp, hq⟩
    exact ⟨a, b, hw, ⟨_, _, hp⟩, ⟨_, _, hq⟩⟩
  · rintro ⟨a, b, hw, ⟨g, h, hp⟩, hq⟩
    obtain ⟨g', hq⟩ := hq.takes h
    exact ⟨g, g', a, b, h, hw, hp, hq⟩

@[simp] theorem matches_alt {p q : Pattern} {u w v : Text} :
    Matches (alt p q) u w v ↔ Matches p u w v ∨ Matches q u w v := by
  constructor
  · rintro ⟨g, g', h | h⟩
    · exact .inl ⟨g, g', h⟩
    · exact .inr ⟨g, g', h⟩
  · rintro (⟨g, g', h⟩ | ⟨g, g', h⟩)
    · exact ⟨g, g', .inl h⟩
    · exact ⟨g, g', .inr h⟩

@[simp] theorem matches_group {i : Nat} {p : Pattern} {u w v : Text} :
    Matches (group i p) u w v ↔ Matches p u w v := by
  constructor
  · rintro ⟨g, g', h, hp, -⟩
    exact ⟨g, h, hp⟩
  · rintro ⟨g, h, hp⟩
    exact ⟨g, _, h, hp, rfl⟩

@[simp] theorem matches_opt {p : Pattern} {u w v : Text} :
    Matches (opt p) u w v ↔ Matches p u w v ∨ w = [] := by
  simp [opt]

theorem takes_star_one {greedy : Bool} {s : CharSet} {u w v : Text} {g g' : Groups} :
    Takes (star greedy (one s)) u w v g g' ↔ (∀ c ∈ w, s.contains c = true) ∧ g' = g := by
  constructor
  · intro h
    simp only [Takes] at h
    induction h with
    | nil => simp
    | cons hp hr ih =>
      obtain ⟨⟨x, rfl, hx⟩, rfl⟩ := hp
      simpa [hx] using ih
  · rintro ⟨h, rfl⟩
    simp only [Takes]
    induction w generalizing u with
    | nil => exact .nil
    | cons c w ih =>
      simp only [List.mem_cons, forall_eq_or_imp] at h
      exact .cons (w := [c]) ⟨⟨c, rfl, h.1⟩, rfl⟩ (ih h.2)

@[simp] theorem matches_many_one {s : CharSet} {u w v : Text} :
    Matches (many (one s)) u w v ↔ ∀ c ∈ w, s.contains c = true := by
  simp [Matches, many, takes_star_one]

@[simp] theorem matches_many1_one {s : CharSet} {u w v : Text} :
    Matches (many1 (one s)) u w v ↔ w ≠ [] ∧ ∀ c ∈ w, s.contains c = true := by
  have h : many1 (one s) = one s ++ many (one s) := rfl
  rw [h, matches_seq]
  constructor
  · rintro ⟨a, b, rfl, ha, hb⟩
    obtain ⟨x, rfl, hx⟩ := matches_one.1 ha
    exact ⟨by simp, by simpa [hx] using hb⟩
  · rintro ⟨hne, hw⟩
    cases w with
    | nil => exact absurd rfl hne
    | cons c w =>
      simp only [List.mem_cons, forall_eq_or_imp] at hw
      exact ⟨[c], w, rfl, by simp [hw.1], by simpa using hw.2⟩

theorem matches_blanks1 {u w v : Text} :
    Matches blanks1 u w v ↔ w ≠ [] ∧ ∀ c ∈ w, Unicode.isBlank c = true := by
  rw [blanks1, matches_many1_one]
  rfl

@[simp] theorem matches_sym {c : Char} {u w v : Text} : Matches (sym c) u w v ↔ w = [c] := by
  simp [sym, CharSet.contains_single]

@[simp] theorem matches_oneOf {ps : List Pattern} {u w v : Text} :
    Matches (oneOf ps) u w v ↔ ∃ p ∈ ps, Matches p u w v := by
  fun_induction oneOf ps with
  | case1 => simp [CharSet.contains_empty]
  | case2 p => simp
  | case3 p ps _ ih => simp [ih]

/-! ## Words -/

/-- `w` is `t` with its letters in either case. -/
def Spelled (t w : Text) : Prop := List.Forall₂ (fun c d => d ∈ Unicode.caseVariants c) t w

theorem spelled_self (t : Text) : Spelled t t := List.forall₂_same.2 fun c _ => Unicode.self_mem_caseVariants c

@[simp] theorem matches_word {t u w v : Text} : Matches (word t) u w v ↔ Spelled t w := by
  fun_induction word t generalizing u w with
  | case1 => simp [Spelled]
  | case2 c => simp [Spelled, CharSet.contains_caseless, List.forall₂_cons_left_iff, and_comm]
  | case3 c t _ ih =>
    have h : seq (one (.caseless c)) (word t) = one (.caseless c) ++ word t := rfl
    rw [h, matches_seq]
    simp only [matches_one, CharSet.contains_caseless, ih, Spelled, List.forall₂_cons_left_iff]
    constructor
    · rintro ⟨a, b, rfl, ⟨x, rfl, hx⟩, hb⟩
      exact ⟨x, b, hx, hb, rfl⟩
    · rintro ⟨x, b, hx, hb, rfl⟩
      exact ⟨[x], b, rfl, ⟨x, rfl, hx⟩, hb⟩

instance (t w : Text) : Decidable (Spelled t w) :=
  inferInstanceAs (Decidable (List.Forall₂ (fun c d => d ∈ Unicode.caseVariants c) t w))

def endsInWord (u : Text) : Bool := Assertion.next .word u.reverse

def beginsInWord (v : Text) : Bool := Assertion.next .word v

@[simp] theorem endsInWord_nil : endsInWord [] = false := rfl

@[simp] theorem beginsInWord_nil : beginsInWord [] = false := rfl

@[simp] theorem beginsInWord_cons (c : Char) (v : Text) :
    beginsInWord (c :: v) = Unicode.isWordChar c := rfl

@[simp] theorem endsInWord_singleton (c : Char) : endsInWord [c] = Unicode.isWordChar c := rfl

theorem endsInWord_append {w : Text} (hw : w ≠ []) (u : Text) :
    endsInWord (u ++ w) = endsInWord w := by
  rw [endsInWord, endsInWord, List.reverse_append]
  cases h : w.reverse with
  | nil => exact absurd (List.reverse_eq_nil_iff.1 h) hw
  | cons c r => rfl

theorem endsInWord_of_all {w : Text} (hne : w ≠ []) (hw : ∀ c ∈ w, Unicode.isWordChar c = true) :
    endsInWord w = true := by
  rw [← List.dropLast_concat_getLast hne, endsInWord_append (by simp), endsInWord_singleton]
  exact hw _ (List.getLast_mem hne)

theorem beginsInWord_append {w : Text} (hw : w ≠ []) (v : Text) :
    beginsInWord (w ++ v) = beginsInWord w := by
  cases w with
  | nil => exact absurd rfl hw
  | cons c w => rfl

@[simp] theorem matches_edge {u w v : Text} :
    Matches edge u w v ↔ w = [] ∧ endsInWord u ≠ beginsInWord v := by
  simp [edge, Assertion.holds, endsInWord, beginsInWord]

theorem matches_textStart {u w v : Text} : Matches textStart u w v ↔ w = [] ∧ u = [] := by
  simp [textStart, Assertion.holds]

theorem matches_textEnd {u w v : Text} : Matches textEnd u w v ↔ w = [] ∧ v = [] := by
  simp [textEnd, Assertion.holds]

/-- Whether a text can be the name of a function or a keyword. -/
def isName (t : Text) : Bool := !t.isEmpty && t.all fun c => c.isAlphanum || c == '_'

theorem toNat_lt_of_isNameChar {c : Char} (hc : (c.isAlphanum || c == '_') = true) :
    c.toNat < 128 := by
  replace hc : (decide (c.val ≥ 65 ∧ c.val ≤ 90) || (decide (c.val ≥ 97) && decide (c.val ≤ 122)) ||
      (decide (c.val ≥ 48) && decide (c.val ≤ 57)) || c == '_') = true := hc
  simp only [Bool.or_eq_true, Bool.and_eq_true, decide_eq_true_eq, beq_iff_eq,
    UInt32.le_iff_toNat_le] at hc
  rcases hc with ((hc | hc) | hc) | rfl
  · exact Nat.lt_of_le_of_lt (show c.toNat ≤ 90 from hc.2) (by decide)
  · exact Nat.lt_of_le_of_lt (show c.toNat ≤ 122 from hc.2) (by decide)
  · exact Nat.lt_of_le_of_lt (show c.toNat ≤ 57 from hc.2) (by decide)
  · decide

theorem isWordChar_of_mem_caseVariants {c d : Char} (hc : (c.isAlphanum || c == '_') = true)
    (hd : d ∈ Unicode.caseVariants c) : Unicode.isWordChar d = true := by
  have key : ∀ c : Char, c.toNat < 128 → (c.isAlphanum || c == '_') = true →
      (Unicode.caseVariants c).all Unicode.isWordChar = true := of_ascii (by decide +kernel)
  exact List.all_eq_true.1 (key c (toNat_lt_of_isNameChar hc) hc) d hd

/-- A name in either case is made of word characters. -/
theorem Spelled.isWordChar {t w : Text} (h : Spelled t w) (ht : isName t = true) :
    ∀ d ∈ w, Unicode.isWordChar d = true := by
  simp only [isName, Bool.and_eq_true, List.all_eq_true] at ht
  replace ht := ht.2
  induction h with
  | nil => simp
  | @cons c d t w hd hw ih =>
    intro e he
    rcases List.mem_cons.1 he with rfl | he
    · exact isWordChar_of_mem_caseVariants (ht c (by simp)) hd
    · exact ih (fun c hc => ht c (by simp [hc])) e he

theorem Spelled.ne_nil {t w : Text} (h : Spelled t w) (ht : isName t = true) : w ≠ [] := by
  rintro rfl
  rw [Spelled, List.forall₂_nil_right_iff] at h
  simp [isName, h] at ht

theorem Spelled.beginsInWord {t w : Text} (h : Spelled t w) (ht : isName t = true) (v : Text) :
    beginsInWord (w ++ v) = true := by
  have hw := h.isWordChar ht
  cases w with
  | nil => exact absurd rfl (h.ne_nil ht)
  | cons c w => exact hw c (by simp)

theorem Spelled.endsInWord {t w : Text} (h : Spelled t w) (ht : isName t = true) (u : Text) :
    endsInWord (u ++ w) = true := by
  rw [endsInWord_append (h.ne_nil ht)]
  exact endsInWord_of_all (h.ne_nil ht) (h.isWordChar ht)

/-- What a pattern takes between two edges, if it begins and ends in words, stands between two
places at which no word goes on. -/
theorem matches_between_edges {p : Pattern}
    (hp : ∀ u w v, Matches p u w v → beginsInWord w = true ∧ endsInWord w = true) {u w v : Text} :
    Matches (edge ++ p ++ edge) u w v ↔
      Matches p u w v ∧ endsInWord u = false ∧ beginsInWord v = false := by
  have hne : ∀ {w : Text}, beginsInWord w = true → w ≠ [] := by
    rintro w hw rfl
    simp at hw
  simp only [matches_seq, matches_edge]
  constructor
  · rintro ⟨a, b, rfl, ⟨a', b', rfl, ⟨rfl, hl⟩, hw⟩, ⟨rfl, hr⟩⟩
    simp only [List.nil_append, List.append_nil] at *
    obtain ⟨hb, he⟩ := hp _ _ _ hw
    rw [beginsInWord_append (hne hb), hb] at hl
    rw [endsInWord_append (hne hb), he] at hr
    exact ⟨hw, by simpa using hl, by simpa using Ne.symm hr⟩
  · rintro ⟨hw, hl, hr⟩
    obtain ⟨hb, he⟩ := hp _ _ _ hw
    refine ⟨w, [], by simp, ⟨[], w, rfl, ⟨rfl, ?_⟩, by simpa using hw⟩, rfl, ?_⟩
    · simp [beginsInWord_append (hne hb), hb, hl]
    · simp [endsInWord_append (hne hb), he, hr]

theorem Matches.of_between_edges {p : Pattern} {u w v : Text} (h : Matches (edge ++ p ++ edge) u w v) :
    Matches p u w v := by
  simp only [matches_seq, matches_edge] at h
  obtain ⟨a, b, rfl, ⟨a', b', rfl, ⟨rfl, -⟩, hw⟩, ⟨rfl, -⟩⟩ := h
  simpa using hw

/-- A keyword stands between two places at which no word goes on. -/
theorem matches_keyword {t u w v : Text} (ht : isName t = true) :
    Matches (keyword t) u w v ↔
      Spelled t w ∧ endsInWord u = false ∧ beginsInWord v = false := by
  rw [keyword, matches_between_edges, matches_word]
  intro u w v hw
  rw [matches_word] at hw
  exact ⟨by simpa using hw.beginsInWord ht [], by simpa using hw.endsInWord ht []⟩

/-! ## Matches -/

theorem matchAt?_eq_some {p : Pattern} {u x : Text} {m : Match}
    (h : p.matchAt? (between u x) = some m) :
    ∃ w v, x = w ++ v ∧ m.first = between u (w ++ v) ∧ m.last = between (u ++ w) v ∧
      Takes p u w v [] m.groups := by
  obtain ⟨w, v, g', rfl, hw, hk⟩ := run_eq_some p h
  simp only [Option.some.injEq] at hk
  subst hk
  exact ⟨w, v, rfl, rfl, rfl, hw⟩

/-- There is a match just where a text is taken. -/
theorem isSome_matchAt?_iff {p : Pattern} {u x : Text} :
    (p.matchAt? (between u x)).isSome ↔ ∃ w v g g', x = w ++ v ∧ Takes p u w v g g' := by
  constructor
  · intro h
    obtain ⟨m, hm⟩ := Option.isSome_iff_exists.1 h
    obtain ⟨w, v, hx, -, -, hw⟩ := matchAt?_eq_some hm
    exact ⟨w, v, _, _, hx, hw⟩
  · rintro ⟨w, v, g, g', rfl, hw⟩
    exact Option.isSome_iff_ne_none.2 (run_ne_none p _ hw (fun _ => by simp) [])

end Pattern
end DialectBridge
