import DialectBridge.Proofs.Finding
/-!
# Captures

What a match tells besides the place where it starts: it has a least length (`Takes.minLength_le`), a part
without groups leaves the groups alone (`Takes.groups_eq`), a group holds the text between its two places
(`Match.groupD_eq`), and white space at the end of a pattern is taken as far as it goes
(`exists_of_matchAt?_many1`).
-/
namespace DialectBridge.Pattern
open Cursor

def groupless : Pattern → Bool
  | empty | one _ | check _ => true
  | seq p q | alt p q => p.groupless && q.groupless
  | star _ p => p.groupless
  | group _ _ => false

/-- What remembers nothing leaves the groups alone. -/
theorem Takes.groups_eq {p : Pattern} (hp : p.groupless = true) {u w v : Text} {g g' : Groups}
    (h : Takes p u w v g g') : g' = g := by
  induction p generalizing u w v g g' with
  | empty => exact h.2
  | one s => exact h.2
  | check a => exact h.2.2
  | seq p q ihp ihq =>
    rw [groupless, Bool.and_eq_true] at hp
    obtain ⟨a, b, m, rfl, h1, h2⟩ := h
    rw [ihq hp.2 h2, ihp hp.1 h1]
  | alt p q ihp ihq =>
    rw [groupless, Bool.and_eq_true] at hp
    rcases h with h | h
    · exact ihp hp.1 h
    · exact ihq hp.2 h
  | star greedy p ih =>
    simp only [Takes] at h
    induction h with
    | nil => rfl
    | cons h1 _ ihr => rw [ihr, ih hp h1]
  | group i p => simp [groupless] at hp

/-- The sets of characters that a pattern is built from. -/
def charSets : Pattern → List CharSet
  | empty | check _ => []
  | one s => [s]
  | seq p q | alt p q => p.charSets ++ q.charSets
  | star _ p | group _ p => p.charSets

/-- Every character that a pattern takes is in one of its sets. -/
theorem Takes.forall_mem {P : Char → Prop} {p : Pattern} (hp : ∀ s ∈ p.charSets, ∀ c, s.contains c = true → P c)
    {u w v : Text} {g g' : Groups} (h : Takes p u w v g g') : ∀ c ∈ w, P c := by
  induction p generalizing u w v g g' with
  | empty => simp [h.1]
  | one s =>
    obtain ⟨⟨x, rfl, hx⟩, -⟩ := h
    simpa using hp s (by simp [charSets]) x hx
  | check a => simp [h.1]
  | seq p q ihp ihq =>
    obtain ⟨a, b, m, rfl, h1, h2⟩ := h
    intro c hc
    rcases List.mem_append.1 hc with hc | hc
    · exact ihp (fun s hs => hp s (List.mem_append_left _ hs)) h1 c hc
    · exact ihq (fun s hs => hp s (List.mem_append_right _ hs)) h2 c hc
  | alt p q ihp ihq =>
    rcases h with h | h
    · exact ihp (fun s hs => hp s (List.mem_append_left _ hs)) h
    · exact ihq (fun s hs => hp s (List.mem_append_right _ hs)) h
  | star greedy p ih =>
    simp only [Takes] at h
    induction h with
    | nil => simp
    | cons h1 _ ihr => exact fun c hc => (List.mem_append.1 hc).elim (ih hp h1 c) (ihr c)
  | group i p ih =>
    obtain ⟨g₁, h, -⟩ := h
    exact ih hp h

def minLength : Pattern → Nat
  | empty | check _ | star _ _ => 0
  | one _ => 1
  | seq p q => p.minLength + q.minLength
  | alt p q => min p.minLength q.minLength
  | group _ p => p.minLength

theorem Takes.minLength_le {p : Pattern} {u w v : Text} {g g' : Groups} (h : Takes p u w v g g') :
    p.minLength ≤ w.length := by
  induction p generalizing u w v g g' with
  | empty | check _ | star _ _ _ => exact Nat.zero_le _
  | one s =>
    obtain ⟨⟨x, rfl, -⟩, -⟩ := h
    exact Nat.le_refl 1
  | seq p q ihp ihq =>
    obtain ⟨a, b, m, rfl, hp, hq⟩ := h
    rw [List.length_append]
    exact Nat.add_le_add (ihp hp) (ihq hq)
  | alt p q ihp ihq =>
    exact h.elim (fun h => Nat.le_trans (Nat.min_le_left _ _) (ihp h))
      fun h => Nat.le_trans (Nat.min_le_right _ _) (ihq h)
  | group i p ih =>
    obtain ⟨m, hp, -⟩ := h
    exact ih hp

theorem takes_edge {u w v : Text} {g g' : Groups} (h : Takes edge u w v g g') :
    (w = [] ∧ endsInWord u ≠ beginsInWord v) ∧ g' = g :=
  ⟨matches_edge.1 ⟨_, _, h⟩, h.groups_eq rfl⟩

theorem takes_seq_assoc {p q r : Pattern} {u w v : Text} {g g' : Groups} :
    Takes (p ++ q ++ r) u w v g g' ↔ Takes (p ++ (q ++ r)) u w v g g' := by
  constructor
  · rintro ⟨w, c, g₁, rfl, ⟨a, b, g₂, rfl, ha, hb⟩, hc⟩
    exact ⟨a, b ++ c, g₂, by simp, by simpa using ha, b, c, g₁, rfl, hb, by simpa using hc⟩
  · rintro ⟨a, w, g₁, rfl, ha, b, c, g₂, rfl, hb, hc⟩
    exact ⟨a ++ b, c, g₂, by simp, ⟨a, b, g₁, rfl, by simpa using ha, hb⟩, by simpa using hc⟩

theorem groupless_word (t : Text) : (word t).groupless = true := by
  fun_induction word t with
  | case1 => rfl
  | case2 c => rfl
  | case3 c t _ ih => rw [groupless, ih]; rfl

theorem takes_word {t u w v : Text} {g g' : Groups} (h : Takes (word t) u w v g g') :
    Spelled t w ∧ g' = g :=
  ⟨matches_word.1 ⟨_, _, h⟩, h.groups_eq (groupless_word t)⟩

theorem takes_blanks {u w v : Text} {g g' : Groups} (h : Takes blanks u w v g g') :
    (∀ c ∈ w, Unicode.isBlank c = true) ∧ g' = g :=
  ⟨matches_many_one.1 ⟨_, _, h⟩, h.groups_eq rfl⟩

theorem takes_blanks1 {u w v : Text} {g g' : Groups} (h : Takes blanks1 u w v g g') :
    (w ≠ [] ∧ ∀ c ∈ w, Unicode.isBlank c = true) ∧ g' = g :=
  ⟨matches_blanks1.1 ⟨_, _, h⟩, h.groups_eq rfl⟩

theorem takes_digits1 {u w v : Text} {g g' : Groups} (h : Takes digits1 u w v g g') :
    (w ≠ [] ∧ ∀ c ∈ w, CharSet.digit.contains c = true) ∧ g' = g :=
  ⟨matches_many1_one.1 ⟨_, _, h⟩, h.groups_eq rfl⟩

theorem takes_sym {a : Char} {u w v : Text} {g g' : Groups} (h : Takes (sym a) u w v g g') :
    w = [a] ∧ g' = g :=
  ⟨matches_sym.1 ⟨_, _, h⟩, h.groups_eq rfl⟩

variable {α : Type}

theorem run_one_cons {s : CharSet} {k : Cursor → Groups → Option α} {u x : Text} {c : Char}
    {g : Groups} : (one s).run k (between u (c :: x)) g =
      if s.contains c = true then k (between (u ++ [c]) x) g else none := by
  simp only [run, right_between]
  rw [between, Passed.add_of]
  rfl

/-- Rounds of one character go on as long as they can. -/
theorem run_star_one {s : CharSet} {k : Cursor → Groups → Option α} (hk : ∀ c g, k c g ≠ none)
    (u x : Text) (g : Groups) : (star true (one s)).run k (between u x) g =
      k (between (u ++ x.takeWhile s.contains) (x.dropWhile s.contains)) g := by
  have key : ∀ (fuel u x : Text), x.length ≤ fuel.length →
      rounds true (fun k' c' g' => run (one s) k' c' g') k fuel (between u x) g =
        k (between (u ++ x.takeWhile s.contains) (x.dropWhile s.contains)) g := by
    intro fuel
    induction fuel with
    | nil =>
      intro u x hx
      obtain rfl : x = [] := List.length_eq_zero_iff.1 (Nat.le_zero.1 hx)
      rw [rounds, List.takeWhile_nil, List.append_nil, List.dropWhile_nil]
    | cons _ fuel ih =>
      intro u x hx
      rw [rounds, if_pos rfl]
      cases x with
      | nil =>
        rw [List.takeWhile_nil, List.append_nil, List.dropWhile_nil]
        rfl
      | cons c x =>
        by_cases hc : s.contains c = true
        · rw [run_one_cons, if_pos hc, ih _ _ (Nat.le_of_succ_le_succ hx),
            List.takeWhile_cons_of_pos hc, List.dropWhile_cons_of_pos hc, List.append_assoc,
            List.singleton_append]
          cases hr : k (between (u ++ c :: x.takeWhile s.contains) (x.dropWhile s.contains)) g with
          | none => exact absurd hr (hk _ _)
          | some r => rfl
        · rw [run_one_cons, if_neg hc, List.takeWhile_cons_of_neg hc, List.dropWhile_cons_of_neg hc,
            List.append_nil]
          rfl
  exact key x u x (Nat.le_refl _)

/-- Characters at the end of a pattern, one or more, are taken as far as they go. -/
theorem exists_of_matchAt?_many1 {p : Pattern} {s : CharSet} {u x : Text} {m : Match}
    (h : (p ++ many1 (one s)).matchAt? (between u x) = some m) :
    ∃ w b v, x = w ++ (b ++ v) ∧ Takes p u w (b ++ v) [] m.groups ∧ b ≠ [] ∧
      (∀ c ∈ b, s.contains c = true) ∧ (∀ c ∈ v.head?, s.contains c = false) ∧
      m.first = between u x ∧ m.last = between (u ++ (w ++ b)) v := by
  have hseq : (p ++ many1 (one s)).matchAt? (between u x) =
      p.run (fun c g => (one s).run (fun c' g' => (star true (one s)).run
        (fun d g => some (⟨between u x, d, g⟩ : Match)) c' g') c g) (between u x) [] := rfl
  rw [hseq] at h
  obtain ⟨w, t, g, rfl, hw, hrun⟩ := run_eq_some p h
  cases t with
  | nil => exact absurd hrun (fun h => nomatch h)
  | cons c t =>
    rw [run_one_cons] at hrun
    split_ifs at hrun with hc
    rw [run_star_one (fun _ _ => by simp)] at hrun
    simp only [Option.some.injEq] at hrun
    subst hrun
    refine ⟨w, c :: t.takeWhile s.contains, t.dropWhile s.contains, ?_, ?_, by simp, ?_, ?_, rfl, ?_⟩
    · rw [List.cons_append, List.takeWhile_append_dropWhile]
    · rwa [List.cons_append, List.takeWhile_append_dropWhile]
    · intro d hd
      rcases List.mem_cons.1 hd with rfl | hd
      · exact hc
      · exact List.all_eq_true.1 List.all_takeWhile d hd
    · intro d hd
      have := List.head?_dropWhile_not s.contains t
      rw [hd] at this
      simpa using this
    · simp

end DialectBridge.Pattern

namespace DialectBridge
open Cursor

theorem Match.group?_eq_some {m : Match} {i : Nat} (hi : i ≠ 0) {u w v : Text}
    (h : m.groups.lookup i = some (between u (w ++ v), between (u ++ w) v)) : m.group? i = some w := by
  rw [Match.group?, if_neg hi, h]
  exact congrArg some (upTo_between u w v)

/-- What a group holds. -/
theorem Match.groupD_eq {m : Match} {i : Nat} (hi : i ≠ 0) {u w v : Text}
    (h : m.groups.lookup i = some (between u (w ++ v), between (u ++ w) v)) : m.groupD i = w := by
  rw [Match.groupD, Match.group?_eq_some hi h, Option.getD_some]

end DialectBridge
