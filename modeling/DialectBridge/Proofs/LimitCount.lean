import DialectBridge.Proofs.BlockCuts
import DialectBridge.Proofs.Nesting
import DialectBridge.Proofs.TopClause
/-!
# Counting row limits

How often a block asks for `ROWNUM <= n` outside of its parentheses, read off its tokens. Lists of
tokens can be counted apart unless a limit could begin in the one and end in the other
(`countLimits_append`). A limit that is put in on the surface of a block counts once
(`countLimits_insert`); conditions that are put in parentheses do not count any more
(`countLimits_enclose`).
-/
namespace DialectBridge.ToOracle
open Pattern

def IsRownum (p : Text) : Prop := Spelled "ROWNUM".toList p

instance (p : Text) : Decidable (IsRownum p) :=
  inferInstanceAs (Decidable (Spelled "ROWNUM".toList p))

/-- Whether some tokens begin with `ROWNUM <= n`. -/
def startsLimit (n : Text) : List Text → Bool
  | r :: s :: t :: k :: _ =>
    decide (IsRownum r) && s == ['<'] && t == ['='] && k == n
  | _ => false

/-- The number of times that `ROWNUM <= n` stands in some tokens. -/
def countLimits (n : Text) : List Text → Nat
  | [] => 0
  | p :: ps => (if startsLimit n (p :: ps) then 1 else 0) + countLimits n ps

/-- Whether no limit begins at the end of some tokens. -/
def EndsNoLimit (l : List Text) : Prop :=
  ∀ p ∈ l.getLast?, ¬ IsRownum p ∧ p ≠ ['<'] ∧ p ≠ ['=']

/-- Whether no limit goes on at the start of some tokens. -/
def ContinuesNoLimit (n : Text) (r : List Text) : Prop :=
  ∀ p ∈ r.head?, p ≠ ['<'] ∧ p ≠ ['='] ∧ p ≠ n

theorem startsLimit_append {n p : Text} {l r : List Text}
    (h : EndsNoLimit (p :: l) ∨ ContinuesNoLimit n r) :
    startsLimit n (p :: l ++ r) = startsLimit n (p :: l) := by
  match l, r with
  | _ :: _ :: _ :: _, _ => rfl
  | [], [] | [_], [] | [_, _], [] => rfl
  | [], s :: r =>
    have hfalse : startsLimit n (p :: s :: r) = false := by
      match r with
      | [] | [_] => rfl
      | t :: k :: r =>
        rcases h with h | h
        · have := (h p rfl).1
          simp [startsLimit, this]
        · have := (h s rfl).1
          simp [startsLimit, this]
    exact hfalse
  | [s], t :: r =>
    have hfalse : startsLimit n (p :: s :: t :: r) = false := by
      match r with
      | [] => rfl
      | k :: r =>
        rcases h with h | h
        · have := (h s rfl).2.1
          simp [startsLimit, this]
        · have := (h t rfl).2.1
          simp [startsLimit, this]
    exact hfalse
  | [s, t], k :: r =>
    have hfalse : startsLimit n (p :: s :: t :: k :: r) = false := by
      rcases h with h | h
      · have := (h t rfl).2.2
        simp [startsLimit, this]
      · have := (h k rfl).2.2
        simp [startsLimit, this]
    exact hfalse

theorem countLimits_cons_of_not {n p : Text} (h : ¬ IsRownum p) (ps : List Text) :
    countLimits n (p :: ps) = countLimits n ps := by
  have hfalse : startsLimit n (p :: ps) = false := by
    match ps with
    | [] | [_] | [_, _] => rfl
    | _ :: _ :: _ :: _ => simp [startsLimit, h]
  simp [countLimits, hfalse]

/-- Tokens can be counted apart where no limit goes on from the one side to the other. -/
theorem countLimits_append {n : Text} {l r : List Text}
    (h : EndsNoLimit l ∨ ContinuesNoLimit n r) :
    countLimits n (l ++ r) = countLimits n l + countLimits n r := by
  induction l with
  | nil => simp [countLimits]
  | cons p l ih =>
    have h' : EndsNoLimit l ∨ ContinuesNoLimit n r := by
      refine h.imp (fun h q hq => h q ?_) id
      cases l with
      | nil => simp at hq
      | cons a l => rwa [List.getLast?_cons_cons]
    have hstart := startsLimit_append (p := p) (l := l) (r := r) h
    rw [List.cons_append] at hstart ⊢
    rw [countLimits, countLimits, hstart, ih h', Nat.add_assoc]

/-! ## Numerals -/

theorem IsNumeral.head {n : Text} (h : IsNumeral n) {c : Char} {t : Text} (hn : n = c :: t) :
    Unicode.isDigit c = true := h.2 c (by simp [hn])

theorem IsRownum.not_isNumeral {p : Text} (h : IsRownum p) : ¬ IsNumeral p := by
  have key : (Unicode.caseVariants 'R').all (fun c => !Unicode.isDigit c) = true := by decide
  intro hp
  have h : Spelled ('R' :: "OWNUM".toList) p := h
  cases h with
  | cons hc _ =>
    have := List.all_eq_true.1 key _ hc
    rw [hp.head rfl] at this
    exact absurd this (by decide)

theorem IsNumeral.endsNoLimit {n : Text} (h : IsNumeral n) (l : List Text) :
    EndsNoLimit (l ++ [n]) := by
  intro p hp
  obtain rfl : n = p := by simpa using hp
  refine ⟨fun hs => hs.not_isNumeral h, ?_, ?_⟩ <;>
  · rintro rfl
    exact absurd (h.head rfl) (by decide)

/-- A text goes on no limit if its first character that is not white space cannot. -/
theorem continuesNoLimit_of_head {n t : Text} (hn : IsNumeral n)
    (h : ∀ c ∈ (t.dropWhile Unicode.isBlank).head?, c ≠ '<' ∧ c ≠ '=' ∧ Unicode.isDigit c = false) :
    ContinuesNoLimit n (surface 0 (tokens t)) := by
  have htokens : tokens t = tokens (t.dropWhile Unicode.isBlank) := by
    have hblank : ∀ c ∈ t.takeWhile Unicode.isBlank, Unicode.isBlank c = true :=
      List.all_eq_true.1 List.all_takeWhile
    conv_lhs => rw [← List.takeWhile_append_dropWhile (p := Unicode.isBlank) (l := t)]
    exact tokens_blanks_append hblank _
  rw [htokens]
  cases hd : t.dropWhile Unicode.isBlank with
  | nil => simp [ContinuesNoLimit, surface]
  | cons c u =>
    have hc : Unicode.isBlank c = false := by
      have := List.head?_dropWhile_not Unicode.isBlank t
      rw [hd] at this
      simpa using this
    obtain ⟨h1, h2, h3⟩ := h c (by rw [hd]; rfl)
    obtain ⟨p, ps, hp⟩ := exists_tokens_cons hc u
    rw [hp]
    intro q hq
    obtain rfl : c :: p = q := by
      simp only [surface] at hq
      split at hq
      · simp at hq
      · simpa using hq
    refine ⟨?_, ?_, ?_⟩
    · rintro h
      exact h1 (List.cons.inj h).1
    · rintro h
      exact h2 (List.cons.inj h).1
    · rintro rfl
      rw [hn.head rfl] at h3
      exact absurd h3 (by decide)

/-! ## Changes to a block -/

theorem walk_append_singleton {l : List Text} {p : Text} (h : walk 0 (l ++ [p]) = some 0) :
    surface 0 (l ++ [p]) = surface 0 l ++ [p] := by
  rw [walk_append] at h
  obtain ⟨j, hj, hp⟩ := Option.bind_eq_some_iff.1 h
  obtain ⟨k, hk, hk'⟩ := Option.bind_eq_some_iff.1 hp
  obtain rfl : k = 0 := by simpa using hk'
  rw [surface_append hj]
  simp [surface, hk]

/-- Tokens that ask for a limit once, wherever they are put in. -/
structure IsLimit (n : Text) (x : List Text) : Prop where
  other : ∀ p ∈ x, IsOther p
  count : countLimits n x = 1
  ends : EndsNoLimit x
  continues : ∀ r, ContinuesNoLimit n (x ++ r)
  nest : ∀ d, nest d x.flatten = some d

section
variable {n : Text} {l m r x : List Text}

/-- A limit that is put in on the surface of a block counts once. -/
theorem countLimits_insert (hx : IsLimit n x) (hl : walk 0 l = some 0)
    (hlr : EndsNoLimit (surface 0 l) ∨ ContinuesNoLimit n (surface 0 r)) :
    countLimits n (surface 0 (l ++ (x ++ r))) = countLimits n (surface 0 (l ++ r)) + 1 := by
  rw [surface_insert hl hx.other, surface_append hl, countLimits_append hlr,
    countLimits_append (.inr (hx.continues _)), countLimits_append (.inl hx.ends), hx.count]
  omega

/-- Conditions that are put in parentheses behind a limit do not count any more. -/
theorem countLimits_enclose (hx : IsLimit n x) (hl : walk 0 l = some 0) (hm : walk 0 m = some 0)
    (hend : EndsNoLimit (surface 0 l)) (hr : ContinuesNoLimit n (surface 0 r)) :
    countLimits n (surface 0 (l ++ (x ++ ['('] :: (m ++ [')'] :: r)))) +
        countLimits n (surface 0 m) =
      countLimits n (surface 0 (l ++ (m ++ r))) + 1 := by
  obtain ⟨hwalk, hnone⟩ := surface_succ hm
  have hparens : surface 0 (['('] :: (m ++ [')'] :: r)) = ['('] :: [')'] :: surface 0 r := by
    have hopen : through 0 ['('] = some (0 + 1) := rfl
    have hclose : through (0 + 1) [')'] = some 0 := rfl
    simp only [surface, hopen, surface_append hwalk, hnone, hclose, if_true, true_or, or_true,
      List.nil_append]
  have hends : EndsNoLimit [['('], [')']] := by
    intro p hp
    obtain rfl : [')'] = p := by simpa using hp
    decide
  have hzero : countLimits n [['('], [')']] = 0 := rfl
  rw [surface_insert hl hx.other, hparens, surface_append hl, surface_append hm,
    countLimits_append (.inl hend), countLimits_append (.inl hx.ends), hx.count,
    countLimits_append (.inl hend), countLimits_append (.inr hr)]
  have hsplit : countLimits n (['('] :: [')'] :: surface 0 r) =
      countLimits n [['('], [')']] + countLimits n (surface 0 r) :=
    countLimits_append (l := [['('], [')']]) (.inl hends)
  rw [hsplit, hzero]
  omega

/-- The new parentheses are closed if those of the conditions are. -/
theorem nest_enclose (hx : IsLimit n x) (hm : ∀ d, nest d m.flatten = some d) (d : Nat) :
    nest d (l ++ (x ++ ['('] :: (m ++ [')'] :: r))).flatten = nest d (l ++ (m ++ r)).flatten := by
  rw [nest_flatten_append, nest_flatten_append d l]
  congr 1
  funext i
  rw [nest_flatten_append, hx.nest, Option.bind_some, nest_flatten_append i m, hm, Option.bind_some,
    List.flatten_cons, List.singleton_append, nest_open, nest_flatten_append, hm, Option.bind_some,
    List.flatten_cons, List.singleton_append, nest_close]

/-- A parenthesis that is put in stays open if it is not closed. -/
theorem nest_unclosed (hx : IsLimit n x) {d k : Nat} (h : nest d (l ++ r).flatten = some k) :
    nest d (l ++ (x ++ ['('] :: r)).flatten = some (k + 1) := by
  rw [nest_flatten_append] at h ⊢
  obtain ⟨i, hi, hr⟩ := Option.bind_eq_some_iff.1 h
  rw [hi, Option.bind_some, nest_flatten_append, hx.nest, Option.bind_some, List.flatten_cons,
    List.singleton_append, nest_open]
  exact nest_succ hr

/-! ## Tokens that do not matter -/

/-- What can end a block has no tokens but semicolons. -/
theorem eq_semicolon_of_mem_tokens {t p : Text} (h : ∀ e ∈ t, isBlockEnd e = true)
    (hp : p ∈ tokens t) : p = [';'] := by
  obtain ⟨hmem, hblank⟩ := List.mem_filter.1 hp
  have hsub : ∀ c ∈ p, isBlockEnd c = true := by
    intro c hc
    refine h c ?_
    rw [← flatten_pieces t]
    exact List.mem_flatten.2 ⟨p, hmem, hc⟩
  rcases mem_pieces hmem with ⟨c, rfl⟩ | hword
  · have := hsub c (by simp)
    simp only [isBlockEnd, Bool.or_eq_true, beq_iff_eq] at this
    rcases this with hc | rfl
    · simp [isBlankText, hc] at hblank
    · rfl
  · obtain ⟨c, p, rfl⟩ := List.exists_cons_of_ne_nil (ne_nil_of_mem_pieces hmem)
    have := isWordChar_of_isBlockEnd (hsub c (by simp))
    exact absurd (this.symm.trans (hword c (by simp))) (by decide)

theorem isOther_of_semicolons {e : List Text} (he : ∀ p ∈ e, p = [';']) : ∀ p ∈ e, IsOther p := by
  intro p hp
  rw [he p hp]
  exact isOther_of_ne (by decide) (by decide) (by decide)

theorem surface_semicolons {e : List Text} (he : ∀ p ∈ e, p = [';']) (hl : walk 0 l = some 0)
    (hr : surface 0 r = []) : surface 0 (l ++ (e ++ r)) = surface 0 l ++ e := by
  rw [surface_insert hl (isOther_of_semicolons he), hr, List.append_nil]

theorem continuesNoLimit_semicolons (hn : IsNumeral n) {e : List Text} (he : ∀ p ∈ e, p = [';']) :
    ContinuesNoLimit n e := by
  intro p hp
  rw [he p (List.mem_of_head? hp)]
  refine ⟨by decide, by decide, ?_⟩
  rintro rfl
  exact absurd (hn.head rfl) (by decide)

theorem nest_semicolons {e : List Text} (he : ∀ p ∈ e, p = [';']) (d : Nat) :
    nest d e.flatten = some d := by
  have hchars : ∀ c ∈ e.flatten, c = ';' := by
    intro c hc
    obtain ⟨p, hp, hcp⟩ := List.mem_flatten.1 hc
    rw [he p hp] at hcp
    exact List.mem_singleton.1 hcp
  exact nest_of_not_mem (fun h => absurd (hchars _ h) (by decide))
    (fun h => absurd (hchars _ h) (by decide)) d

/-- Semicolons at the end of a block do not matter. -/
theorem countLimits_semicolons (hn : IsNumeral n) {e : List Text} (he : ∀ p ∈ e, p = [';'])
    (hl : walk 0 l = some 0) (hr : surface 0 r = []) :
    countLimits n (surface 0 (l ++ (e ++ r))) = countLimits n (surface 0 l) := by
  have hzero : countLimits n e = 0 := by
    induction e with
    | nil => rfl
    | cons p e ih =>
      have hp := he p (by simp)
      rw [countLimits_cons_of_not (by rw [hp]; decide), ih fun q hq => he q (by simp [hq])]
  rw [surface_semicolons he hl hr, countLimits_append (.inr (continuesNoLimit_semicolons hn he)),
    hzero, Nat.add_zero]

/-- The quote that is no more shown at the end does not matter. -/
theorem countLimits_hidden (hn : IsNumeral n) {e : List Text}
    (he : e = [] ∨ ∃ q : Quote, e = [[q.char]]) (l : List Text) :
    countLimits n (surface 0 (l ++ e)) = countLimits n (surface 0 l) := by
  rcases he with rfl | ⟨q, rfl⟩
  · rw [List.append_nil]
  · have hother : IsOther [q.char] := by
      cases q <;> exact isOther_of_ne (by decide) (by decide) (by decide)
    have hrownum : ¬ IsRownum [q.char] := by cases q <;> decide
    have hcontinues : ContinuesNoLimit n [[q.char]] := by
      intro p hp
      obtain rfl : [q.char] = p := Option.some.inj hp
      refine ⟨by cases q <;> decide, by cases q <;> decide, ?_⟩
      rintro rfl
      have := hn.head rfl
      cases q <;> exact absurd this (by decide)
    cases hw : walk 0 l with
    | none => rw [surface_append_of_none hw]
    | some k =>
      rw [surface_append hw, surface_other hother]
      split_ifs
      · rw [surface, countLimits_append (.inr hcontinues), countLimits_cons_of_not hrownum]
        rfl
      · rw [surface, List.append_nil]

theorem nest_hidden {e : List Text} (he : e = [] ∨ ∃ q : Quote, e = [[q.char]]) (d : Nat)
    (l : List Text) : nest d (l ++ e).flatten = nest d l.flatten := by
  rcases he with rfl | ⟨q, rfl⟩
  · rw [List.append_nil]
  · have hq : ∀ i, nest i [[q.char]].flatten = some i := by
      intro i
      cases q <;> rfl
    rw [nest_flatten_append]
    cases nest d l.flatten with
    | none => rfl
    | some k => exact hq k

end

/-! ## The texts that are put in -/

def limitTokens (n : Text) : List Text := ["ROWNUM".toList, ['<'], ['='], n]

theorem IsNumeral.isOther {n : Text} (h : IsNumeral n) : IsOther n := by
  refine isOther_of_ne ?_ ?_ ?_
  · rintro rfl
    exact absurd (h.head rfl) (by decide)
  · rintro rfl
    exact absurd (h.head rfl) (by decide)
  · by_contra hset
    rw [Bool.not_eq_false] at hset
    obtain ⟨c, t, rfl⟩ := List.exists_cons_of_ne_nil h.1
    have key : (['U', 'I', 'E', 'M'].flatMap Unicode.caseVariants).all
        (fun c => !Unicode.isDigit c) = true := by decide
    have := List.all_eq_true.1 key c (head_of_isSetOperator hset)
    rw [h.head rfl] at this
    exact absurd this (by decide)

theorem IsNumeral.nest {n : Text} (h : IsNumeral n) (d : Nat) : nest d n = some d :=
  nest_of_isWordChar_or_isBlank (fun c hc => .inl (h.isWordChar c hc)) d

theorem IsNumeral.ne_of_head {n p : Text} (h : IsNumeral n) (hp : p.head?.any Unicode.isDigit = false) :
    p ≠ n := by
  rintro rfl
  obtain ⟨c, t, rfl⟩ := List.exists_cons_of_ne_nil h.1
  simp [h.head rfl] at hp

theorem startsLimit_limitTokens (n : Text) (r : List Text) :
    startsLimit n (limitTokens n ++ r) = true := by
  have hr : IsRownum "ROWNUM".toList := by decide
  simp only [limitTokens, List.cons_append, startsLimit, hr, decide_true, beq_self_eq_true,
    Bool.and_self]

theorem countLimits_limitTokens {n : Text} (hn : IsNumeral n) (r : List Text) :
    countLimits n (limitTokens n ++ r) = 1 + countLimits n r := by
  have hcount : countLimits n (limitTokens n ++ r) = 1 + countLimits n (['<'] :: ['='] :: n :: r) := by
    have := startsLimit_limitTokens n r
    rw [limitTokens, List.cons_append] at this ⊢
    rw [countLimits, if_pos this]
    rfl
  rw [hcount, countLimits_cons_of_not (by decide), countLimits_cons_of_not (by decide),
    countLimits_cons_of_not fun h => h.not_isNumeral hn]

theorem nest_limitTokens {n : Text} (hn : IsNumeral n) (d : Nat) :
    nest d (limitTokens n).flatten = some d := by
  have hflat : (limitTokens n).flatten = "ROWNUM<=".toList ++ n := by
    simp [limitTokens]
  rw [hflat, nest_append]
  exact hn.nest d

theorem isOther_of_mem_limitTokens {n : Text} (hn : IsNumeral n) : ∀ p ∈ limitTokens n, IsOther p := by
  intro p hp
  simp only [limitTokens, List.mem_cons, List.not_mem_nil, or_false] at hp
  rcases hp with rfl | rfl | rfl | rfl
  · exact isOther_of_ne (by decide) (by decide) (by decide)
  · exact isOther_of_ne (by decide) (by decide) (by decide)
  · exact isOther_of_ne (by decide) (by decide) (by decide)
  · exact hn.isOther

/-- What is put in before conditions. -/
theorem isLimit_and {n : Text} (hn : IsNumeral n) :
    IsLimit n (limitTokens n ++ ["AND".toList]) where
  other := by
    intro p hp
    rcases List.mem_append.1 hp with hp | hp
    · exact isOther_of_mem_limitTokens hn p hp
    · obtain rfl := List.mem_singleton.1 hp
      exact isOther_of_ne (by decide) (by decide) (by decide)
  count := by
    rw [countLimits_limitTokens hn]
    rfl
  ends := by
    intro p hp
    obtain rfl : "AND".toList = p := by
      rw [List.getLast?_append] at hp
      exact Option.some.inj hp
    decide
  continues := by
    intro r p hp
    obtain rfl : "ROWNUM".toList = p := Option.some.inj hp
    exact ⟨by decide, by decide, hn.ne_of_head (by decide)⟩
  nest := by
    intro d
    rw [List.flatten_append, nest_append, nest_limitTokens hn]
    rfl

/-- What is put in where there is no condition yet. -/
theorem isLimit_where {n : Text} (hn : IsNumeral n) : IsLimit n ("WHERE".toList :: limitTokens n) where
  other := by
    intro p hp
    rcases List.mem_cons.1 hp with rfl | hp
    · exact isOther_of_ne (by decide) (by decide) (by decide)
    · exact isOther_of_mem_limitTokens hn p hp
  count := by
    rw [countLimits_cons_of_not (by decide), ← List.append_nil (limitTokens n),
      countLimits_limitTokens hn]
    rfl
  ends := hn.endsNoLimit ["WHERE".toList, "ROWNUM".toList, ['<'], ['=']]
  continues := by
    intro r p hp
    obtain rfl : "WHERE".toList = p := Option.some.inj hp
    exact ⟨by decide, by decide, hn.ne_of_head (by decide)⟩
  nest := by
    intro d
    rw [List.flatten_cons, nest_append]
    exact nest_limitTokens hn d

end DialectBridge.ToOracle
