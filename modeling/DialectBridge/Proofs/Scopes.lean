import DialectBridge.Proofs.Boundaries
import DialectBridge.Proofs.Nesting
import Mathlib.Data.List.Induction
/-!
# Scopes

Three scanners read parentheses: `scopeStart` to the left of a place, `scopeEnd` to the right of it, and
`matchingParen?` to the right of a parenthesis. The first two go past text that closes what it opens
(`unmatchedOpen_of_nest`, `scope_append_of_nest`), the third is the second from behind the parenthesis
(`matchingParen?_append`), and what lies between a place and the start of its scope is such text (`scopeStart_spec`).
So they agree on the scope around a place, and all places of a block at which none of its parentheses is open see the
same block (`scopes_agree`).
-/
namespace DialectBridge
open Pattern Text

variable {a b s t x : Text} {d i k n : Nat}

/-! ## Offsets on either side of a place -/

theorem indexedFrom_append (i : Nat) (a b : Text) :
    indexedFrom i (a ++ b) = indexedFrom i a ++ indexedFrom (i + width a) b := by
  induction a generalizing i with
  | nil => rfl
  | cons c a ih =>
    have hwidth : i + c.utf8Size + width a = i + width (c :: a) := by
      rw [width_cons]
      omega
    rw [List.cons_append, indexedFrom, ih, hwidth]
    rfl

theorem fst_of_mem_indexedFrom {e : Nat × Char} (h : e ∈ indexedFrom i a) : i ≤ e.1 ∧ e.1 < i + width a := by
  induction a generalizing i with
  | nil => simp [indexedFrom] at h
  | cons c a ih =>
    have hpos := c.utf8Size_pos
    rw [width_cons]
    rcases List.mem_cons.1 h with rfl | h
    · exact ⟨Nat.le_refl _, by omega⟩
    · have := ih h
      omega

theorem takeWhile_indexedFrom (i : Nat) (a b : Text) :
    (indexedFrom i (a ++ b)).takeWhile (·.1 < i + width a) = indexedFrom i a := by
  have hlt : ∀ e ∈ indexedFrom i a, decide (e.1 < i + width a) = true := fun e he =>
    decide_eq_true (fst_of_mem_indexedFrom he).2
  rw [indexedFrom_append, List.takeWhile_append_of_pos hlt]
  cases b with
  | nil => simp [indexedFrom]
  | cons c b => simp [indexedFrom]

/-- An offset that cuts a character stands for the place behind it. -/
theorem exists_indexedFrom_cut (i n : Nat) (t : Text) : ∃ a b, t = a ++ b ∧
    (indexedFrom i t).takeWhile (·.1 < n) = indexedFrom i a ∧
    (indexedFrom i t).dropWhile (·.1 < n) = indexedFrom (i + width a) b := by
  induction t generalizing i with
  | nil => exact ⟨[], [], rfl, rfl, rfl⟩
  | cons c t ih =>
    by_cases hi : i < n
    · obtain ⟨a, b, rfl, htake, hdrop⟩ := ih (i + c.utf8Size)
      refine ⟨c :: a, b, rfl, ?_, ?_⟩
      · rw [indexedFrom, List.takeWhile_cons_of_pos (by simpa using hi), htake]
        rfl
      · rw [indexedFrom, List.dropWhile_cons_of_pos (by simpa using hi), hdrop, width_cons, Nat.add_assoc]
    · exact ⟨[], c :: t, rfl, by simp [indexedFrom, hi], by simp [indexedFrom, hi]⟩

/-! ## To the left -/

theorem scopeStart_append (a b : Text) :
    scopeStart (a ++ b) (width a) = Paren.unmatchedOpen 0 (indexedFrom 0 a).reverse := by
  have htake := takeWhile_indexedFrom 0 a b
  rw [Nat.zero_add] at htake
  rw [scopeStart, indexed, htake]

/-- The search for an opening parenthesis goes past text that closes what it opens: the parentheses that are open when
it is read are those that are met when it is read backwards. -/
theorem unmatchedOpen_of_nest (h : nest d s = some k) (i j : Nat) (rest : List (Nat × Char)) :
    Paren.unmatchedOpen (k + j) ((indexedFrom i s).reverse ++ rest) = Paren.unmatchedOpen (d + j) rest := by
  induction s generalizing d i rest with
  | nil =>
    obtain rfl : d = k := by simpa using h
    rfl
  | cons c s ih =>
    rw [nest] at h
    rw [indexedFrom, List.reverse_cons, List.append_assoc, List.singleton_append]
    split_ifs at h with hopen hclose hd
    · rw [ih h, Paren.unmatchedOpen, if_neg (by rw [hopen]; decide), if_pos hopen, if_neg (by omega)]
      congr 1
      omega
    · rw [ih h, Paren.unmatchedOpen, if_pos hclose]
      congr 1
      omega
    · rw [ih h, Paren.unmatchedOpen, if_neg hclose, if_neg hopen]

/-- Where everything is closed again, a scope is as it is where it begins. -/
theorem scopeStart_of_begins (hx : ∀ c ∈ x.getLast?, c = '(') (hs : nest 0 s = some 0) (b : Text) :
    scopeStart (x ++ s ++ b) (width (x ++ s)) = width x := by
  rw [scopeStart_append, indexedFrom_append, List.reverse_append, unmatchedOpen_of_nest hs _ 0]
  rcases List.eq_nil_or_concat x with rfl | ⟨z, c, rfl⟩
  · rfl
  · rw [List.concat_eq_append] at hx ⊢
    obtain rfl : c = '(' := hx c (by simp)
    have hopen : '('.utf8Size = 1 := by decide
    rw [indexedFrom_append, List.reverse_append, indexedFrom, indexedFrom, List.reverse_singleton,
      List.singleton_append, Paren.unmatchedOpen, if_neg (by decide), if_pos rfl, if_pos rfl]
    simp [hopen]

/-- In front of a place at which no parenthesis is open a block begins with the text. -/
theorem scopeStart_of_nest (h : nest 0 a = some 0) (b : Text) : scopeStart (a ++ b) (width a) = 0 :=
  scopeStart_of_begins (x := []) (by simp) h b

/-- The search for an opening parenthesis stops behind one, the text from there on closing all but `n` of the
parentheses that it opens; or it comes to the start of the text, and no more than `n` are open anywhere. -/
theorem unmatchedOpen_cases (n : Nat) (a : Text) :
    (∃ x s, a = x ++ '(' :: s ∧ nest 0 s = some n ∧
      Paren.unmatchedOpen n (indexedFrom 0 a).reverse = width x + 1) ∨
    ((∀ u v, a = u ++ v → depth v ≤ n) ∧ Paren.unmatchedOpen n (indexedFrom 0 a).reverse = 0) := by
  induction a using List.reverseRecOn generalizing n with
  | nil =>
    refine .inr ⟨fun u v huv => ?_, rfl⟩
    obtain ⟨-, rfl⟩ := List.append_eq_nil_iff.1 huv.symm
    simp [depth]
  | append_singleton a c ih =>
    -- what is found in front of `c`, where `k` are open
    have later : ∀ k : Nat, nest k [c] = some n →
        Paren.unmatchedOpen n (indexedFrom 0 (a ++ [c])).reverse = Paren.unmatchedOpen k (indexedFrom 0 a).reverse →
        (∃ x s, a ++ [c] = x ++ '(' :: s ∧ nest 0 s = some n ∧
          Paren.unmatchedOpen n (indexedFrom 0 (a ++ [c])).reverse = width x + 1) ∨
        ((∀ u v, a ++ [c] = u ++ v → depth v ≤ n) ∧
          Paren.unmatchedOpen n (indexedFrom 0 (a ++ [c])).reverse = 0) := by
      intro k hk hsearch
      rw [hsearch]
      rcases ih k with ⟨x, s, rfl, hs, hfound⟩ | ⟨hnone, hfound⟩
      · exact .inl ⟨x, s ++ [c], by simp, by rw [nest_append, hs, Option.bind_some, hk], hfound⟩
      · refine .inr ⟨fun u v huv => ?_, hfound⟩
        have hc := (nest_eq_some hk).1
        rcases List.eq_nil_or_concat v with rfl | ⟨v, e, rfl⟩
        · simp [depth]
        · rw [List.concat_eq_append, ← List.append_assoc] at huv
          obtain ⟨rfl, hce⟩ := List.append_inj' huv rfl
          have := hnone u v rfl
          rw [List.concat_eq_append, depth_append, ← hce]
          omega
    have hreverse : (indexedFrom 0 (a ++ [c])).reverse = (width a, c) :: (indexedFrom 0 a).reverse := by
      rw [indexedFrom_append, Nat.zero_add, List.reverse_append]
      rfl
    rw [hreverse] at later ⊢
    rw [Paren.unmatchedOpen] at later ⊢
    by_cases hclose : c = ')'
    · exact later (n + 1) (by rw [hclose]; rfl) (by rw [if_pos hclose])
    by_cases hopen : c = '('
    · cases n with
      | zero => exact .inl ⟨a, [], by rw [hopen], rfl, by rw [if_neg hclose, if_pos hopen, if_pos rfl]⟩
      | succ n => exact later n (by rw [hopen]; rfl) (by rw [if_neg hclose, if_pos hopen, if_neg (by omega)]; rfl)
    · exact later n (by rw [nest, if_neg hopen, if_neg hclose]; rfl) (by rw [if_neg hclose, if_neg hopen])

/-- A scope begins with the text or behind a parenthesis, and between there and the place everything is closed that is
opened; if it begins with the text, it may be that more is closed. -/
theorem scopeStart_spec (a b : Text) : ∃ x s, a = x ++ s ∧ scopeStart (a ++ b) (width a) = width x ∧
    (∀ c ∈ x.getLast?, c = '(') ∧ (nest 0 s = some 0 ∨ x = [] ∧ ∀ u v, s = u ++ v → depth v ≤ 0) := by
  rw [scopeStart_append]
  rcases unmatchedOpen_cases 0 a with ⟨x, s, rfl, hs, hfound⟩ | ⟨hnone, hfound⟩
  · have hopen : '('.utf8Size = 1 := by decide
    exact ⟨x ++ ['('], s, by simp, by simp [hfound, hopen], by simp, .inl hs⟩
  · exact ⟨[], a, rfl, hfound, by simp, .inr ⟨rfl, hnone⟩⟩

/-- In a well-nested text everything is closed between the start of a scope and its places that is opened there. -/
theorem WellNested.scopeStart_spec (h : WellNested (a ++ b)) : ∃ x s, a = x ++ s ∧
    scopeStart (a ++ b) (width a) = width x ∧ (∀ c ∈ x.getLast?, c = '(') ∧ nest 0 s = some 0 := by
  obtain ⟨x, s, rfl, hstart, hx, hs | ⟨rfl, hs⟩⟩ := DialectBridge.scopeStart_spec a b
  · exact ⟨x, s, rfl, hstart, hx, hs⟩
  · refine ⟨[], s, rfl, hstart, hx, ?_⟩
    obtain ⟨k, hk, -⟩ := Option.bind_eq_some_iff.1 ((nest_append 0 s b).symm.trans (wellNested_iff.1 h))
    have hdepth := (nest_eq_some hk).1
    have := hs [] s rfl
    obtain rfl : k = 0 := by omega
    exact hk

/-- A scope begins with the text or behind a parenthesis, so not in the middle of a word. -/
theorem exists_scopeStart (a b : Text) :
    ∃ x y, a = x ++ y ∧ endsInWord x = false ∧ scopeStart (a ++ b) (width a) = width x := by
  obtain ⟨x, s, rfl, hstart, hx, -⟩ := scopeStart_spec a b
  refine ⟨x, s, rfl, ?_, hstart⟩
  rcases List.eq_nil_or_concat x with rfl | ⟨z, c, rfl⟩
  · rfl
  · rw [List.concat_eq_append] at hx ⊢
    rw [endsInWord_append (by simp), hx c (by simp)]
    decide

/-! ## To the right -/

/-- A scope goes on behind text that closes what it opens. -/
theorem scope_append_of_nest (h : nest d s = some k) (r : Text) : scope d (s ++ r) = s ++ scope k r := by
  induction s generalizing d with
  | nil =>
    obtain rfl : d = k := by simpa using h
    rfl
  | cons c s ih =>
    rw [nest] at h
    rw [List.cons_append, scope]
    split_ifs at h ⊢
    · rw [ih h]; rfl
    · rw [ih h]; rfl
    · rw [ih h]; rfl

/-- A nested text is a scope of its own. -/
theorem scope_of_nest (h : nest d t = some k) : scope d t = t := by
  have := scope_append_of_nest h []
  simpa [scope] using this

/-- Where everything is closed again, a scope ends where it ends for the place it is read from. -/
theorem scopeEnd_of_nest (hs : nest 0 s = some 0) (x b : Text) :
    scopeEnd (x ++ s ++ b) (width (x ++ s)) = scopeEnd (x ++ s ++ b) (width x) := by
  rw [scopeEnd_append, List.append_assoc, scopeEnd_append, scope_append_of_nest hs, width_append, width_append,
    Nat.add_assoc]

/-- A scope is nested, and nothing is open in front of the parenthesis that closes it. -/
theorem exists_nest_scope (n : Nat) (t : Text) : ∃ k rest, t = scope n t ++ rest ∧ nest n (scope n t) = some k ∧
    ∀ c ∈ rest.head?, c = ')' ∧ k = 0 := by
  obtain ⟨rest, ht, hpre, hend⟩ := scope_spec n t
  obtain ⟨k, hk⟩ := Option.ne_none_iff_exists'.1 (nest_ne_none hpre)
  refine ⟨k, rest, ht, hk, fun c hc => ?_⟩
  obtain ⟨hclose, hdepth⟩ := hend c hc
  have := (nest_eq_some hk).1
  exact ⟨hclose, by omega⟩

/-! ## From a parenthesis to its partner -/

/-- The partner of a parenthesis is where the scope behind it ends, unless this is the end of the text. -/
theorem closing?_eq (n i : Nat) (t : Text) :
    Paren.closing? (n + 1) (indexedFrom i t) = if scope n t = t then none else some (i + width (scope n t)) := by
  induction t generalizing n i with
  | nil => rfl
  | cons c t ih =>
    -- what is found behind `c`
    have later : ∀ k, scope n (c :: t) = c :: scope k t →
        Paren.closing? (k + 1) (indexedFrom (i + c.utf8Size) t) =
          if scope n (c :: t) = c :: t then none else some (i + width (scope n (c :: t))) := by
      intro k hscope
      simp only [ih, hscope, List.cons.injEq, true_and, width_cons, Nat.add_assoc]
    rw [indexedFrom, Paren.closing?]
    by_cases hopen : c = '('
    · rw [if_pos hopen]
      exact later (n + 1) (by rw [scope, if_pos hopen])
    rw [if_neg hopen]
    by_cases hclose : c = ')'
    · rw [if_pos hclose]
      cases n with
      | zero => simp [scope, hclose]
      | succ n =>
        rw [if_neg (by omega)]
        exact later n (by rw [scope, if_neg hopen, if_pos hclose, if_neg (by omega)]; rfl)
    · rw [if_neg hclose]
      exact later n (by rw [scope, if_neg hopen, if_neg hclose])

theorem matchingParen?_append (a b : Text) : matchingParen? (a ++ '(' :: b) (width a) =
    if scope 0 b = b then none else some (width a + 1 + width (scope 0 b)) := by
  have hopen : '('.utf8Size = 1 := by decide
  have hdrop := dropWhile_indexedFrom 0 a ('(' :: b)
  rw [Nat.zero_add] at hdrop
  rw [matchingParen?, indexed, hdrop, indexedFrom, Paren.closing?, if_pos rfl, closing?_eq, hopen]

theorem matchingParen?_of_nest {v : Text} (h : nest 0 s = some 0) :
    matchingParen? (a ++ '(' :: (s ++ ')' :: v)) (width a) = some (width (a ++ '(' :: s)) := by
  have hopen : '('.utf8Size = 1 := by decide
  have hscope : scope 0 (s ++ ')' :: v) = s := by
    rw [scope_append_of_nest h]
    simp [scope]
  rw [matchingParen?_append, hscope, if_neg (by simp)]
  simp only [width_append, width_cons, hopen, Nat.add_assoc]

/-- Between a parenthesis and its partner everything is closed that is opened. -/
theorem exists_nest_of_matchingParen? {j : Nat} (h : matchingParen? (a ++ '(' :: b) (width a) = some j) :
    ∃ u v, b = u ++ ')' :: v ∧ j = width (a ++ '(' :: u) ∧ nest 0 u = some 0 := by
  have hopen : '('.utf8Size = 1 := by decide
  obtain ⟨k, rest, hb, hnest, hend⟩ := exists_nest_scope 0 b
  rw [matchingParen?_append] at h
  split_ifs at h with hall
  cases rest with
  | nil => exact absurd (by simpa using hb.symm) hall
  | cons c v =>
    obtain ⟨rfl, rfl⟩ := hend c rfl
    refine ⟨scope 0 b, v, hb, ?_, hnest⟩
    rw [← Option.some.inj h, width_append, width_cons, hopen, Nat.add_assoc]

/-! ## One scope -/

/-- Every offset is in the scope of a place between two characters. -/
theorem exists_place (t : Text) (pos : Nat) : ∃ a b, t = a ++ b ∧ scopeStart t pos = scopeStart t (width a) ∧
    scopeEnd t pos = scopeEnd t (width a) := by
  obtain ⟨a, b, rfl, htake, hdrop⟩ := exists_indexedFrom_cut 0 pos t
  refine ⟨a, b, rfl, ?_, ?_⟩
  · rw [scopeStart_append, scopeStart, indexed, htake]
  · rw [scopeEnd_append, scopeEnd, indexed, hdrop, Nat.zero_add, width_append, unmatchedClose_indexedFrom]

/-- A scope that does not begin with the text begins behind a parenthesis, and ends at its partner or, if it has
none, with the text. -/
theorem matchingParen?_scopeStart (t : Text) (pos : Nat) (h : 0 < scopeStart t pos) :
    slice? t (scopeStart t pos - 1) (scopeStart t pos) = some ['('] ∧
      (matchingParen? t (scopeStart t pos - 1) = some (scopeEnd t pos) ∨
        matchingParen? t (scopeStart t pos - 1) = none ∧ scopeEnd t pos = width t) := by
  obtain ⟨a, b, rfl, hstart, hend⟩ := exists_place t pos
  obtain ⟨x, s, rfl, hstart', hx, hs⟩ := scopeStart_spec a b
  rw [hstart, hstart'] at h
  rw [hstart, hend, hstart']
  rcases List.eq_nil_or_concat x with rfl | ⟨z, c, rfl⟩
  · simp at h
  rw [List.concat_eq_append] at hx hs ⊢
  obtain rfl : c = '(' := hx c (by simp)
  replace hs : nest 0 s = some 0 := hs.resolve_right (by simp)
  have hopen : width ['('] = 1 := by decide
  have hbefore : width (z ++ ['(']) - 1 = width z := by rw [width_append, hopen, Nat.add_sub_cancel]
  have hpartner := matchingParen?_append z (s ++ b)
  simp only [scope_append_of_nest hs, List.append_cancel_left_eq] at hpartner
  have hsplit : z ++ ['('] ++ s ++ b = z ++ '(' :: (s ++ b) := by simp
  rw [hbefore, scopeEnd_append]
  refine ⟨?_, ?_⟩
  · have := slice?_append z ['('] (s ++ b)
    rwa [← width_append, ← List.append_assoc] at this
  · rw [hsplit, hpartner]
    split_ifs with hall
    · exact .inr ⟨rfl, by rw [hall, ← width_append, hsplit]⟩
    · exact .inl (by simp only [width_append, hopen, Nat.add_assoc])

theorem depthBetween?_append (x s b : Text) :
    depthBetween? (x ++ s ++ b) (width x) (width (x ++ s)) = some (depth s) := by
  rw [depthBetween?, width_append, slice?_append]
  rfl

/-- Where as much is closed as is opened since the start of a scope, everything is closed that is opened. -/
theorem nest_of_depth (hle : width s ≤ width (scope 0 (s ++ t))) (hs : depth s = 0) : nest 0 s = some 0 := by
  obtain ⟨k, rest, hsplit, hk, -⟩ := exists_nest_scope 0 (s ++ t)
  obtain ⟨m, hm, -⟩ := exists_of_width_le hsplit hle
  rw [hm, nest_append] at hk
  obtain ⟨j, hj, -⟩ := Option.bind_eq_some_iff.1 hk
  have := (nest_eq_some hj).1
  obtain rfl : j = 0 := by omega
  exact hj

/-- In a well-nested text, the places that see the scope around a place are those between its ends at which none of
its parentheses is open. -/
theorem WellNested.scopes_eq_iff (h : WellNested t) (pos : Nat) {q : Nat} (hq : IsBoundary t q) :
    scopeStart t q = scopeStart t pos ∧ scopeEnd t q = scopeEnd t pos ↔
      scopeStart t pos ≤ q ∧ q ≤ scopeEnd t pos ∧ depthBetween? t (scopeStart t pos) q = some 0 := by
  constructor
  · rintro ⟨hstart, hend⟩
    obtain ⟨a, b, rfl, rfl⟩ := hq
    rw [← hstart, ← hend]
    obtain ⟨x, s, rfl, hstart', -, hs⟩ := h.scopeStart_spec
    rw [hstart', depthBetween?_append, scopeEnd_append, width_append]
    have := (nest_eq_some hs).1
    exact ⟨by omega, by omega, by congr 1; omega⟩
  · rintro ⟨hge, hle, hdepth⟩
    obtain ⟨a, b, rfl, hstart, hend⟩ := exists_place t pos
    obtain ⟨x, s, rfl, hstart', hx, hs⟩ := h.scopeStart_spec
    rw [hend, scopeEnd_of_nest hs] at hle ⊢
    rw [hstart, hstart'] at hge hdepth ⊢
    -- the text up to `q`, read from the start of the scope
    obtain ⟨x', u, v, hsplit, hx', rfl⟩ := exists_cuts ⟨x, s ++ b, by simp, rfl⟩ hq hge
    obtain ⟨rfl, hrest⟩ := append_inj_of_width (by simpa using hsplit) hx'.symm
    rw [← width_append] at hle hdepth ⊢
    rw [hsplit, depthBetween?_append] at hdepth
    rw [hsplit, List.append_assoc, scopeEnd_append, width_append] at hle
    have hu := nest_of_depth (t := v) (by omega) (Option.some.inj hdepth)
    rw [hsplit]
    exact ⟨scopeStart_of_begins hx hu v, scopeEnd_of_nest hu x v⟩

/-- The scanners agree on the scope around a place: it begins with the text or behind a parenthesis, and then it ends at
the partner, if there is one; and in a well-nested text all places that see it are just those at which none of its
parentheses is open. -/
theorem scopes_agree (t : Text) (pos : Nat) :
    (0 < scopeStart t pos →
      slice? t (scopeStart t pos - 1) (scopeStart t pos) = some ['('] ∧
        (matchingParen? t (scopeStart t pos - 1) = some (scopeEnd t pos) ∨
          matchingParen? t (scopeStart t pos - 1) = none ∧ scopeEnd t pos = width t)) ∧
    (WellNested t → ∀ q, IsBoundary t q →
      (scopeStart t q = scopeStart t pos ∧ scopeEnd t q = scopeEnd t pos ↔
        scopeStart t pos ≤ q ∧ q ≤ scopeEnd t pos ∧ depthBetween? t (scopeStart t pos) q = some 0)) :=
  ⟨matchingParen?_scopeStart t pos, fun h _ hq => h.scopes_eq_iff pos hq⟩

/-- The call of `f` stands in the same subquery as the `FROM` behind it. -/
theorem scopes_agree_subquery :
    0 < scopeStart "SELECT (SELECT f(1) FROM t) FROM u".toList 20 ∧
      WellNested "SELECT (SELECT f(1) FROM t) FROM u".toList ∧
      IsBoundary "SELECT (SELECT f(1) FROM t) FROM u".toList 15 ∧
      slice? "SELECT (SELECT f(1) FROM t) FROM u".toList 7 8 = some ['('] ∧
      matchingParen? "SELECT (SELECT f(1) FROM t) FROM u".toList 7 = some 26 ∧
      scopeStart "SELECT (SELECT f(1) FROM t) FROM u".toList 15 = 8 ∧
      scopeEnd "SELECT (SELECT f(1) FROM t) FROM u".toList 15 = 26 := by
  have hstart : scopeStart "SELECT (SELECT f(1) FROM t) FROM u".toList 20 = 8 := by decide +kernel
  have hend : scopeEnd "SELECT (SELECT f(1) FROM t) FROM u".toList 20 = 26 := by decide +kernel
  have hnested : WellNested "SELECT (SELECT f(1) FROM t) FROM u".toList := by decide +kernel
  have hplace : IsBoundary "SELECT (SELECT f(1) FROM t) FROM u".toList 15 :=
    ⟨"SELECT (SELECT ".toList, "f(1) FROM t) FROM u".toList, by decide +kernel, by decide +kernel⟩
  have hdepth : depthBetween? "SELECT (SELECT f(1) FROM t) FROM u".toList 8 15 = some 0 := by decide +kernel
  have hpos : 0 < scopeStart "SELECT (SELECT f(1) FROM t) FROM u".toList 20 := by rw [hstart]; decide
  obtain ⟨hopening, hclosing⟩ := (scopes_agree "SELECT (SELECT f(1) FROM t) FROM u".toList 20).1 hpos
  have hsame := (scopes_agree "SELECT (SELECT f(1) FROM t) FROM u".toList 20).2 hnested 15 hplace
  rw [hstart] at hopening hclosing hsame
  rw [hend] at hclosing hsame
  obtain ⟨hstart', hend'⟩ := hsame.2 ⟨by decide, by decide, hdepth⟩
  exact ⟨hpos, hnested, hplace, hopening, hclosing.resolve_right (by decide +kernel), hstart', hend'⟩

/-- What a search finds in a block outside of all its parentheses is in the scope of the block. -/
theorem WellNested.scopes_of_mem_depthZeroMatches? (h : WellNested t) {pos : Nat} {p : Pattern} {spans : List Span}
    (hspans : depthZeroMatches? t (scopeStart t pos) (scopeEnd t pos) p = some spans) :
    ∀ m ∈ spans, scopeStart t m.start = scopeStart t pos ∧ scopeEnd t m.start = scopeEnd t pos := by
  intro m hm
  obtain ⟨y, hslice, rfl⟩ := Option.map_eq_some_iff.1 hspans
  obtain ⟨m', hm', rfl⟩ := List.mem_map.1 hm
  obtain ⟨u, w, v, rfl, hdepth, -, hu, -⟩ := mem_zeroMatches hm'
  obtain ⟨a, b, rfl, ha, hstop⟩ := exists_of_slice? hslice
  have hsplit : a ++ (u ++ (w ++ v)) ++ b = a ++ u ++ (w ++ v ++ b) := by simp
  have hplace : scopeStart (a ++ (u ++ (w ++ v)) ++ b) pos + m'.start = width (a ++ u) := by
    rw [← ha, hu, width_append]
  simp only [hplace]
  have hboundary : IsBoundary (a ++ (u ++ (w ++ v)) ++ b) (width (a ++ u)) := ⟨a ++ u, w ++ v ++ b, hsplit, rfl⟩
  refine (h.scopes_eq_iff pos hboundary).2 ⟨?_, ?_, ?_⟩
  · rw [← ha, width_append]
    exact Nat.le_add_right _ _
  · rw [← hstop, width_append, width_append u]
    omega
  · rw [← ha, hsplit, depthBetween?_append, hdepth]

end DialectBridge
