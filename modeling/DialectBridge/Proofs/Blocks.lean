import DialectBridge.Proofs.Tokens
import DialectBridge.Sql.Paren
import DialectBridge.ToOracle.RowLimit
/-!
# Query blocks as lists of tokens

A query block goes on from its heading to the parenthesis that closes its scope, or to the first
set operator that no parenthesis of the block encloses. `surface` lists what stands in it outside
all of its parentheses. The rules find the end of a block by offsets into the masked query;
`blockStop_eq` says that they find the end that `block` finds in the tokens.
-/
namespace DialectBridge
open Pattern

def isSetOperator (p : Text) : Bool :=
  ["UNION", "INTERSECT", "EXCEPT", "MINUS"].any fun s => decide (Spelled s.toList p)

theorem exists_spelled_of_isSetOperator {p : Text} (h : isSetOperator p = true) :
    ∃ t, isName t = true ∧ Spelled t p := by
  obtain ⟨s, hs, hspelled⟩ := List.any_eq_true.1 h
  have hname : ∀ s ∈ ["UNION", "INTERSECT", "EXCEPT", "MINUS"], isName s.toList = true := by decide
  exact ⟨s.toList, hname s hs, of_decide_eq_true hspelled⟩

theorem isWordChar_of_isSetOperator {p : Text} (h : isSetOperator p = true) :
    ∀ c ∈ p, Unicode.isWordChar c = true := by
  obtain ⟨t, ht, hspelled⟩ := exists_spelled_of_isSetOperator h
  exact hspelled.isWordChar ht

/-- A set operator begins with one of four letters. -/
theorem head_of_isSetOperator {c : Char} {p : Text} (h : isSetOperator (c :: p) = true) :
    c ∈ ['U', 'I', 'E', 'M'].flatMap Unicode.caseVariants := by
  have key : ∀ t ∈ ["UNION", "INTERSECT", "EXCEPT", "MINUS"],
      t.toList.head? ∈ ['U', 'I', 'E', 'M'].map some := by decide
  obtain ⟨t, ht, hs⟩ := List.any_eq_true.1 h
  have hs := of_decide_eq_true hs
  cases hd : t.toList with
  | nil =>
    rw [hd, Spelled, List.forall₂_nil_left_iff] at hs
    simp at hs
  | cons d t' =>
    rw [hd] at hs
    cases hs with
    | cons hc _ => exact List.mem_flatMap.2 ⟨d, by simpa [hd] using key t ht, hc⟩

/-- The depth in parentheses behind a token, if the block goes on behind it. -/
def through (d : Nat) (p : Text) : Option Nat :=
  if p = ['('] then some (d + 1)
  else if p = [')'] then if d = 0 then none else some (d - 1)
  else if d = 0 ∧ isSetOperator p = true then none
  else some d

/-- The depth behind some tokens, if the block goes on behind them. -/
def walk : Nat → List Text → Option Nat
  | d, [] => some d
  | d, p :: ps => (through d p).bind fun k => walk k ps

def block : Nat → List Text → List Text
  | _, [] => []
  | d, p :: ps =>
    match through d p with
    | none => []
    | some k => p :: block k ps

/-- The tokens of the block outside its parentheses, which are shown empty. -/
def surface : Nat → List Text → List Text
  | _, [] => []
  | d, p :: ps =>
    match through d p with
    | none => []
    | some k => if d = 0 ∨ k = 0 then p :: surface k ps else surface k ps

@[simp] theorem walk_nil (d : Nat) : walk d [] = some d := rfl

theorem walk_append (d : Nat) (ps qs : List Text) :
    walk d (ps ++ qs) = (walk d ps).bind fun k => walk k qs := by
  induction ps generalizing d with
  | nil => rfl
  | cons p ps ih =>
    rw [List.cons_append, walk, walk]
    cases through d p with
    | none => rfl
    | some k => exact ih k

theorem block_append {d k : Nat} {ps : List Text} (h : walk d ps = some k) (qs : List Text) :
    block d (ps ++ qs) = ps ++ block k qs := by
  induction ps generalizing d with
  | nil =>
    obtain rfl : d = k := by simpa using h
    rfl
  | cons p ps ih =>
    obtain ⟨j, hj, hps⟩ := Option.bind_eq_some_iff.1 h
    simp [block, hj, ih hps]

theorem surface_append {d k : Nat} {ps : List Text} (h : walk d ps = some k) (qs : List Text) :
    surface d (ps ++ qs) = surface d ps ++ surface k qs := by
  induction ps generalizing d with
  | nil =>
    obtain rfl : d = k := by simpa using h
    rfl
  | cons p ps ih =>
    obtain ⟨j, hj, hps⟩ := Option.bind_eq_some_iff.1 h
    simp only [List.cons_append, surface, hj, ih hps]
    split <;> rfl

theorem block_append_of_none {d : Nat} {ps : List Text} (h : walk d ps = none) (qs : List Text) :
    block d (ps ++ qs) = block d ps := by
  induction ps generalizing d with
  | nil => simp at h
  | cons p ps ih =>
    simp only [List.cons_append, block]
    cases hj : through d p with
    | none => rfl
    | some k =>
      rw [walk, hj] at h
      simp only [ih h]

/-- What follows on a place that the block does not reach is not part of it. -/
theorem surface_append_of_none {d : Nat} {ps : List Text} (h : walk d ps = none) (qs : List Text) :
    surface d (ps ++ qs) = surface d ps := by
  induction ps generalizing d with
  | nil => simp at h
  | cons p ps ih =>
    simp only [List.cons_append, surface]
    cases hj : through d p with
    | none => rfl
    | some k =>
      rw [walk, hj] at h
      simp only [ih h]

theorem through_of_isSetOperator {p : Text} (h : isSetOperator p = true) : through 0 p = none := by
  have h1 : p ≠ ['('] := by rintro rfl; exact absurd h (by decide)
  have h2 : p ≠ [')'] := by rintro rfl; exact absurd h (by decide)
  simp [through, h1, h2, h]

/-- A block ends with the text, or where nothing is open, before a closing parenthesis or a set
operator. -/
theorem block_spec (d : Nat) (ps : List Text) :
    ∃ k rest, ps = block d ps ++ rest ∧ walk d (block d ps) = some k ∧
      ∀ p ∈ rest.head?, k = 0 ∧ (p = [')'] ∨ isSetOperator p = true) := by
  induction ps generalizing d with
  | nil => exact ⟨d, [], by simp [block]⟩
  | cons p ps ih =>
    cases hp : through d p with
    | none =>
      refine ⟨d, p :: ps, by simp [block, hp], by simp [block, hp], ?_⟩
      simp only [List.head?_cons, Option.mem_some_iff, forall_eq']
      simp only [through] at hp
      split_ifs at hp with h1 h2 h3 h4
      · exact ⟨h3, .inl h2⟩
      · exact ⟨h4.1, .inr h4.2⟩
    | some k =>
      obtain ⟨k', rest, hps, hw, hend⟩ := ih k
      refine ⟨k', rest, ?_, ?_, hend⟩
      · simpa [block, hp] using hps
      · simpa [block, hp, walk] using hw

theorem surface_block (d : Nat) (ps : List Text) : surface d (block d ps) = surface d ps := by
  induction ps generalizing d with
  | nil => rfl
  | cons p ps ih =>
    cases hp : through d p with
    | none => simp [block, surface, hp]
    | some k => simp [block, surface, hp, ih]

/-! ## White space does not count -/

theorem isSetOperator_of_isBlankText {p : Text} (h : isBlankText p = true) :
    isSetOperator p = false := by
  cases p with
  | nil => rfl
  | cons c p =>
    have hc : Unicode.isBlank c = true := by
      simp only [isBlankText, List.all_cons, Bool.and_eq_true] at h
      exact h.1
    by_contra hset
    rw [Bool.not_eq_false] at hset
    have hw := isWordChar_of_isSetOperator hset c (by simp)
    rw [isWordChar_of_isBlank hc] at hw
    exact absurd hw (by decide)

theorem through_of_isBlankText {p : Text} (h : isBlankText p = true) (d : Nat) :
    through d p = some d := by
  have h1 : p ≠ ['('] := by rintro rfl; exact absurd h (by decide)
  have h2 : p ≠ [')'] := by rintro rfl; exact absurd h (by decide)
  simp [through, h1, h2, isSetOperator_of_isBlankText h]

theorem walk_filter (d : Nat) (ps : List Text) :
    walk d (ps.filter (!isBlankText ·)) = walk d ps := by
  induction ps generalizing d with
  | nil => rfl
  | cons p ps ih =>
    cases hp : isBlankText p with
    | true => simp [hp, walk, through_of_isBlankText hp, ih]
    | false =>
      simp only [List.filter_cons, hp, Bool.not_false, if_true, walk]
      congr 1
      funext k
      exact ih k

theorem walk_tokens (d : Nat) (t : Text) : walk d (tokens t) = walk d (pieces t) := walk_filter d _

theorem block_filter (d : Nat) (ps : List Text) :
    block d (ps.filter (!isBlankText ·)) = (block d ps).filter (!isBlankText ·) := by
  induction ps generalizing d with
  | nil => rfl
  | cons p ps ih =>
    cases hp : isBlankText p with
    | true => simp [hp, block, through_of_isBlankText hp, ih]
    | false =>
      simp only [List.filter_cons, hp, Bool.not_false, if_true, block]
      cases through d p with
      | none => rfl
      | some k => simp [hp, ih]

/-! ## Depth -/

theorem mem_pieces {p t : Text} (h : p ∈ pieces t) :
    (∃ c, p = [c]) ∨ ∀ c ∈ p, Unicode.isWordChar c = true := by
  induction t generalizing p with
  | nil => simp at h
  | cons c t ih =>
    rw [pieces_cons] at h
    cases hp : pieces t with
    | nil =>
      obtain rfl : p = [c] := by simpa [hp, attach] using h
      exact .inl ⟨c, rfl⟩
    | cons q qs =>
      rw [hp, attach] at h
      split_ifs at h with hword
      · rcases List.mem_cons.1 h with rfl | h
        · refine .inr fun d hd => ?_
          simp only [Bool.and_eq_true] at hword
          rcases List.mem_cons.1 hd with rfl | hd
          · exact hword.1
          · rcases ih (p := q) (by simp [hp]) with ⟨e, rfl⟩ | hq
            · obtain rfl : d = e := by simpa using hd
              exact hword.2
            · exact hq d hd
        · exact ih (by simp [hp, h])
      · rcases List.mem_cons.1 h with rfl | h
        · exact .inl ⟨c, rfl⟩
        · exact ih (by rw [hp]; exact h)

theorem depth_append (a b : Text) : depth (a ++ b) = depth a + depth b := by
  simp only [depth, List.count_append]
  omega

theorem depth_of_not_mem {t : Text} (h1 : '(' ∉ t) (h2 : ')' ∉ t) : depth t = 0 := by
  rw [depth, List.count_eq_zero.2 h1, List.count_eq_zero.2 h2]
  rfl

theorem depth_of_isWordChar {t : Text} (h : ∀ c ∈ t, Unicode.isWordChar c = true) :
    depth t = 0 :=
  depth_of_not_mem (fun hm => absurd (h _ hm) (by decide)) fun hm => absurd (h _ hm) (by decide)

theorem through_eq_some {p t : Text} (hp : p ∈ pieces t) {d k : Nat}
    (h : through d p = some k) : (k : Int) = d + depth p := by
  simp only [through] at h
  split_ifs at h with h1 h2 h3 h4
  · obtain rfl : d + 1 = k := by simpa using h
    simp [h1, depth]
  · obtain rfl : d - 1 = k := by simpa using h
    simp [h2, depth]
    omega
  · obtain rfl : d = k := by simpa using h
    have hz : depth p = 0 := by
      rcases mem_pieces hp with ⟨c, rfl⟩ | hw
      · have hc1 : c ≠ '(' := by rintro rfl; exact h1 rfl
        have hc2 : c ≠ ')' := by rintro rfl; exact h2 rfl
        simp [depth, hc1, hc2]
      · exact depth_of_isWordChar hw
    simp [hz]

/-- The depth behind some tokens is that of their text. -/
theorem walk_eq_some {t : Text} {ps : List Text} (hps : ps ⊆ pieces t) {d k : Nat}
    (h : walk d ps = some k) : (k : Int) = d + depth ps.flatten := by
  induction ps generalizing d with
  | nil =>
    obtain rfl : d = k := by simpa using h
    simp [depth]
  | cons p ps ih =>
    obtain ⟨j, hj, hw⟩ := Option.bind_eq_some_iff.1 h
    have h1 := through_eq_some (hps (by simp)) hj
    have h2 := ih (fun q hq => hps (by simp [hq])) hw
    rw [List.flatten_cons, depth_append]
    omega

theorem walk_pieces_eq_some {t : Text} {d k : Nat} (h : walk d (pieces t) = some k) :
    (k : Int) = d + depth t := by
  simpa using walk_eq_some (List.Subset.refl _) h

/-! ## Scopes -/

/-- The text before the first parenthesis that closes what is not opened in it, `n` being open. -/
def scope : Nat → Text → Text
  | _, [] => []
  | n, c :: t =>
    if c = '(' then c :: scope (n + 1) t
    else if c = ')' then if n = 0 then [] else c :: scope (n - 1) t
    else c :: scope n t

/-- A scope ends with the text, or where nothing is open, before a closing parenthesis. -/
theorem scope_spec (n : Nat) (t : Text) :
    ∃ rest, t = scope n t ++ rest ∧ (∀ u v, scope n t = u ++ v → 0 ≤ (n : Int) + depth u) ∧
      ∀ c ∈ rest.head?, c = ')' ∧ (n : Int) + depth (scope n t) = 0 := by
  have hnil : ∀ n : Nat, ∀ u v : Text, [] = u ++ v → 0 ≤ (n : Int) + depth u := by
    intro n u v huv
    obtain ⟨rfl, rfl⟩ : u = [] ∧ v = [] := by simpa using huv
    simp [depth]
  induction t generalizing n with
  | nil => exact ⟨[], rfl, hnil n, by simp⟩
  | cons c t ih =>
    have hcons : ∀ k : Nat, (k : Int) = n + depth [c] → scope n (c :: t) = c :: scope k t →
        ∃ rest, c :: t = scope n (c :: t) ++ rest ∧
          (∀ u v, scope n (c :: t) = u ++ v → 0 ≤ (n : Int) + depth u) ∧
          ∀ e ∈ rest.head?, e = ')' ∧ (n : Int) + depth (scope n (c :: t)) = 0 := by
      intro k hk hscope
      obtain ⟨rest, ht, hpre, hend⟩ := ih k
      have hsplit : ∀ u : Text, depth (c :: u) = depth [c] + depth u := fun u =>
        depth_append [c] u
      refine ⟨rest, by rw [hscope, List.cons_append, ← ht], ?_, ?_⟩
      · intro u v huv
        cases u with
        | nil => simp [depth]
        | cons e u =>
          rw [hscope] at huv
          obtain ⟨rfl, hu⟩ : c = e ∧ scope k t = u ++ v := by simpa using huv
          have := hpre u v hu
          rw [hsplit]
          omega
      · intro e he
        obtain ⟨he1, he2⟩ := hend e he
        refine ⟨he1, ?_⟩
        rw [hscope, hsplit]
        omega
    by_cases h1 : c = '('
    · exact hcons (n + 1) (by simp [h1, depth]) (by rw [scope, if_pos h1])
    · by_cases h2 : c = ')'
      · by_cases h3 : n = 0
        · refine ⟨c :: t, by rw [scope, if_neg h1, if_pos h2, if_pos h3]; rfl, ?_, ?_⟩
          · rw [scope, if_neg h1, if_pos h2, if_pos h3]
            exact hnil n
          · rw [scope, if_neg h1, if_pos h2, if_pos h3]
            simp [h2, h3, depth]
        · refine hcons (n - 1) ?_ (by rw [scope, if_neg h1, if_pos h2, if_neg h3])
          simp [h2, depth]
          omega
      · refine hcons n ?_ (by rw [scope, if_neg h1, if_neg h2])
        simp [depth, h1, h2]

theorem unmatchedClose_indexedFrom (n i : Nat) (t : Text) :
    Paren.unmatchedClose (i + Text.width t) n (Text.indexedFrom i t) =
      i + Text.width (scope n t) := by
  induction t generalizing n i with
  | nil => rfl
  | cons c t ih =>
    have hw : i + Text.width (c :: t) = i + c.utf8Size + Text.width t := by
      rw [Text.width_cons]
      omega
    simp only [Text.indexedFrom, Paren.unmatchedClose, scope, hw]
    split_ifs <;> simp [ih] <;> omega

theorem dropWhile_indexedFrom (i : Nat) (a b : Text) :
    (Text.indexedFrom i (a ++ b)).dropWhile (·.1 < i + Text.width a) =
      Text.indexedFrom (i + Text.width a) b := by
  induction a generalizing i with
  | nil =>
    cases b <;> simp [Text.indexedFrom]
  | cons c a ih =>
    have hpos := c.utf8Size_pos
    have hw : i + Text.width (c :: a) = i + c.utf8Size + Text.width a := by
      rw [Text.width_cons]
      omega
    rw [List.cons_append, Text.indexedFrom, List.dropWhile_cons_of_pos (by simp; omega), hw, ih]

/-- The scope around a place ends where `scope` says. -/
theorem scopeEnd_append (a b : Text) :
    scopeEnd (a ++ b) (Text.width a) = Text.width a + Text.width (scope 0 b) := by
  have hdrop := dropWhile_indexedFrom 0 a b
  simp only [Nat.zero_add] at hdrop
  rw [scopeEnd, Text.indexed, hdrop, Text.width_append, unmatchedClose_indexedFrom]

/-! ## The end of a block -/

theorem matches_oneOf_words (names : List String) {u w v : Text} :
    Matches (oneOf (names.map fun s => word s.toList)) u w v ↔
      (names.any fun s => decide (Spelled s.toList w)) = true := by
  simp

theorem matches_setOperator {u w v : Text} :
    Matches ToOracle.setOperator u w v ↔
      isSetOperator w = true ∧ endsInWord u = false ∧ beginsInWord v = false := by
  have hmatch : ∀ u w v, Matches (oneOf ["UNION", "INTERSECT", "EXCEPT", "MINUS"]) u w v ↔
      isSetOperator w = true :=
    fun u w v => matches_oneOf_words ["UNION", "INTERSECT", "EXCEPT", "MINUS"]
  rw [ToOracle.setOperator, matches_between_edges, hmatch]
  intro u w v hw
  rw [hmatch] at hw
  obtain ⟨t, ht, hspelled⟩ := exists_spelled_of_isSetOperator hw
  exact ⟨by simpa using hspelled.beginsInWord ht [], by simpa using hspelled.endsInWord ht []⟩

theorem takesWords_setOperator : TakesWords ToOracle.setOperator := by
  intro u w v h
  obtain ⟨hw, hu, hv⟩ := matches_setOperator.1 h
  obtain ⟨t, ht, hspelled⟩ := exists_spelled_of_isSetOperator hw
  exact ⟨hspelled.ne_nil ht, hspelled.isWordChar ht, hu, hv⟩

/-- The matches of `p` in a block that no parentheses of it enclose. -/
def zeroMatches (p : Pattern) (t : Text) : List Match :=
  (p.findAll t).filter fun m => depth m.first.left.text == 0

theorem depthZeroMatches?_append (a b c : Text) (p : Pattern) :
    depthZeroMatches? (a ++ b ++ c) (Text.width a) (Text.width a + Text.width b) p =
      some ((zeroMatches p b).map fun m =>
        ⟨Text.width a + m.start, Text.width a + m.stop⟩) := by
  rw [depthZeroMatches?, Text.slice?_append]
  rfl

theorem mem_zeroMatches {p : Pattern} {t : Text} {m : Match} (h : m ∈ zeroMatches p t) :
    ∃ u w v, t = u ++ (w ++ v) ∧ depth u = 0 ∧ Matches p u w v ∧ m.start = Text.width u ∧
      m.stop = Text.width u + Text.width w := by
  obtain ⟨hm, hd⟩ := List.mem_filter.1 h
  obtain ⟨u, x, rfl, hat⟩ := exists_of_mem_findAll hm
  obtain ⟨w, v, rfl, hfirst, hlast, hw⟩ := matchAt?_eq_some hat
  refine ⟨u, w, v, rfl, ?_, ⟨_, _, hw⟩, by simp [Match.start, hfirst],
    by simp [Match.stop, hlast]⟩
  simpa [hfirst, depth] using hd

theorem TakesWords.exists_mem_zeroMatches {p : Pattern} (hp : TakesWords p) {u w v : Text}
    (h : Matches p u w v) (hd : depth u = 0) :
    ∃ m ∈ zeroMatches p (u ++ (w ++ v)), m.start = Text.width u ∧
      m.stop = Text.width (u ++ w) := by
  obtain ⟨m, hm, hfirst, hstart, hstop⟩ := hp.exists_mem_findAll h
  exact ⟨m, List.mem_filter.2 ⟨hm, by simpa [hfirst, depth] using hd⟩, hstart, hstop⟩

theorem pairwise_zeroMatches (p : Pattern) (t : Text) :
    (zeroMatches p t).Pairwise fun m m' => m.stop ≤ m'.start :=
  (pairwise_findAll p t).filter _

/-- The first match that nothing encloses starts where none starts before. -/
theorem head?_zeroMatches {p : Pattern} {t : Text} {m : Match} (h : m ∈ zeroMatches p t)
    (hfirst : ∀ m' ∈ zeroMatches p t, m.start ≤ m'.start) :
    ∃ m' , (zeroMatches p t).head? = some m' ∧ m'.start = m.start := by
  cases hl : zeroMatches p t with
  | nil => simp [hl] at h
  | cons m' ms =>
    refine ⟨m', rfl, Nat.le_antisymm ?_ (hfirst m' (by simp [hl]))⟩
    rw [hl] at h
    rcases List.mem_cons.1 h with rfl | h
    · exact Nat.le_refl _
    · have hpair := pairwise_zeroMatches p t
      rw [hl] at hpair
      have hle := (List.pairwise_cons.1 hpair).1 m h
      obtain ⟨u, w, v, -, -, -, hstart, hstop⟩ := mem_zeroMatches (p := p) (t := t) (m := m')
        (by simp [hl])
      omega

def blockText (t : Text) : Text := (block 0 (pieces t)).flatten

theorem pieces_blockText (t : Text) : pieces (blockText t) = block 0 (pieces t) := by
  obtain ⟨k, rest, hps, -, -⟩ := block_spec 0 (pieces t)
  exact (pieces_eq_append hps).1

theorem tokens_blockText (t : Text) : tokens (blockText t) = block 0 (tokens t) := by
  rw [tokens, pieces_blockText, ← block_filter]
  rfl

/-- A block goes on to the end of its text, or where nothing is open, to a closing parenthesis or a
set operator. -/
theorem blockText_spec (t : Text) :
    ∃ k rest, t = blockText t ++ rest ∧ Apart (blockText t) rest ∧
      walk 0 (pieces (blockText t)) = some k ∧
      ∀ p ∈ (pieces rest).head?, k = 0 ∧ (p = [')'] ∨ isSetOperator p = true) := by
  obtain ⟨k, rest, hps, hw, hend⟩ := block_spec 0 (pieces t)
  obtain ⟨h1, h2, h3⟩ := pieces_eq_append hps
  refine ⟨k, rest.flatten, ?_, h3, by rwa [pieces_blockText], by rwa [h2]⟩
  rw [blockText, ← List.flatten_append, ← hps, flatten_pieces]

/-- The block ends where its scope does, or at a set operator that nothing encloses. -/
theorem scope_eq_blockText_append (t : Text) :
    ∃ rest, scope 0 t = blockText t ++ rest ∧ Apart (blockText t) rest ∧
      ∀ p ∈ (pieces rest).head?, isSetOperator p = true ∧ depth (blockText t) = 0 := by
  obtain ⟨rest, ht, hpre, hend⟩ := scope_spec 0 t
  have hrest : beginsInWord rest = false := by
    cases rest with
    | nil => rfl
    | cons c rest =>
      rw [(hend c (by simp)).1]
      rfl
  have hpieces : pieces t = pieces (scope 0 t) ++ pieces rest := by
    conv_lhs => rw [ht]
    exact pieces_append (.of_begins hrest _)
  cases hw : walk 0 (pieces (scope 0 t)) with
  | some k =>
    refine ⟨[], ?_, apart_nil_right _, by simp⟩
    have hblock : block k (pieces rest) = [] := by
      cases rest with
      | nil => rfl
      | cons c rest =>
        obtain ⟨rfl, hdepth⟩ := hend c (by simp)
        have hk := walk_pieces_eq_some hw
        obtain rfl : k = 0 := by omega
        rw [pieces_cons_of_not_word (by decide)]
        rfl
    rw [blockText, hpieces, block_append hw, hblock]
    simp
  | none =>
    obtain ⟨k, ps, hps, hwalk, hstop⟩ := block_spec 0 (pieces (scope 0 t))
    obtain ⟨h1, h2, h3⟩ := pieces_eq_append hps
    have hblock : blockText t = (block 0 (pieces (scope 0 t))).flatten := by
      rw [blockText, hpieces, block_append_of_none hw]
    have hscope : scope 0 t = blockText t ++ ps.flatten := by
      rw [hblock, ← List.flatten_append, ← hps, flatten_pieces]
    have hk := walk_pieces_eq_some (h1.symm ▸ hwalk)
    rw [← hblock] at hk h3
    refine ⟨ps.flatten, hscope, h3, fun p hp => ?_⟩
    rw [h2] at hp
    obtain ⟨rfl, hp'⟩ := hstop p hp
    refine ⟨?_, by omega⟩
    rcases hp' with rfl | hp'
    · -- a scope holds no parenthesis that closes it
      obtain ⟨qs, rfl⟩ : ∃ qs, ps = [')'] :: qs := by
        cases ps with
        | nil => simp at hp
        | cons q qs => exact ⟨qs, by simpa using hp⟩
      have hneg := hpre (blockText t ++ [')']) qs.flatten (by simpa using hscope)
      rw [depth_append] at hneg
      have : depth [')'] = -1 := rfl
      omega
    · exact hp'

/-- Where a scope goes on behind the block, a set operator stands. -/
theorem scope_eq_blockText_or (t : Text) :
    scope 0 t = blockText t ∨ ∃ w v, scope 0 t = blockText t ++ (w ++ v) ∧
      isSetOperator w = true ∧ endsInWord (blockText t) = false ∧ beginsInWord v = false ∧
      depth (blockText t) = 0 := by
  obtain ⟨rest, hscope, hapart, hrest⟩ := scope_eq_blockText_append t
  cases hr : pieces rest with
  | nil =>
    have hrest' : rest = [] := by rw [← flatten_pieces rest, hr]; rfl
    exact .inl (by rw [hscope, hrest', List.append_nil])
  | cons p ps =>
    obtain ⟨hset, hdepth⟩ := hrest p (by simp [hr])
    obtain ⟨-, -, hsplit⟩ := pieces_eq_append (show pieces rest = [p] ++ ps from hr)
    have hflat : rest = p ++ ps.flatten := by rw [← flatten_pieces rest, hr]; rfl
    obtain ⟨name, hname, hspelled⟩ := exists_spelled_of_isSetOperator hset
    have hleft : endsInWord (blockText t) = false :=
      hapart.endsInWord_eq_false (by rw [hflat, hspelled.beginsInWord hname])
    have hright : beginsInWord ps.flatten = false := by
      refine hsplit ?_
      simpa using hspelled.endsInWord hname []
    exact .inr ⟨p, ps.flatten, by rw [hscope, hflat], hset, hleft, hright, hdepth⟩

/-- The rules find the end of a block where `blockText` ends. -/
theorem blockStop_eq (a t : Text) :
    ∃ operators, depthZeroMatches? (a ++ t) (Text.width a) (scopeEnd (a ++ t) (Text.width a))
        ToOracle.setOperator = some operators ∧
      (operators.head?.map Span.start).getD (scopeEnd (a ++ t) (Text.width a)) =
        Text.width a + Text.width (blockText t) := by
  obtain ⟨after, ht, -, -⟩ := scope_spec 0 t
  obtain ⟨rest, hscope, hapart, hrest⟩ := scope_eq_blockText_append t
  have hmatches := depthZeroMatches?_append a (scope 0 t) after ToOracle.setOperator
  rw [List.append_assoc, ← ht, ← scopeEnd_append] at hmatches
  refine ⟨_, hmatches, ?_⟩
  rw [scopeEnd_append, List.head?_map]
  -- no operator that is found starts inside the block
  have hinside : ∀ m ∈ zeroMatches ToOracle.setOperator (scope 0 t),
      Text.width (blockText t) ≤ m.start := by
    intro m hm
    obtain ⟨u, w, v, hu, hd, hw, hstart, -⟩ := mem_zeroMatches hm
    have hpieces := takesWords_setOperator.pieces_eq hw
    rw [← hu, hscope, pieces_append hapart] at hpieces
    rw [hstart]
    rcases List.append_eq_append_iff.1 hpieces with ⟨as, has, -⟩ | ⟨as, has, hws⟩
    · have := congrArg List.flatten has
      rw [flatten_pieces, List.flatten_append, flatten_pieces] at this
      simp [this]
    · cases as with
      | nil =>
        have := congrArg List.flatten has
        rw [List.append_nil, flatten_pieces, flatten_pieces] at this
        exact Nat.le_of_eq (congrArg Text.width this)
      | cons p as =>
        obtain ⟨rfl, -⟩ : w = p ∧ _ := by simpa using hws
        obtain ⟨k, -, -, -, hwalk, -⟩ := blockText_spec t
        rw [has, walk_append] at hwalk
        obtain ⟨j, hj, hwalk⟩ := Option.bind_eq_some_iff.1 hwalk
        have := walk_pieces_eq_some hj
        obtain rfl : j = 0 := by omega
        rw [walk, through_of_isSetOperator (matches_setOperator.1 hw).1] at hwalk
        simp at hwalk
  rcases scope_eq_blockText_or t with hsame | ⟨w, v, hscope', hset, hleft, hright, hdepth⟩
  · have hnone : zeroMatches ToOracle.setOperator (scope 0 t) = [] := by
      rw [List.eq_nil_iff_forall_not_mem]
      intro m hm
      obtain ⟨u, w, v, hu, -, hw, hstart, -⟩ := mem_zeroMatches hm
      have hpos := Text.width_pos (takesWords_setOperator u w v hw).1
      have hle := hinside m hm
      have hwidth := congrArg Text.width hu
      rw [hsame] at hwidth
      simp only [Text.width_append] at hwidth
      omega
    rw [hnone, hsame]
    simp
  · obtain ⟨m, hm, hstart, -⟩ := takesWords_setOperator.exists_mem_zeroMatches
      (matches_setOperator.2 ⟨hset, hleft, hright⟩) hdepth
    rw [← hscope'] at hm
    obtain ⟨m', hm', hstart'⟩ := head?_zeroMatches hm fun m' hm' => hstart ▸ hinside m' hm'
    simp [hm', hstart', hstart]

/-! ## Well-nested texts -/

def WellNested (t : Text) : Prop := (∀ u v, t = u ++ v → 0 ≤ depth u) ∧ depth t = 0

instance (t : Text) : Decidable (WellNested t) :=
  decidable_of_iff ((∀ n < t.length + 1, 0 ≤ depth (t.take n)) ∧ depth t = 0) <| by
    refine and_congr_left fun _ => ⟨?_, ?_⟩
    · rintro h u v rfl
      have hlt : u.length < (u ++ v).length + 1 := by
        rw [List.length_append]
        omega
      simpa using h u.length hlt
    · intro h n _
      exact h (t.take n) (t.drop n) (List.take_append_drop n t).symm

/-- In a well-nested text nothing is open where a block ends. -/
theorem WellNested.walk_blockText {a t : Text} (h : WellNested (a ++ t)) :
    walk 0 (pieces (blockText t)) = some 0 := by
  obtain ⟨k, rest, ht, hapart, hwalk, hend⟩ := blockText_spec t
  have hk := walk_pieces_eq_some hwalk
  cases hr : pieces rest with
  | cons p ps =>
    obtain ⟨rfl, -⟩ := hend p (by simp [hr])
    exact hwalk
  | nil =>
    have hrest : rest = [] := by rw [← flatten_pieces rest, hr]; rfl
    have hall := h.2
    have ha := h.1 a t rfl
    rw [ht, hrest, List.append_nil, depth_append] at hall
    obtain rfl : k = 0 := by omega
    exact hwalk

end DialectBridge
