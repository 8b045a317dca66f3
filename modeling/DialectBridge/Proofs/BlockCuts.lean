import DialectBridge.Proofs.MaskedTokens
import DialectBridge.Proofs.Phrases
/-!
# Blocks in a query

The end of a block is found in the masked query. `exists_blockCut` takes it back to the query
itself: the place is in code unless it is the end of the query. `zeroMatches_keyword_ne_nil_iff`
reads off the tokens of a block which keywords a search for them finds.
-/
namespace DialectBridge
open Pattern LexState

/-! ## Keywords on the surface -/

/-- A token is on the surface of a block if nothing is open on one of its sides. -/
theorem exists_of_mem_surface {d : Nat} {p : Text} {ps : List Text} (h : p ∈ surface d ps) :
    ∃ qs rs j k, ps = qs ++ p :: rs ∧ walk d qs = some j ∧ through j p = some k ∧
      (j = 0 ∨ k = 0) := by
  induction ps generalizing d with
  | nil => simp [surface] at h
  | cons q ps ih =>
    cases hq : through d q with
    | none => simp [surface, hq] at h
    | some k =>
      have hrest : p ∈ surface k ps → ∃ qs rs j k, q :: ps = qs ++ p :: rs ∧ walk d qs = some j ∧
          through j p = some k ∧ (j = 0 ∨ k = 0) := by
        intro h
        obtain ⟨qs, rs, j, l, rfl, hw, hp, hz⟩ := ih h
        exact ⟨q :: qs, rs, j, l, rfl, by rw [walk, hq]; exact hw, hp, hz⟩
      simp only [surface, hq] at h
      split_ifs at h with hz
      · rcases List.mem_cons.1 h with rfl | h
        · exact ⟨[], ps, d, k, rfl, rfl, hq, hz⟩
        · exact hrest h
      · exact hrest h

theorem through_of_isWordChar {p : Text} (hp : ∀ c ∈ p, Unicode.isWordChar c = true) {d k : Nat}
    (h : through d p = some k) : k = d := by
  have h1 : p ≠ ['('] := by rintro rfl; exact absurd (hp '(' (by simp)) (by decide)
  have h2 : p ≠ [')'] := by rintro rfl; exact absurd (hp ')' (by simp)) (by decide)
  simp only [through, h1, h2, if_false] at h
  split_ifs at h with hz
  exact (Option.some.inj h).symm

theorem tokens_subset_pieces (t : Text) : tokens t ⊆ pieces t := List.filter_subset_self _

/-- The depth behind some text, if the block goes on behind it. -/
theorem walk_tokens_eq_some {t : Text} {d k : Nat} (h : walk d (tokens t) = some k) :
    (k : Int) = d + depth t := by
  rw [walk_tokens] at h
  exact walk_pieces_eq_some h

/-- A search finds a keyword in a block outside of all parentheses just if it is on the surface. -/
theorem zeroMatches_keyword_ne_nil_iff {name t : Text} (hname : isName name = true) :
    zeroMatches (keyword name) (blockText t) ≠ [] ↔ ∃ w ∈ surface 0 (tokens t), Spelled name w := by
  rw [← surface_block, ← tokens_blockText]
  constructor
  · intro h
    obtain ⟨m, hm⟩ := List.exists_mem_of_ne_nil _ h
    obtain ⟨u, w, v, hB, hd, hw, -, -⟩ := mem_zeroMatches hm
    obtain ⟨hspelled, hu, hv⟩ := (matches_keyword hname).1 hw
    have hchars := hspelled.isWordChar hname
    have htokens : tokens (blockText t) = tokens u ++ w :: tokens v := by
      rw [hB, tokens_append (.of_ends hu _), tokens_append (.of_begins hv _),
        tokens_word (hspelled.ne_nil hname) hchars]
      rfl
    obtain ⟨k, rest, -, -, hwalk, -⟩ := blockText_spec t
    rw [← walk_tokens, htokens, walk_append] at hwalk
    obtain ⟨j, hj, hwalk⟩ := Option.bind_eq_some_iff.1 hwalk
    have := walk_tokens_eq_some hj
    obtain rfl : j = 0 := by omega
    obtain ⟨l, hl, -⟩ := Option.bind_eq_some_iff.1 hwalk
    refine ⟨w, ?_, hspelled⟩
    rw [htokens, surface_append hj]
    simp [surface, hl]
  · rintro ⟨w, hmem, hspelled⟩
    have hchars := hspelled.isWordChar hname
    obtain ⟨qs, rs, j, k, hsplit, hwalk, hthrough, hz⟩ := exists_of_mem_surface hmem
    obtain ⟨u, v, hB, rfl, -, hleft, hright⟩ := exists_of_tokens_eq hsplit
    obtain rfl := through_of_isWordChar hchars hthrough
    have hdepth := walk_tokens_eq_some hwalk
    have hu : endsInWord u = false := hleft.endsInWord_eq_false (hspelled.beginsInWord hname _)
    have hv : beginsInWord v = false := hright (by simpa using hspelled.endsInWord hname [])
    obtain ⟨m, hm, -, -⟩ := (takesWords_keyword hname).exists_mem_zeroMatches
      ((matches_keyword hname).2 ⟨hspelled, hu, hv⟩) (by omega)
    rw [hB]
    exact List.ne_nil_of_mem hm

/-! ## Tokens that neither open nor end anything -/

def IsOther (p : Text) : Prop := ∀ d, through d p = some d

theorem surface_other {p : Text} (h : IsOther p) (k : Nat) (qs : List Text) :
    surface k (p :: qs) = if k = 0 then p :: surface k qs else surface k qs := by
  simp [surface, h k]

theorem isOther_of_ne {p : Text} (h1 : p ≠ ['(']) (h2 : p ≠ [')']) (h3 : isSetOperator p = false) :
    IsOther p := by
  intro d
  simp [through, h1, h2, h3]

theorem walk_other {x : List Text} (hx : ∀ p ∈ x, IsOther p) (d : Nat) : walk d x = some d := by
  induction x with
  | nil => rfl
  | cons p x ih =>
    rw [walk, hx p (by simp), Option.bind_some]
    exact ih fun q hq => hx q (by simp [hq])

/-- Such tokens, put in on the surface of a block, stand there. -/
theorem surface_insert {l x : List Text} (hl : walk 0 l = some 0) (hx : ∀ p ∈ x, IsOther p)
    (r : List Text) : surface 0 (l ++ (x ++ r)) = surface 0 l ++ (x ++ surface 0 r) := by
  rw [surface_append hl, List.append_cancel_left_eq]
  induction x with
  | nil => rfl
  | cons p x ih =>
    rw [List.cons_append, surface_other (hx p (by simp)), if_pos rfl,
      ih fun q hq => hx q (by simp [hq])]
    rfl

/-- Inside of parentheses nothing is on the surface. -/
theorem surface_succ {d k : Nat} {m : List Text} (h : walk d m = some k) :
    walk (d + 1) m = some (k + 1) ∧ surface (d + 1) m = [] := by
  induction m generalizing d with
  | nil =>
    obtain rfl : d = k := by simpa using h
    exact ⟨rfl, rfl⟩
  | cons p m ih =>
    obtain ⟨j, hj, hm⟩ := Option.bind_eq_some_iff.1 h
    have hthrough : through (d + 1) p = some (j + 1) := by
      rw [through] at hj
      split_ifs at hj with h1 h2 h3 h4
      · obtain rfl := Option.some.inj hj
        rw [through, if_pos h1]
      · obtain rfl := Option.some.inj hj
        rw [through, if_neg h1, if_pos h2, if_neg (Nat.succ_ne_zero d), Option.some.injEq]
        omega
      · obtain rfl := Option.some.inj hj
        rw [through, if_neg h1, if_neg h2, if_neg (fun h => Nat.succ_ne_zero d h.1)]
    obtain ⟨h1, h2⟩ := ih hm
    refine ⟨by rw [walk, hthrough]; exact h1, ?_⟩
    simp [surface, hthrough, h2]

/-! ## Places on the surface -/

/-- A block goes on up to each place in it at which nothing is open. -/
theorem walk_tokens_of_prefix {t x y : Text} (h : blockText t = x ++ y) (ha : Apart x y)
    (hd : depth x = 0) : walk 0 (tokens x) = some 0 := by
  obtain ⟨k, -, -, -, hwalk, -⟩ := blockText_spec t
  rw [h, pieces_append ha, walk_append] at hwalk
  obtain ⟨j, hj, -⟩ := Option.bind_eq_some_iff.1 hwalk
  have := walk_pieces_eq_some hj
  obtain rfl : j = 0 := by omega
  rw [walk_tokens, hj]

theorem getLast?_dropTrailing (p : Char → Bool) (t : Text) :
    ∀ e ∈ (Text.dropTrailing p t).getLast?, p e = false := by
  intro e he
  rw [Text.dropTrailing, List.getLast?_reverse] at he
  have := List.head?_dropWhile_not p t.reverse
  rw [he] at this
  simpa using this

theorem isPlain_of_isBlockEnd {e : Char} (h : ToOracle.isBlockEnd e = true) : isPlain e = true := by
  simp only [ToOracle.isBlockEnd, Bool.or_eq_true, beq_iff_eq] at h
  rcases h with h | rfl
  · exact isPlain_of_isBlank h
  · decide

theorem isWordChar_of_isBlockEnd {e : Char} (h : ToOracle.isBlockEnd e = true) :
    Unicode.isWordChar e = false := by
  simp only [ToOracle.isBlockEnd, Bool.or_eq_true, beq_iff_eq] at h
  rcases h with h | rfl
  · exact isWordChar_of_isBlank h
  · decide

theorem depth_of_isBlockEnd {t : Text} (h : ∀ e ∈ t, ToOracle.isBlockEnd e = true) : depth t = 0 :=
  depth_of_not_mem (fun hm => absurd (h _ hm) (by decide)) fun hm => absurd (h _ hm) (by decide)

/-- In a well-nested text nothing is open behind the last character that does not end a block. -/
theorem WellNested.walk_tokens_of_ends {a t x y : Text} (hn : WellNested (a ++ t))
    (h : blockText t = x ++ y) (hy : ∀ e ∈ y, ToOracle.isBlockEnd e = true) :
    walk 0 (tokens x) = some 0 := by
  have hbegin : beginsInWord y = false := by
    cases y with
    | nil => rfl
    | cons e y => exact isWordChar_of_isBlockEnd (hy e (by simp))
  have hdepth := walk_pieces_eq_some hn.walk_blockText
  rw [h, depth_append, depth_of_isBlockEnd hy] at hdepth
  exact walk_tokens_of_prefix h (.of_begins hbegin x) (by omega)

/-! ## The end of a block -/

/-- The text `b` behind a heading is the rest `c` of its block and the text `d` behind the block. -/
structure BlockCut (b c d : Text) : Prop where
  eq : b = c ++ d
  mask_left : mask c = blockText (mask b)
  mask_right : mask b = mask c ++ mask d
  apart : Apart (mask c) (mask d)
  stop : ∀ x ∈ d.head?, (code.after c).live = true ∧
    (x = ')' ∨ x ∈ ['U', 'I', 'E', 'M'].flatMap Unicode.caseVariants)

theorem isWordChar_of_mem_setOperatorHeads {x : Char}
    (h : x ∈ ['U', 'I', 'E', 'M'].flatMap Unicode.caseVariants) : Unicode.isWordChar x = true := by
  have key : (['U', 'I', 'E', 'M'].flatMap Unicode.caseVariants).all Unicode.isWordChar = true := by
    decide
  exact List.all_eq_true.1 key x h

/-- Every block can be cut off in the query. -/
theorem exists_blockCut (b : Text) : ∃ c d, BlockCut b c d := by
  obtain ⟨k, rest, hmask, hapart, -, hend⟩ := blockText_spec (mask b)
  cases rest with
  | nil =>
    rw [List.append_nil] at hmask
    exact ⟨b, [], (List.append_nil b).symm, hmask, by rw [mask_nil, List.append_nil],
      by rw [mask_nil]; exact apart_nil_right _, by simp⟩
  | cons x v =>
    have hx : x = ')' ∨ x ∈ ['U', 'I', 'E', 'M'].flatMap Unicode.caseVariants := by
      obtain ⟨p, ps, hp⟩ := List.exists_cons_of_ne_nil (pieces_ne_nil (List.cons_ne_nil x v))
      have hflat : p ++ ps.flatten = x :: v := by rw [← List.flatten_cons, ← hp, flatten_pieces]
      obtain ⟨y, p, rfl⟩ := List.exists_cons_of_ne_nil
        (ne_nil_of_mem_pieces (p := p) (t := x :: v) (by simp [hp]))
      obtain ⟨rfl, -⟩ := List.cons.inj hflat
      rcases (hend (y :: p) (by simp [hp])).2 with hclose | hset
      · exact .inl (List.cons.inj hclose).1
      · exact .inr (head_of_isSetOperator hset)
    have hfirm : isFirm x = true := by
      rcases hx with rfl | hx
      · decide
      · exact isFirm_of_isWordChar (isWordChar_of_mem_setOperatorHeads hx)
    obtain ⟨c, d, rfl, hc, hd, hhead, hj⟩ := exists_cut_before hfirm hmask
    refine ⟨c, d, rfl, hc, by rw [hc, hd, ← hmask], by rwa [hc, hd], fun y hy => ?_⟩
    obtain rfl : x = y := Option.some.inj (hhead.symm.trans hy)
    refine ⟨?_, hx⟩
    cases d with
    | nil => simp at hhead
    | cons z d =>
      obtain rfl : z = x := by simpa using hhead
      refine live_of_joins hj ?_
      rintro rfl
      rcases hx with hx | hx <;> exact absurd hx (by decide)

end DialectBridge
