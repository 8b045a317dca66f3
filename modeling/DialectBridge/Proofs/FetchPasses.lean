import DialectBridge.Proofs.FetchClause
import DialectBridge.Proofs.Passes
/-!
# Each step settles a `FETCH`

A step takes a `FETCH` out of the query, or puts `OFFSET 0 ROWS` in front of it, where it is left
alone. Taking it out can join two dashes to a comment, and so bring what was in a literal into
code: the words are counted in the whole text, not in its code (`shrinks_fetchStep`).
-/
namespace DialectBridge.ToTsql
open Pattern LexState

def isFetch (p : Text) : Bool := decide (Spelled "FETCH".toList p)

/-- The pieces that are put in front of a `FETCH`. -/
def offsetPieces : List Text :=
  ["OFFSET".toList, [' '], ['0'], [' '], "ROWS".toList, [' ']]

/-- The number of `FETCH`es among some pieces that do not stand right behind `OFFSET 0 ROWS `; the
pieces in front of them are `before`, the last one first. -/
def countFetches (before : List Text) : List Text → Nat
  | [] => 0
  | p :: ps =>
    (if isFetch p && !decide (offsetPieces.reverse <+: before) then 1 else 0) +
      countFetches (p :: before) ps

/-- The number of `FETCH`es in a text that do not stand right behind `OFFSET 0 ROWS `. -/
def fetchWords (t : Text) : Nat := countFetches [] (pieces t)

/-! ## Counting -/

section
variable {before before' ps qs : List Text} {p z : Text}

theorem countFetches_append (before ps qs : List Text) :
    countFetches before (ps ++ qs) =
      countFetches before ps + countFetches (ps.reverse ++ before) qs := by
  induction ps generalizing before with
  | nil => simp [countFetches]
  | cons p ps ih => simp [countFetches, ih, Nat.add_assoc]

theorem countFetches_cons_of_not (h : isFetch p = false) :
    countFetches before (p :: ps) = countFetches (p :: before) ps := by
  simp [countFetches, h]

/-- A `FETCH` counts if it has no `OFFSET`. -/
theorem countFetches_cons_of_isFetch (h : isFetch p = true)
    (hbefore : ¬ offsetPieces.reverse <+: before) :
    countFetches before (p :: ps) = countFetches (p :: before) ps + 1 := by
  simp [countFetches, h, hbefore, Nat.add_comm]

theorem countFetches_le_of_prefix (h : before <+: before') :
    countFetches before' ps ≤ countFetches before ps := by
  induction ps generalizing before before' with
  | nil => exact Nat.le_refl 0
  | cons p ps ih =>
    have hrest := ih (List.prefix_cons_inj p |>.2 h)
    have hguard : offsetPieces.reverse <+: before → offsetPieces.reverse <+: before' :=
      fun hp => hp.trans h
    rw [countFetches, countFetches]
    split_ifs with h1 h2
    · omega
    · simp only [Bool.and_eq_true, Bool.not_eq_true', decide_eq_false_iff_not] at h1 h2
      exact absurd ⟨h1.1, fun hp => h1.2 (hguard hp)⟩ h2
    · omega
    · omega

/-- What stands before a piece that is not of the `OFFSET` does not matter behind it. -/
theorem countFetches_append_cons (hz : z ∉ offsetPieces) (xs : List Text) :
    countFetches (xs ++ z :: before) ps = countFetches xs ps := by
  induction ps generalizing xs with
  | nil => rfl
  | cons p ps ih =>
    have hguard : offsetPieces.reverse <+: xs ++ z :: before ↔ offsetPieces.reverse <+: xs := by
      refine ⟨fun h => ?_, fun h => h.trans (List.prefix_append _ _)⟩
      have hsplit : xs ++ z :: before = xs ++ [z] ++ before := by simp
      rw [hsplit] at h
      rcases List.prefix_or_prefix_of_prefix h (List.prefix_append _ _) with h' | h'
      · rcases List.prefix_concat_iff.1 h' with heq | h'
        · exact absurd (List.mem_reverse.1 (heq ▸ by simp : z ∈ offsetPieces.reverse)) hz
        · exact h'
      · exact absurd (List.mem_reverse.1 (h'.subset (by simp))) hz
    have hrest := ih (p :: xs)
    rw [List.cons_append] at hrest
    rw [countFetches, countFetches, hrest]
    simp only [hguard]

theorem countFetches_cons_barrier (hz : z ∉ offsetPieces) :
    countFetches (z :: before) ps = countFetches [] ps :=
  countFetches_append_cons hz []

theorem countFetches_cons_of_prefix (h : offsetPieces.reverse <+: before) :
    countFetches before (p :: ps) = countFetches (p :: before) ps := by
  simp [countFetches, h]

theorem countFetches_eq_zero (h : ∀ p ∈ ps, isFetch p = false) : countFetches before ps = 0 := by
  induction ps generalizing before with
  | nil => rfl
  | cons p ps ih =>
    rw [countFetches_cons_of_not (h p (by simp))]
    exact ih fun q hq => h q (by simp [hq])

/-- Words in front of which nothing matters. -/
theorem countFetches_append_eq (h : ∀ p ∈ ps, isFetch p = false) :
    countFetches before (ps ++ qs) = countFetches (ps.reverse ++ before) qs := by
  rw [countFetches_append, countFetches_eq_zero h, Nat.zero_add]

theorem countFetches_le (before ps : List Text) : countFetches before ps ≤ countFetches [] ps :=
  countFetches_le_of_prefix (List.nil_prefix)

end

/-! ## Words -/

theorem isFetch_of_spelled {t w : Text} (h : Spelled t w) (ht : t.length ≠ 5) : isFetch w = false := by
  refine decide_eq_false fun hw => ht ?_
  have h1 := List.Forall₂.length_eq h
  have h2 := List.Forall₂.length_eq hw
  exact h1.trans h2.symm

/-- A word that is no keyword of an `OFFSET`. -/
theorem not_mem_offsetPieces {t w : Text} (h : Spelled t w)
    (ht : offsetPieces.all (fun p => !decide (Spelled t p)) = true) : w ∉ offsetPieces := by
  intro hw
  have := List.all_eq_true.1 ht w hw
  simp [h] at this

theorem IsHeadWord.counts {s : Text} (h : IsHeadWord s) :
    isFetch s = false ∧ s ∉ offsetPieces := by
  rcases h with h | h | h
  · exact ⟨isFetch_of_spelled h (by decide), not_mem_offsetPieces h (by decide)⟩
  · exact ⟨isFetch_of_spelled h (by decide), not_mem_offsetPieces h (by decide)⟩
  · exact ⟨isFetch_of_spelled h (by decide), not_mem_offsetPieces h (by decide)⟩

theorem pieces_ofNat (n : Nat) : pieces (Text.ofNat n) = [Text.ofNat n] :=
  pieces_word Nat.toDigits_ne_nil isWordChar_of_mem_ofNat

theorem isFetch_ofNat (n : Nat) : isFetch (Text.ofNat n) = false := by
  refine decide_eq_false fun h => ?_
  have key : (Unicode.caseVariants 'F').all (!Char.isDigit ·) = true := by decide
  have h : Spelled ('F' :: "ETCH".toList) (Text.ofNat n) := h
  obtain ⟨c, t, hc, -, heq⟩ := List.forall₂_cons_left_iff.1 h
  have hdigit := Text.isDigit_of_mem_ofNat (n := n) (c := c) (by rw [heq]; simp)
  simpa [hdigit] using List.all_eq_true.1 key c hc

/-! ## The texts that are put in -/

theorem pieces_topText_append (n : Nat) {t : Text} (ht : beginsInWord t = false) :
    pieces (topText n ++ t) = [[' '], "TOP".toList, [' '], Text.ofNat n] ++ pieces t := by
  have htop : pieces " TOP ".toList = [[' '], "TOP".toList, [' ']] := by decide
  have hend : endsInWord " TOP ".toList = false := by decide
  unfold topText
  rw [List.append_assoc, pieces_append (.of_ends hend _), htop, pieces_append (.of_begins ht _),
    pieces_ofNat]
  rfl

theorem pieces_offsetText_append (n : Nat) {t : Text} (ht : beginsInWord t = false) :
    pieces (offsetText n ++ t) = offsetPieces ++ ("FETCH".toList ::
      ([[' '], "NEXT".toList, [' '], Text.ofNat n, [' '], "ROWS".toList, [' ']] ++
        ("ONLY".toList :: pieces t))) := by
  have hfetch : pieces "OFFSET 0 ROWS FETCH NEXT ".toList =
      offsetPieces ++ ["FETCH".toList, [' '], "NEXT".toList, [' ']] := by decide
  have honly : pieces " ROWS ONLY".toList = [[' '], "ROWS".toList, [' '], "ONLY".toList] := by decide
  have hend : endsInWord "OFFSET 0 ROWS FETCH NEXT ".toList = false := by decide
  have hbegin : beginsInWord (" ROWS ONLY".toList ++ t) = false := by
    rw [beginsInWord_append (by decide)]
    decide
  unfold offsetText
  rw [List.append_assoc, List.append_assoc, pieces_append (.of_ends hend _), hfetch,
    pieces_append (.of_begins hbegin _), pieces_ofNat, pieces_append (.of_begins ht _), honly]
  simp only [List.append_assoc, List.cons_append, List.nil_append]

theorem isFetch_of_mem_offsetPieces : ∀ p ∈ offsetPieces, isFetch p = false := by decide

/-- No piece between the `FETCH` and the `ONLY` that are put in is a `FETCH`. -/
theorem isFetch_of_mem_countPieces {n : Nat} :
    ∀ p ∈ [[' '], "NEXT".toList, [' '], Text.ofNat n, [' '], "ROWS".toList, [' ']], isFetch p = false := by
  have key : [[' '], "NEXT".toList, "ROWS".toList].all (!isFetch ·) = true := by decide
  intro p hp
  by_cases hnumber : p = Text.ofNat n
  · rw [hnumber, isFetch_ofNat]
  · have hmem : p ∈ [[' '], "NEXT".toList, "ROWS".toList] := by
      simp only [List.mem_cons] at hp ⊢
      tauto
    simpa using List.all_eq_true.1 key p hmem

theorem countFetches_offsetText (before : List Text) (n : Nat) {t : Text}
    (ht : beginsInWord t = false) :
    countFetches before (pieces (offsetText n ++ t)) = fetchWords t := by
  rw [pieces_offsetText_append n ht, countFetches_append_eq isFetch_of_mem_offsetPieces,
    countFetches_cons_of_prefix (List.prefix_append _ _), countFetches_append_eq isFetch_of_mem_countPieces,
    countFetches_cons_of_not (by decide), countFetches_cons_barrier (by decide), fetchWords]

/-! ## One step -/

theorem matches_offsetBefore {u : Text} (hu : endsInWord u = false) :
    Matches offsetBefore u offsetPieces.flatten [] := by
  have hedge : Matches edge u [] (['O', 'F', 'F', 'S', 'E', 'T'] ++
      ([' '] ++ (['0'] ++ ([' '] ++ (['R', 'O', 'W'] ++ (['S'] ++ ([' '] ++ []))))))) :=
    matches_edge.2 ⟨rfl, by rw [hu]; decide⟩
  have hoffset := matches_seq.2 ⟨_, _, rfl, hedge, matches_word.2 (by decide :
    Spelled "OFFSET".toList ['O', 'F', 'F', 'S', 'E', 'T'])⟩
  have hblank := matches_seq.2 ⟨_, _, rfl, hoffset, matches_blanks1.2 (by decide)⟩
  have hzero := matches_seq.2 ⟨_, _, rfl, hblank, (matches_many1_one (s := .digit)).2 (by decide)⟩
  have hblank' := matches_seq.2 ⟨_, _, rfl, hzero, matches_blanks1.2 (by decide)⟩
  have hrow := matches_seq.2 ⟨_, _, rfl, hblank', matches_word.2 (by decide :
    Spelled "ROW".toList ['R', 'O', 'W'])⟩
  have hrows := matches_seq.2 ⟨_, _, rfl, hrow, matches_opt.2 (.inl (matches_word.2 (by decide :
    Spelled "S".toList ['S'])))⟩
  have hspace := matches_seq.2 ⟨_, _, rfl, hrows, (matches_many_one (s := .blank)).2 (by decide)⟩
  have hall := matches_seq.2 ⟨_, _, rfl, hspace, (matches_check (a := .textEnd)).2 ⟨rfl, rfl⟩⟩
  exact hall

/-- `OFFSET 0 ROWS ` right before a place in code is found there. -/
theorem not_prefix_of_occursIn {t : Text} (hlive : (code.after t).live = true)
    (h : offsetBefore.occursIn (mask t) = false) : ¬ offsetPieces.reverse <+: (pieces t).reverse := by
  rw [List.reverse_prefix]
  rintro ⟨ps, hps⟩
  have hplain : ∀ c ∈ offsetPieces.flatten, isPlain c = true ∧ c ≠ '\n' := by
    have key : offsetPieces.flatten.all (fun c => isPlain c && c != '\n') = true := by decide
    intro c hc
    simpa using List.all_eq_true.1 key c hc
  obtain ⟨-, -, hapart⟩ := pieces_eq_append hps.symm
  obtain rfl : t = ps.flatten ++ offsetPieces.flatten := by
    rw [← List.flatten_append, hps, flatten_pieces]
  have hcode : (code.after ps.flatten).live = true := by
    by_contra hdead
    rw [after_append, live_after_dull (by simpa using hdead) fun c hc =>
      isDull_of_ne (hplain c hc).1 (hplain c hc).2 _] at hlive
    exact absurd hlive (by decide)
  have hend : endsInWord (mask ps.flatten) = false := by
    rw [endsInWord_mask hcode]
    by_contra hword
    exact absurd (hapart (by simpa using hword)) (by decide)
  have hmask : mask (ps.flatten ++ offsetPieces.flatten) =
      mask ps.flatten ++ (offsetPieces.flatten ++ []) := by
    have := mask_plain_between (b := []) hcode (fun c hc => (hplain c hc).1)
      (by decide : offsetPieces.flatten ≠ [])
    rwa [List.append_nil, mask_nil] at this
  rw [hmask, occursIn_of_matches (matches_offsetBefore hend)] at h
  exact absurd h (by decide)

variable {sql a b f y o c : Text}

theorem FetchCut.pieces_eq (h : FetchCut sql a b f y o c) :
    pieces sql = pieces (a ++ b) ++ f :: (pieces y ++ o :: pieces c) := by
  have hname : isName "FETCH".toList = true := by decide
  have hname' : isName "ONLY".toList = true := by decide
  rw [h.split, pieces_append (.of_ends h.left _), pieces_append (.of_begins h.behind _),
    pieces_append (.of_ends h.before _), pieces_append (.of_begins h.right _),
    pieces_word (h.fetch.ne_nil hname) (h.fetch.isWordChar hname),
    pieces_word (h.only.ne_nil hname') (h.only.isWordChar hname')]
  rfl

/-- The `FETCH` of a clause that a step changes counts. -/
theorem FetchCut.fetchWords_lt (h : FetchCut sql a b f y o c)
    (hoffset : offsetBefore.occursIn (mask (a ++ b)) = false) :
    fetchWords (a ++ b) + fetchWords c < fetchWords sql := by
  have honly : isFetch o = false := isFetch_of_spelled h.only (by decide)
  have hbarrier : o ∉ offsetPieces := not_mem_offsetPieces h.only (by decide)
  have hfetch : isFetch f = true := decide_eq_true h.fetch
  rw [fetchWords, fetchWords, fetchWords, h.pieces_eq, countFetches_append, List.append_nil,
    countFetches_cons_of_isFetch hfetch (not_prefix_of_occursIn h.live hoffset), countFetches_append,
    countFetches_cons_of_not honly, countFetches_cons_barrier hbarrier]
  omega

theorem FetchCut.fetchWords_front_le (h : FetchCut sql a b f y o c) :
    fetchWords a ≤ fetchWords (a ++ b) := by
  rw [fetchWords, fetchWords, pieces_append h.front, countFetches_append]
  omega

/-- A `TOP` in the heading does not bring a `FETCH` about. -/
theorem fetchWords_topText_le {x s z : Text} (n : Nat) (hs : IsHeadWord s) (hx : endsInWord x = false)
    (hz : beginsInWord (z ++ c) = false) (hc : beginsInWord c = false) :
    fetchWords (x ++ s ++ (topText n ++ (z ++ c))) ≤ fetchWords (x ++ (s ++ z)) + fetchWords c := by
  obtain ⟨t, hname, hspelled⟩ := hs.exists_name
  obtain ⟨hfetch, hbarrier⟩ := hs.counts
  have hz' : beginsInWord z = false := by
    by_cases hne : z = []
    · rw [hne]
      rfl
    · rwa [beginsInWord_append hne] at hz
  have hword := pieces_word (hspelled.ne_nil hname) (hspelled.isWordChar hname)
  have htop : ∀ p ∈ [[' '], "TOP".toList, [' '], Text.ofNat n], isFetch p = false := by
    have key : [[' '], "TOP".toList].all (!isFetch ·) = true := by decide
    intro p hp
    by_cases hnumber : p = Text.ofNat n
    · rw [hnumber, isFetch_ofNat]
    · have hmem : p ∈ [[' '], "TOP".toList] := by
        simp only [List.mem_cons] at hp ⊢
        tauto
      simpa using List.all_eq_true.1 key p hmem
  have hold : fetchWords (x ++ (s ++ z)) = fetchWords x + fetchWords z := by
    rw [fetchWords, pieces_append (.of_ends hx _), pieces_append (.of_begins hz' _), hword,
      countFetches_append, List.singleton_append, countFetches_cons_of_not hfetch,
      countFetches_cons_barrier hbarrier]
    rfl
  have hnew : pieces (x ++ s ++ (topText n ++ (z ++ c))) =
      pieces x ++ (s :: ([[' '], "TOP".toList, [' '], Text.ofNat n] ++ (pieces z ++ pieces c))) := by
    rw [List.append_assoc, pieces_append (.of_ends hx _), pieces_append (.of_begins rfl _), hword,
      pieces_topText_append n hz, pieces_append (.of_begins hc _)]
    rfl
  rw [hold, fetchWords, hnew, countFetches_append, countFetches_cons_of_not hfetch,
    countFetches_append_eq htop, countFetches_append]
  have hz := countFetches_le ([[' '], "TOP".toList, [' '], Text.ofNat n].reverse ++
    s :: ((pieces x).reverse ++ [])) (pieces z)
  have hc := countFetches_le ((pieces z).reverse ++ ([[' '], "TOP".toList, [' '],
    Text.ofNat n].reverse ++ s :: ((pieces x).reverse ++ []))) (pieces c)
  rw [fetchWords, fetchWords, fetchWords]
  omega

/-- A step settles a `FETCH`. -/
theorem shrinks_fetchStep : Shrinks fetchStep fetchWords := by
  intro sql
  refine yields_findSomeM? fun m hm => ?_
  obtain ⟨r, hr, hnext⟩ := exists_moveFetch hm
  refine ⟨r, hr, fun next hmem => ?_⟩
  obtain ⟨a, b, f, y, o, c, n, hcut, hoffset, rfl | ⟨x, s, z, rfl, hs, hx, hz, rfl⟩⟩ := hnext next hmem
  · calc fetchWords (a ++ b ++ (offsetText n ++ c))
        = fetchWords (a ++ b) + fetchWords c := by
          rw [fetchWords, pieces_append (.of_ends hcut.left _), countFetches_append,
            countFetches_offsetText _ n hcut.right]
          rfl
      _ < fetchWords sql := hcut.fetchWords_lt hoffset
  · calc fetchWords (x ++ s ++ (topText n ++ (z ++ c)))
        ≤ fetchWords (x ++ (s ++ z)) + fetchWords c := fetchWords_topText_le n hs hx hz hcut.right
      _ ≤ fetchWords (x ++ (s ++ z) ++ b) + fetchWords c :=
          Nat.add_le_add_right hcut.fetchWords_front_le _
      _ < fetchWords sql := hcut.fetchWords_lt hoffset

end DialectBridge.ToTsql
