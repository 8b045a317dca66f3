import DialectBridge.Proofs.FetchPasses
import DialectBridge.Proofs.TopPasses
/-!
# Row limits settle, if there are passes enough

The rules that move row limits repeat a step, at most `maxPasses` times. Each step settles one
limit, so that on every query the steps come to an end; the rules get there just when the query
takes no more steps than there are passes (`rowLimits_settle`).

No fixed number of passes is enough for all queries. A condition is put in behind the headings of all
queries that begin before it, so of some queries inside each other every `TOP` takes a step of its own,
from the outermost to the innermost (`le_of_reaches_nested`).
-/
namespace DialectBridge.ToOracle
open Pattern LexState

/-! ## Text in front of the condition -/

/-- A text in which no condition is put, and behind which a block goes on. -/
structure Unconditioned (k : Text) : Prop where
  plain : ∀ e ∈ k, isPlain e = true
  noWhere : ∀ e ∈ k, e ∉ Unicode.caseVariants 'W'
  noClause : ∀ p ∈ pieces k, ∀ e ∈ p.head?, e ∉ clauseHeads
  noClose : ')' ∉ k
  last : ∀ e ∈ k.getLast?, isBlockEnd e = false

theorem FilterAdded.exists_append {n q k d c c' : Text} {place : FilterPlace}
    (h : FilterAdded n q c place c') (hk : Unconditioned k) (hc : c = k ++ d) :
    ∃ d', c' = k ++ d' := by
  cases h with
  | @conditions p kept tail r ors h hkept htail hors =>
    rcases List.append_eq_append_iff.1 hc with ⟨a, rfl, -⟩ | ⟨a, rfl, -⟩
    · obtain ⟨u, w, rfl, hw⟩ := h.word
      have hw : Spelled ('W' :: "HERE".toList) w := hw
      obtain ⟨e, w, he, -, rfl⟩ := List.forall₂_cons_left_iff.1 hw
      exact absurd he (hk.noWhere e (by simp))
    · split_ifs
      · exact ⟨_, List.append_assoc _ _ _⟩
      · exact ⟨_, List.append_assoc _ _ _⟩
  | @clause p s s' r h hs hs' hne hlive =>
    rcases List.append_eq_append_iff.1 hc with ⟨a, rfl, hr⟩ | ⟨a, rfl, -⟩
    · cases a with
      | nil => exact ⟨s ++ (whereText n ++ (s' ++ r)), by rw [List.append_nil]⟩
      | cons e a =>
        obtain ⟨e', r', rfl, he⟩ := h.head
        obtain rfl : e' = e := (List.cons.inj hr).1
        have hword : endsInWord p = false := by
          rw [← endsInWord_mask h.live]
          exact h.left
        obtain ⟨w, ws, hpieces⟩ := exists_pieces_cons e' a
        have hmem : e' :: w ∈ pieces (p ++ e' :: a) := by
          rw [pieces_append (.of_ends hword _), hpieces]
          simp
        exact absurd he (hk.noClause _ hmem e' rfl)
    · exact ⟨_, List.append_assoc _ _ _⟩
  | @atEnd content tail r h hcontent htail =>
    rw [List.append_assoc] at hc
    rcases List.append_eq_append_iff.1 hc with ⟨a, rfl, hr⟩ | ⟨a, rfl, -⟩
    · by_cases ha : a = []
      · exact ⟨separator content ++ (whereText n ++ (tail ++ r)), by rw [ha, List.append_nil]⟩
      have hlast := hk.last (a.getLast ha) (by
        rw [List.getLast?_append_of_ne_nil _ ha, List.getLast?_eq_some_getLast ha]
        rfl)
      rcases List.append_eq_append_iff.1 hr with ⟨b, rfl, hb⟩ | ⟨b, rfl, -⟩
      · cases b with
        | nil =>
          have := htail (tail.getLast (by simpa using ha)) (List.getLast_mem _)
          simp [this] at hlast
        | cons e b =>
          obtain rfl := h.stop e (by rw [hb]; rfl)
          exact absurd (by simp) hk.noClose
      · rw [htail _ (List.mem_append_left _ (List.getLast_mem ha))] at hlast
        exact absurd hlast (by decide)
    · exact ⟨_, List.append_assoc _ _ _⟩

/-! ## The queries -/

def openQuery : Text := ['S', 'E', 'L', 'E', 'C', 'T', ' ', '(']

def openTopQuery : Text := ['S', 'E', 'L', 'E', 'C', 'T', ' ', 'T', 'O', 'P', ' ', '1', ' ', '(']

/-- Queries inside each other: the first `i` without a `TOP`, the next `j` with one. -/
def nested (i j : Nat) (d : Text) : Text :=
  (List.replicate i openQuery).flatten ++ ((List.replicate j openTopQuery).flatten ++ 'x' :: d)

theorem foldl_add_of (u l : Text) : l.foldl (fun p c => p.add c) (Passed.of u) = .of (u ++ l) := by
  induction l generalizing u with
  | nil => rw [List.append_nil, List.foldl_nil]
  | cons c l ih => rw [List.foldl_cons, Passed.add_of, ih, List.append_assoc, List.singleton_append]

theorem findAllFrom_openQuery (u t : Text) :
    topClause.findAllFrom topClause.leading? 0 false false (.of u) (openQuery ++ t) =
      topClause.findAllFrom topClause.leading? 0 false false (.of (u ++ openQuery)) t := by
  have hfirst : topClause.matchAt? ⟨.of u, openQuery ++ t⟩ = none := by
    have hedge : topClause.matchAt? ⟨.of u, openQuery ++ t⟩ =
        if Assertion.holds (.wordEdge .word) ⟨.of u, openQuery ++ t⟩ = true then none else none := rfl
    rw [hedge, ite_self]
  rw [← foldl_add_of]
  calc topClause.findAllFrom topClause.leading? 0 false false (.of u) (openQuery ++ t)
      = _ := findAllFrom_cons_of_none hfirst false
    _ = _ := findAllFrom_cons_of_none rfl false
    _ = _ := findAllFrom_cons_of_none rfl false
    _ = _ := findAllFrom_cons_of_none rfl false
    _ = _ := findAllFrom_cons_of_none rfl false
    _ = _ := findAllFrom_cons_of_none rfl false
    _ = _ := findAllFrom_cons_of_none rfl false
    _ = _ := findAllFrom_cons_of_none rfl false

theorem findAllFrom_replicate (i : Nat) (u t : Text) :
    topClause.findAllFrom topClause.leading? 0 false false (.of u)
        ((List.replicate i openQuery).flatten ++ t) =
      topClause.findAllFrom topClause.leading? 0 false false
        (.of (u ++ (List.replicate i openQuery).flatten)) t := by
  induction i generalizing u with
  | zero => simp
  | succ i ih =>
    rw [List.replicate_succ, List.flatten_cons, List.append_assoc, findAllFrom_openQuery, ih,
      List.append_assoc]

/-- The place behind the first `i` characters of the start of a query behind `u`. -/
def insideQuery (u t : Text) (i : Nat) : Cursor :=
  ⟨(openTopQuery.take i).foldl (fun l c => l.add c) (.of u), openTopQuery.drop i ++ t⟩

theorem exists_matchAt?_openTopQuery {u : Text} (hu : endsInWord u = false) (t : Text) :
    ∃ m, topClause.matchAt? ⟨.of u, openTopQuery ++ t⟩ = some m ∧ m.start = Text.width u ∧
      m.stop = Text.width u + 13 ∧ m.groupSpan? 1 = none ∧ m.last.right = '(' :: t := by
  have hedge : topClause.matchAt? ⟨.of u, openTopQuery ++ t⟩ =
      if endsInWord u != true then
        some ⟨⟨.of u, openTopQuery ++ t⟩, insideQuery u t 13,
          [(3, insideQuery u t 11, insideQuery u t 12)]⟩
      else none := rfl
  rw [hu] at hedge
  refine ⟨_, hedge, rfl, ?_, rfl, rfl⟩
  have hwidth : Text.width (openTopQuery.take 13) = 13 := by decide
  simp only [Match.stop, insideQuery, foldl_add_of, Cursor.offset]
  rw [← hwidth, ← Text.width_append]
  rfl

/-- No word is no modifier. -/
theorem topModifier_occursIn_cons {e : Char} (h : Unicode.isWordChar e = false) (t : Text) :
    topModifier.occursIn (e :: t) = false := by
  by_contra hfound
  obtain ⟨m, hm⟩ := Option.isSome_iff_exists.1 (Bool.not_eq_false _ ▸ hfound :
    (topModifier.find? (e :: t)).isSome = true)
  obtain ⟨u, x, hsplit, hat⟩ := exists_of_find? hm
  obtain ⟨w, v, rfl, -, -, hw⟩ := matchAt?_eq_some hat
  obtain ⟨w, b, rfl, hw, -⟩ := matches_seq.1 (⟨_, _, hw⟩ : Matches topModifier u w v)
  obtain ⟨a, w, rfl, ha, hw⟩ := matches_seq.1 hw
  obtain ⟨rfl, hstart⟩ := matches_check.1 ha
  obtain rfl : u = [] := by simpa [Assertion.holds, Cursor.between, Passed.of] using hstart
  have hbegins : beginsInWord (w ++ (b ++ v)) = true := by
    obtain ⟨p, hp, hw⟩ := matches_oneOf.1 hw
    simp only [List.mem_cons, List.not_mem_nil, or_false] at hp
    rcases hp with rfl | rfl
    · exact (matches_word.1 hw).beginsInWord (by decide) _
    · obtain ⟨w, ties, rfl, hw, -⟩ := matches_seq.1 hw
      obtain ⟨k, blanks, rfl, hk, -⟩ := matches_seq.1 hw
      rw [List.append_assoc, List.append_assoc]
      exact (matches_word.1 hk).beginsInWord (by decide) _
  have hsame : w ++ (b ++ v) = e :: t := by simpa using hsplit.symm
  rw [hsame, beginsInWord_cons, h] at hbegins
  exact absurd hbegins (by decide)

theorem isPlain_of_mem_replicate {unit : Text} (h : ∀ e ∈ unit, isPlain e = true) (i : Nat) :
    ∀ e ∈ (List.replicate i unit).flatten, isPlain e = true := by
  intro e he
  obtain ⟨l, hl, he⟩ := List.mem_flatten.1 he
  exact h e (List.eq_of_mem_replicate hl ▸ he)

theorem endsInWord_openQueries (i : Nat) :
    endsInWord (List.replicate i openQuery).flatten = false := by
  cases i with
  | zero => rfl
  | succ i =>
    rw [List.replicate_succ', List.flatten_append, List.flatten_singleton,
      endsInWord_append (by decide)]
    decide

/-- The next `TOP` of a nest is that of the first query that has one. -/
theorem exists_nextTop?_nested (i j : Nat) (d : Text) :
    ∃ m, nextTop? (nested i (j + 1) d) = some m ∧
      dropTop? (nested i (j + 1) d) m =
        some (nested (i + 1) j d, Text.width ((List.replicate i openQuery).flatten) + 7) := by
  have hplain := isPlain_of_mem_replicate (List.all_eq_true.1 (by decide : openQuery.all isPlain = true)) i
  have hplain' : ∀ e ∈ openTopQuery, isPlain e = true := List.all_eq_true.1 (by decide)
  have hword := endsInWord_openQueries i
  have hfind := findAllFrom_replicate i []
  have hopen : nested (i + 1) j d = (List.replicate i openQuery).flatten ++
      (openQuery ++ ((List.replicate j openTopQuery).flatten ++ 'x' :: d)) := by
    rw [nested, List.replicate_succ', List.flatten_append, List.flatten_singleton, List.append_assoc]
  rw [hopen, nested, List.replicate_succ, List.flatten_cons, List.append_assoc]
  generalize (List.replicate i openQuery).flatten = a at hplain hword hfind ⊢
  generalize (List.replicate j openTopQuery).flatten ++ 'x' :: d = t
  obtain ⟨m, hat, hstart, hstop, hspan, hright⟩ := exists_matchAt?_openTopQuery hword (mask t)
  refine ⟨m, ?_, ?_⟩
  · have hwidth : m.width = 12 + 1 := by rw [Match.width, hstart, hstop]; omega
    obtain ⟨ms, hms⟩ : ∃ ms, topClause.findAll (mask (a ++ (openTopQuery ++ t))) = m :: ms := by
      rw [mask_plain_append hplain, mask_plain_append hplain']
      have hsearch := hfind (openTopQuery ++ mask t)
      rw [List.nil_append, Passed.of_nil] at hsearch
      have hat' : topClause.matchAt? ⟨.of a, 'S' :: (openTopQuery.drop 1 ++ mask t)⟩ = some m := hat
      have hcons : openTopQuery ++ mask t = 'S' :: (openTopQuery.drop 1 ++ mask t) := rfl
      rw [findAll, hsearch, hcons, findAllFrom]
      simp only [Bool.false_eq_true, if_false, hat', hwidth]
      exact ⟨_, rfl⟩
    have hplace : (!topModifier.occursIn m.last.right) = true := by
      rw [hright, topModifier_occursIn_cons (by decide)]
      rfl
    rw [nextTop?, hms]
    simp only [List.filter_cons, hplace, if_true, List.head?_cons]
  · have hquery : a ++ (['S', 'E', 'L', 'E', 'C', 'T'] ++ []) ++ [' '] ++ '(' :: t =
        a ++ (openQuery ++ t) := by
      rw [List.append_assoc, List.append_assoc]
      rfl
    have hbody : Text.width (a ++ (['S', 'E', 'L', 'E', 'C', 'T'] ++ []) ++ [' ']) =
        Text.width a + 7 := by
      rw [Text.width_append, Text.width_append]
      rfl
    have hdrop : dropTop? (a ++ (['S', 'E', 'L', 'E', 'C', 'T'] ++ [] ++ ([] ++
        ([' ', 'T', 'O', 'P', ' ', '1'] ++ ([' '] ++ '(' :: t))))) m =
          some (a ++ (['S', 'E', 'L', 'E', 'C', 'T'] ++ []) ++ [' '] ++ '(' :: t,
            Text.width (a ++ (['S', 'E', 'L', 'E', 'C', 'T'] ++ []) ++ [' '])) :=
      dropTop?_eq hstart rfl (.inl ⟨rfl, hspan⟩) (by rw [hstop, Text.width_append]; rfl)
    rw [hquery, hbody] at hdrop
    exact hdrop

theorem mem_pieces_replicate {j : Nat} {p : Text}
    (h : p ∈ pieces ((List.replicate j openTopQuery).flatten ++ ['x'])) :
    p ∈ ['x'] :: pieces openTopQuery := by
  have hend : endsInWord openTopQuery = false := by decide
  induction j with
  | zero => exact List.mem_cons.2 (.inl (List.mem_singleton.1 h))
  | succ j ih =>
    rw [List.replicate_succ, List.flatten_cons, List.append_assoc, pieces_append (.of_ends hend _)] at h
    rcases List.mem_append.1 h with h | h
    · exact List.mem_cons_of_mem _ h
    · exact ih h

/-- The text of a nest up to its innermost query. -/
theorem unconditioned_nested (j : Nat) :
    Unconditioned ('(' :: ((List.replicate j openTopQuery).flatten ++ ['x'])) := by
  have hmem : ∀ e ∈ '(' :: ((List.replicate j openTopQuery).flatten ++ ['x']),
      e ∈ '(' :: 'x' :: openTopQuery := by
    intro e he
    rcases List.mem_cons.1 he with rfl | he
    · simp
    rcases List.mem_append.1 he with he | he
    · obtain ⟨l, hl, he⟩ := List.mem_flatten.1 he
      rw [List.eq_of_mem_replicate hl] at he
      simp [he]
    · simp [List.mem_singleton.1 he]
  have key : ('(' :: 'x' :: openTopQuery).all (fun e => isPlain e &&
      !(Unicode.caseVariants 'W').contains e && e != ')') = true := by decide
  have hkey : ∀ e ∈ '(' :: ((List.replicate j openTopQuery).flatten ++ ['x']),
      (isPlain e = true ∧ e ∉ Unicode.caseVariants 'W') ∧ e ≠ ')' := by
    intro e he
    simpa using List.all_eq_true.1 key e (hmem e he)
  refine ⟨fun e he => (hkey e he).1.1, fun e he => (hkey e he).1.2, fun p hp => ?_,
    fun h => (hkey _ h).2 rfl, by rw [← List.cons_append, List.getLast?_concat]; decide⟩
  have hwords : (['('] :: ['x'] :: pieces openTopQuery).all (fun p =>
      p.head?.all (fun e => !clauseHeads.contains e)) = true := by decide
  have hmem : p ∈ ['('] :: ['x'] :: pieces openTopQuery := by
    rw [pieces_cons_of_not_word (by decide)] at hp
    rcases List.mem_cons.1 hp with rfl | hp
    · simp
    · exact List.mem_cons_of_mem _ (mem_pieces_replicate hp)
  simpa [Option.all_eq_true] using List.all_eq_true.1 hwords p hmem

/-- A step takes the `TOP` of one query out of a nest. -/
theorem exists_topStep_nested (i j : Nat) (d : Text) :
    ∃ d', Gives (topStep (nested i (j + 1) d)) (some (nested (i + 1) j d')) := by
  obtain ⟨m, hnext, hdrop⟩ := exists_nextTop?_nested i j d
  obtain ⟨n, q, c, hnumber, hdropped⟩ := exists_topDropped (mem_of_nextTop? hnext)
  obtain ⟨place, c', -, hadd, hadded⟩ := exists_filterAdded n hdropped.behind hdropped.blank c
  -- the heading ends behind the `SELECT` of the query
  have hsame : q ++ c = (List.replicate i openQuery).flatten ++ openQuery.take 7 ++
      ('(' :: ((List.replicate j openTopQuery).flatten ++ ['x']) ++ d) ∧
        Text.width q = Text.width ((List.replicate i openQuery).flatten ++ openQuery.take 7) := by
    have := hdropped.drop.symm.trans hdrop
    simp only [Option.some.injEq, Prod.mk.injEq] at this
    refine ⟨this.1.trans ?_, this.2.trans ?_⟩
    · rw [nested, List.replicate_succ', List.flatten_append, List.flatten_singleton]
      simp [openQuery]
    · rw [Text.width_append]
      rfl
  obtain ⟨rfl, rfl⟩ := Text.append_inj_of_width hsame.1 hsame.2
  obtain ⟨d', rfl⟩ := hadded.exists_append (unconditioned_nested j) rfl
  refine ⟨d', fun raised => ?_⟩
  obtain ⟨raised', hrun⟩ := exists_run_topStep hnext hnumber hdropped hadd raised
  refine ⟨raised', hrun.trans ?_⟩
  rw [nested, List.replicate_succ', List.flatten_append, List.flatten_singleton]
  simp [openQuery]

/-- Every `TOP` of a nest takes a step. -/
theorem le_of_reaches_nested {i j k : Nat} {d out : Text} (h : DialectBridge.Reaches topStep k (nested i j d) out) :
    j ≤ k := by
  induction j generalizing i k d with
  | zero => exact Nat.zero_le k
  | succ j ih =>
    obtain ⟨d', hstep⟩ := exists_topStep_nested i j d
    cases h with
    | done hnone => exact absurd (hnone.unique hstep []) (by simp)
    | more hnext _ hrest =>
      obtain rfl := Option.some.inj (hnext.unique hstep [])
      exact Nat.succ_le_succ (ih hrest)

end DialectBridge.ToOracle
namespace DialectBridge

/-- A query takes at most as many steps as its code has words that are `TOP` alone or with the
digits of its number right behind it, or its text has `FETCH`es not right behind `OFFSET 0 ROWS `.
The rules leave something to do just if it takes too many. -/
theorem rowLimits_settle (sql : Text) :
    (∃ k out res, k ≤ ToOracle.topWords sql ∧ Reaches ToOracle.topStep k sql out ∧
      Gives (ToOracle.topToRownum sql) res ∧
      (Gives (ToOracle.topStep res) none ↔ k ≤ maxPasses) ∧
      (Gives (ToOracle.topToRownum res) res ↔ k ≤ maxPasses)) ∧
    ∃ k out res, k ≤ ToTsql.fetchWords sql ∧ Reaches ToTsql.fetchStep k sql out ∧
      Gives (ToTsql.fetchFirst sql) res ∧
      (Gives (ToTsql.fetchStep res) none ↔ k ≤ maxPasses) ∧
      (Gives (ToTsql.fetchFirst res) res ↔ k ≤ maxPasses) :=
  ⟨ToOracle.shrinks_topStep.exists_fixpoint sql, ToTsql.shrinks_fetchStep.exists_fixpoint sql⟩

/-- Of 65 queries inside each other the innermost keeps its `TOP`. -/
theorem topToRownum_nested :
    ∃ res, Gives (ToOracle.topToRownum (ToOracle.nested 0 65 (List.replicate 65 ')'))) res ∧
      ¬ Gives (ToOracle.topStep res) none ∧ ¬ Gives (ToOracle.topToRownum res) res := by
  obtain ⟨k, out, res, -, hreaches, hres, hnone, hself⟩ :=
    ToOracle.shrinks_topStep.exists_fixpoint (ToOracle.nested 0 65 (List.replicate 65 ')'))
  have hmore : ¬ k ≤ maxPasses := by
    have := ToOracle.le_of_reaches_nested hreaches
    have hpasses : maxPasses = 64 := rfl
    omega
  exact ⟨res, hres, fun h => hmore (hnone.1 h), fun h => hmore (hself.1 h)⟩

end DialectBridge
