import DialectBridge.Proofs.CommentCuts
import DialectBridge.Proofs.OpenFetches
import DialectBridge.Proofs.TopInsertion
import DialectBridge.Proofs.TopPasses
/-!
# What the steps of row limits use up

A test of `ROWNUM` takes its word with it, in the whole text, and a `TOP` clause takes a `TOP` out of the code. A
`FETCH` clause goes with its word, or stays behind an `OFFSET` and is no longer open. None of these texts comes back,
so every sequence of steps has an end (`rowLimit_steps_decrease`).
-/
namespace DialectBridge
open Pattern LexState

def occurrences (name t : Text) : Nat := ((keyword name).findAll t).length

theorem occurrences_eq {name : Text} (hname : isName name = true) (t : Text) :
    occurrences name t = (pieces t).countP (decide <| Spelled name ·) := length_findAll_keyword hname t

theorem occurrences_append {name a b : Text} (hname : isName name = true) (h : Apart a b) :
    occurrences name (a ++ b) = occurrences name a + occurrences name b := by
  rw [occurrences_eq hname, occurrences_eq hname, occurrences_eq hname, pieces_append h, List.countP_append]

theorem occurrences_spelled {name w : Text} (hname : isName name = true) (hw : Spelled name w) :
    occurrences name w = 1 := by
  rw [occurrences_eq hname, pieces_word (hw.ne_nil hname) (hw.isWordChar hname), List.countP_singleton,
    decide_eq_true hw]
  rfl

/-! ## The texts that are put in -/

namespace ToTsql

/-- A word that begins in a letter and is not `TOP` is not put into a heading. -/
theorem not_spelled_of_mem_topPieces {name p : Text} {n : Nat} (hname : isName name = true)
    (hletter : ∀ c ∈ name.head?, (Unicode.caseVariants c).all (!CharSet.digit.contains ·) = true)
    (htop : differ "TOP".toList name = true) (hp : p ∈ [[' '], "TOP".toList, [' '], Text.ofNat n]) :
    ¬ Spelled name p := by
  have hblank : ¬ Spelled name [' '] := fun hs => absurd (hs.isWordChar hname ' ' (by simp)) (by decide)
  simp only [List.mem_cons, List.not_mem_nil, or_false] at hp
  rcases hp with rfl | rfl | rfl | rfl
  · exact hblank
  · exact (spelled_self "TOP".toList).not_of_differ htop
  · exact hblank
  · obtain ⟨c, t, rfl⟩ : ∃ c t, name = c :: t := by
      refine List.exists_cons_of_ne_nil ?_
      rintro rfl
      cases hname
    exact not_spelled_of_isNumber (isNumber_ofNat n) (hletter c rfl)

/-- What is put into a heading brings no other word about. -/
theorem occurrences_insert_top {name x s y : Text} {n : Nat} (hname : isName name = true)
    (hletter : ∀ c ∈ name.head?, (Unicode.caseVariants c).all (!CharSet.digit.contains ·) = true)
    (htop : differ "TOP".toList name = true) (hx : endsInWord x = false) (hy : beginsInWord y = false) :
    occurrences name (x ++ s ++ (topText n ++ y)) = occurrences name (x ++ (s ++ y)) := by
  have hnone : ([[' '], "TOP".toList, [' '], Text.ofNat n] : List Text).countP (decide <| Spelled name ·) = 0 :=
    List.countP_eq_zero.2 fun p hp => by simp [not_spelled_of_mem_topPieces hname hletter htop hp]
  have hinsert : occurrences name (topText n ++ y) = occurrences name y := by
    rw [occurrences_eq hname, occurrences_eq hname, pieces_topText_append n hy, List.countP_append, hnone, Nat.zero_add]
  rw [List.append_assoc, occurrences_append hname (.of_ends hx _), occurrences_append hname (.of_ends hx _),
    occurrences_append hname (.of_begins rfl s), occurrences_append hname (.of_begins hy s), hinsert]

/-! ## Tests of `ROWNUM` -/

theorem endsFirm_digits1 : EndsFirm digits1 := by
  intro u w v h
  obtain ⟨hne, hdigits⟩ := (matches_many1_one (s := .digit)).1 h
  obtain ⟨k, z, rfl⟩ := (List.eq_nil_or_concat w).resolve_left hne
  exact ⟨k, z, by simp, isFirm_of_isWordChar (isWordChar_of_isDigit (hdigits z (by simp)))⟩

theorem endsFirm_rownumTest : EndsFirm rownumTest := by
  have hnumber : EndsFirm (.group 2 digits1) := fun u w v h => endsFirm_digits1 u w v (matches_group.1 h)
  have hone : EndsFirm (sym '1') := fun u w v h => ⟨[], '1', matches_sym.1 h, by decide⟩
  exact (hnumber.seq _).alt (hone.seq _) |>.seq _

theorem firm_of_mem_rownumForms {form : RownumForm} (hform : form ∈ rownumForms) :
    BeginsFirm form.pattern ∧ EndsFirm form.pattern := by
  have hblanks1 : ∀ u w v, Matches blanks1 u w v → ∀ c ∈ w, Unicode.isBlank c = true :=
    fun u w v h => (matches_blanks1.1 h).2
  have hedge : ∀ u w v, Matches edge u w v → ∀ c ∈ w, Unicode.isBlank c = true := by
    intro u w v h
    rw [(matches_edge.1 h).1]
    simp
  simp only [rownumForms, List.mem_cons, List.not_mem_nil, or_false] at hform
  rcases hform with rfl | rfl | rfl
  · refine ⟨?_, ((endsFirm_word (by decide)).seq _).edge⟩
    iterate 5 refine .seq ?_ _
    exact .of_blank hedge (beginsFirm_word (by decide))
  · refine ⟨?_, (endsFirm_rownumTest.seq _).edge⟩
    iterate 3 refine .seq ?_ _
    exact .of_blank hblanks1 (beginsFirm_word (by decide))
  · refine ⟨?_, (endsFirm_rownumTest.seq _).edge⟩
    iterate 3 refine .seq ?_ _
    exact beginsFirm_blanks_word (by decide)

/-- A query cut at a test of `ROWNUM`, which takes its word with it. -/
theorem occurrences_rownum_lt {sql a w c : Text} {form : RownumForm} {m : Match} (hform : form ∈ rownumForms)
    (hm : m ∈ form.pattern.findAll (mask sql)) (hsql : sql = a ++ w ++ c) (hstart : m.start = Text.width a)
    (hstop : m.stop = Text.width (a ++ w)) :
    Apart a (form.kept.toList ++ c) ∧
      occurrences "ROWNUM" (a ++ (form.kept.toList ++ c)) < occurrences "ROWNUM" sql := by
  obtain ⟨hbegin, hend⟩ := firm_of_mem_rownumForms hform
  have hremoved := removed_of_mem_findAll (framed_of_mem_rownumForms form hform) hbegin hend hm
    (by rw [hsql, List.append_assoc]) hstart hstop
  rw [List.append_assoc] at hsql
  subst hsql
  obtain ⟨hfront, hc, l, r, z, hw, hrownum, hl, hz⟩ :=
    exists_of_rownumForm hform (hremoved.matches hm hstart hstop)
  rw [endsInWord_mask hremoved.live, beginsInWord_mask] at hfront
  rw [beginsInWord_mask] at hc
  have hname : isName "ROWNUM".toList = true := by decide
  obtain ⟨x, y, rfl, hx, hy, hlive, -⟩ := exists_cut_word (hrownum.ne_nil hname) (hrownum.isWordChar hname) hw
  have hxend : endsInWord x = false := by rw [← endsInWord_mask hlive, hx, hl]
  have hybegin : beginsInWord y = false := by rw [← beginsInWord_mask, hy, hz]
  have haw : Apart a (x ++ (r ++ y)) := hfront.elim (fun h => .of_ends h _) fun h => .of_begins h.1 a
  have hkept : Apart a (form.kept.toList ++ c) := by
    refine hfront.elim (fun h => .of_ends h _) fun h => ?_
    rw [h.2, List.nil_append]
    exact .of_begins hc a
  have hnone : ∀ form ∈ rownumForms, (pieces form.kept.toList).countP (decide <| Spelled "ROWNUM".toList ·) = 0 := by
    decide
  rw [← List.append_assoc a (x ++ (r ++ y)) c]
  refine ⟨hkept, ?_⟩
  rw [occurrences_append hname hkept, occurrences_append hname (.of_begins hc _), occurrences_append hname (.of_begins hc _),
    occurrences_append hname haw, occurrences_append hname (.of_ends hxend _),
    occurrences_append hname (.of_begins hybegin r), occurrences_spelled hname hrownum, occurrences_eq hname form.kept.toList,
    hnone form hform]
  omega

/-- A step takes a `ROWNUM` out of the query. -/
theorem yields_rownumStep (sql : Text) :
    Yields (rownumStep sql) fun r => ∀ next ∈ r, occurrences "ROWNUM" next < occurrences "ROWNUM" sql := by
  have hname : isName "ROWNUM".toList = true := by decide
  refine yields_findSomeM? fun form hform => yields_findSomeM? fun m hm => ?_
  obtain ⟨r, hr, hout⟩ := exists_moveRownum hform hm
  refine ⟨r, hr, fun next hnext => ?_⟩
  obtain ⟨a, w, c, n, hsql, hstart, hstop, -, -, hinsert⟩ := hout next hnext
  obtain ⟨hapart, hlt⟩ := occurrences_rownum_lt hform hm hsql hstart hstop
  obtain ⟨r', hr', hplace⟩ := exists_insertTop? a (form.kept.toList ++ c) n
  rw [List.append_assoc] at hinsert
  obtain rfl := Option.some.inj (hr'.symm.trans hinsert)
  obtain ⟨x, s, y, rfl, -, hx, hy, -, rfl⟩ := hplace next rfl hapart
  rw [occurrences_insert_top hname (by decide) (by decide) hx hy]
  simpa using hlt

/-! ## `FETCH` clauses -/

/-- What a step on `FETCH` clauses makes smaller: first the number of `FETCH`es in the whole text, then the number
of clauses without an `OFFSET`. -/
def fetchSize (sql : Text) : Nat × Nat := (occurrences "FETCH" sql, (openFetches sql).length)

/-- A step takes a `FETCH` out of the query, or leaves one clause less without an `OFFSET`. -/
theorem yields_fetchStep (sql : Text) :
    Yields (fetchStep sql) fun r => ∀ next ∈ r, Prod.Lex (· < ·) (· < ·) (fetchSize next) (fetchSize sql) := by
  have hname : isName "FETCH".toList = true := by decide
  refine yields_findSomeM? fun m hm => ?_
  obtain ⟨r, hr, hout⟩ := exists_moveFetch hm
  refine ⟨r, hr, fun next hnext => ?_⟩
  obtain ⟨a, b, f, y, o, c, n, hcut, hoffset, hnew⟩ := hout next hnext
  have hcount : ∀ t, occurrences "FETCH" t = (pieces t).countP isFetch := occurrences_eq hname
  have honly : isFetch o = false := decide_eq_false (hcut.only.not_of_differ (by decide))
  have hold : occurrences "FETCH" sql =
      occurrences "FETCH" (a ++ b) + (occurrences "FETCH" y + occurrences "FETCH" c + 1) := by
    have hfetch : isFetch f = true := decide_eq_true hcut.fetch
    rw [hcount, hcut.pieces_eq, List.countP_append, List.countP_cons_of_pos hfetch, List.countP_append,
      List.countP_cons_of_neg (by simp [honly]), hcount, hcount, hcount]
  rcases hnew with rfl | ⟨x, s, z, rfl, -, hx, hz, rfl⟩
  · have hoffset' : offsetPieces.countP isFetch = 0 :=
      List.countP_eq_zero.2 fun p hp => by simp [isFetch_of_mem_offsetPieces p hp]
    have hpieces : ([[' '], "NEXT".toList, [' '], Text.ofNat n, [' '], "ROWS".toList, [' ']] : List Text).countP isFetch =
        0 := List.countP_eq_zero.2 fun p hp => by simp [isFetch_of_mem_countPieces p hp]
    have hfetches : occurrences "FETCH" (a ++ b ++ (offsetText n ++ c)) =
        occurrences "FETCH" (a ++ b) + (occurrences "FETCH" c + 1) := by
      rw [occurrences_append hname (.of_ends hcut.left _), hcount (offsetText n ++ c), pieces_offsetText_append n hcut.right,
        List.countP_append, hoffset', List.countP_cons_of_pos (by decide), List.countP_append, hpieces,
        List.countP_cons_of_neg (by decide), ← hcount]
      omega
    have hopen := hcut.openFetches_lt hoffset n
    rcases Nat.lt_or_eq_of_le (by omega : occurrences "FETCH" (a ++ b ++ (offsetText n ++ c)) ≤ occurrences "FETCH" sql)
      with hlt | heq
    · exact .left _ _ hlt
    · rw [fetchSize, fetchSize, heq]
      exact .right _ hopen
  · refine .left _ _ ?_
    have hassoc : x ++ (s ++ (z ++ c)) = x ++ (s ++ z) ++ c := by simp
    rw [occurrences_insert_top hname (by decide) (by decide) hx hz, hassoc,
      occurrences_append hname (.of_begins hcut.right _), hold, occurrences_append hname hcut.front]
    omega

end ToTsql

/-! ## `TOP` clauses -/

namespace ToOracle

def topWord : Pattern := edge ++ ("TOP" ++ many (one .digit)) ++ edge

theorem isWordChar_of_isTopWord {w : Text} (h : isTopWord w = true) :
    w ≠ [] ∧ ∀ c ∈ w, Unicode.isWordChar c = true := by
  rw [isTopWord, Bool.and_eq_true, decide_eq_true_eq, List.all_eq_true] at h
  obtain ⟨htop, hdigits⟩ := h
  refine ⟨?_, fun c hc => ?_⟩
  · rintro rfl
    exact htop.ne_nil (by decide) rfl
  · rw [← List.take_append_drop 3 w] at hc
    exact (List.mem_append.1 hc).elim (htop.isWordChar (by decide) c) fun hc => isWordChar_of_isDigit (hdigits c hc)

theorem matches_topWord {u w v : Text} :
    Matches topWord u w v ↔ isTopWord w = true ∧ endsInWord u = false ∧ beginsInWord v = false := by
  have hword : ∀ u w v, Matches ("TOP" ++ many (one .digit)) u w v ↔ isTopWord w = true := by
    intro u w v
    constructor
    · intro h
      obtain ⟨t, n, rfl, ht, hn⟩ := matches_seq.1 h
      exact isTopWord_append (matches_word.1 ht) (matches_many_one.1 hn)
    · intro h
      rw [isTopWord, Bool.and_eq_true, decide_eq_true_eq, List.all_eq_true] at h
      exact matches_seq.2 ⟨w.take 3, w.drop 3, by simp, matches_word.2 h.1, matches_many_one.2 h.2⟩
  rw [topWord, matches_between_edges, hword]
  intro u w v h
  obtain ⟨hne, hall⟩ := isWordChar_of_isTopWord ((hword u w v).1 h)
  obtain ⟨c, w, rfl⟩ := List.exists_cons_of_ne_nil hne
  exact ⟨hall c (by simp), endsInWord_of_all hne hall⟩

theorem length_findAll_topWord (sql : Text) : (topWord.findAll (mask sql)).length = topWords sql := by
  have hblank : ∀ w, isTopWord w = true → isBlankText w = false := by
    intro w hw
    obtain ⟨hne, hall⟩ := isWordChar_of_isTopWord hw
    obtain ⟨c, w, rfl⟩ := List.exists_cons_of_ne_nil hne
    rw [isBlankText, List.all_cons, isBlank_of_isWordChar (hall c (by simp)), Bool.false_and]
  rw [length_findAll_of_words (fun _ _ _ => matches_topWord) (fun _ => isWordChar_of_isTopWord), topWords, tokens,
    List.countP_filter]
  refine List.countP_congr fun w _ => ?_
  cases htop : isTopWord w with
  | false => simp
  | true => simp [hblank w htop]

end ToOracle

/-! ## Every sequence of steps comes to an end -/

/-- A step on row limits leaves fewer `ROWNUM`s in the text, fewer `TOP`s in its code, or fewer `FETCH`es or clauses
without an `OFFSET`. So no sequence of steps goes on for ever. -/
theorem rowLimit_steps_decrease :
    (∀ sql next, Makes ToTsql.rownumStep sql next → occurrences "ROWNUM" next < occurrences "ROWNUM" sql) ∧
    (∀ sql next, Makes ToOracle.topStep sql next →
      (ToOracle.topWord.findAll (mask next)).length < (ToOracle.topWord.findAll (mask sql)).length) ∧
    (∀ sql next, Makes ToTsql.fetchStep sql next →
      Prod.Lex (· < ·) (· < ·) (ToTsql.fetchSize next) (ToTsql.fetchSize sql)) ∧
    ∀ step ∈ [ToTsql.rownumStep, ToOracle.topStep, ToTsql.fetchStep],
      ¬ ∃ texts : Nat → Text, ∀ i, Makes step (texts i) (texts (i + 1)) := by
  have hrownum : ∀ sql next, Makes ToTsql.rownumStep sql next → occurrences "ROWNUM" next < occurrences "ROWNUM" sql :=
    fun sql _ => (ToTsql.yields_rownumStep sql).of_makes
  have htop : ∀ sql next, Makes ToOracle.topStep sql next →
      (ToOracle.topWord.findAll (mask next)).length < (ToOracle.topWord.findAll (mask sql)).length := by
    intro sql next hnext
    rw [ToOracle.length_findAll_topWord, ToOracle.length_findAll_topWord]
    exact (ToOracle.shrinks_topStep sql).of_makes hnext
  have hfetch : ∀ sql next, Makes ToTsql.fetchStep sql next →
      Prod.Lex (· < ·) (· < ·) (ToTsql.fetchSize next) (ToTsql.fetchSize sql) :=
    fun sql _ => (ToTsql.yields_fetchStep sql).of_makes
  refine ⟨hrownum, htop, hfetch, fun step hstep => ?_⟩
  simp only [List.mem_cons, List.not_mem_nil, or_false] at hstep
  rcases hstep with rfl | rfl | rfl
  · exact not_endless Nat.lt_wfRel.wf hrownum
  · exact not_endless Nat.lt_wfRel.wf htop
  · exact not_endless (WellFounded.prod_lex Nat.lt_wfRel.wf Nat.lt_wfRel.wf) hfetch

/-- One step of each kind. -/
theorem rowLimit_steps_decrease_once :
    occurrences "ROWNUM" "SELECT TOP 5 a FROM t" < occurrences "ROWNUM" "SELECT a FROM t WHERE ROWNUM <= 5" ∧
    (ToOracle.topWord.findAll (mask "SELECT a FROM t WHERE ROWNUM <= 5")).length <
      (ToOracle.topWord.findAll (mask "SELECT TOP (5) a FROM t")).length ∧
    Prod.Lex (· < ·) (· < ·)
      (ToTsql.fetchSize "SELECT a FROM t ORDER BY b OFFSET 0 ROWS FETCH NEXT 5 ROWS ONLY")
      (ToTsql.fetchSize "SELECT a FROM t ORDER BY b FETCH FIRST 5 ROWS ONLY") := by
  refine ⟨rowLimit_steps_decrease.1 _ _ ⟨[], [], ?_⟩, rowLimit_steps_decrease.2.1 _ _ ⟨[], [], ?_⟩,
    rowLimit_steps_decrease.2.2.1 _ _ ⟨[], [], ?_⟩⟩
  · decide +kernel
  · decide +kernel
  · decide +kernel

/-- The number behind a `TOP` can be part of its word; then there is no `TOP` alone that the step could take out. -/
theorem topStep_keeps_tops :
    ∃ next, Makes ToOracle.topStep "SELECT TOP5 a FROM t" next ∧
      ¬ occurrences "TOP" (mask next) < occurrences "TOP" (mask "SELECT TOP5 a FROM t") := by
  refine ⟨"SELECT a FROM t WHERE ROWNUM <= 5", ⟨[], [], ?_⟩, ?_⟩
  · decide +kernel
  · decide +kernel

end DialectBridge
