import DialectBridge.Proofs.MissingWords
import DialectBridge.Proofs.SkeletonRules
/-!
# Skeletons under the rules for words

Behind the aggregates come the rules that look for single words. A marker in front of a word that is in
no mark leaves the marks where they are (`Replaced.marked`), and so does a word put in the place of
another one; the words of tables and row limits are not there to be found.
-/
namespace DialectBridge
open Pattern LexState Text

/-! ## Markers in front of words -/

/-- A text cut at a word of its code. -/
structure WordCut (x w z : Text) : Prop where
  live : (code.after x).live = true
  left : endsInWord (mask x) = false
  ne_nil : w ≠ []
  word : ∀ c ∈ w, Unicode.isWordChar c = true
  right : beginsInWord z = false

section
variable {pre a x w z y : Text}

theorem WordCut.isPlain (h : WordCut x w z) : ∀ c ∈ w, isPlain c = true := fun c hc =>
  isPlain_of_isWordChar (h.word c hc)

theorem WordCut.after (h : WordCut x w z) : code.after (x ++ w) = code := by
  rw [after_append, after_of_all_isPlain h.live h.isPlain h.ne_nil]

theorem WordCut.codePieces_append (h : WordCut x w z) (hy : beginsInWord y = false) :
    codePieces (w ++ y) = w :: codePieces y := by
  rw [codePieces, mask_plain_append h.isPlain, pieces_append (.of_begins (by rwa [beginsInWord_mask]) w),
    pieces_word h.ne_nil h.word]
  rfl

theorem WordCut.codePieces_eq (h : WordCut x w z) (hy : beginsInWord y = false) :
    codePieces (x ++ (w ++ y)) = codePieces x ++ w :: codePieces y := by
  have hsplits : Splits x (w ++ y) := by
    refine ⟨joins_of_head?_isPlain h.live fun c hc => ?_, .of_ends h.left _⟩
    rw [List.head?_append_of_ne_nil _ h.ne_nil] at hc
    exact h.isPlain c (List.mem_of_head? hc)
  rw [hsplits.codePieces_eq, h.codePieces_append hy]

/-- What stands in front of a place in code does not matter. -/
theorem WordCut.drop (h : WordCut (pre ++ a) w z) (hpre : code.after pre = code) : WordCut a w z := by
  have hlive := h.live
  have hleft := h.left
  rw [after_append, hpre] at hlive
  rw [mask_append (by rw [hpre]; exact joins_code _)] at hleft
  refine ⟨hlive, ?_, h.ne_nil, h.word, h.right⟩
  by_cases hnil : a = []
  · simp [hnil]
  · rwa [endsInWord_append (mask_ne_nil hnil)] at hleft

theorem joins_slash {s : LexState} (hs : s.live = true) (t : Text) : s.joins ('/' :: t) = true := by
  cases s with
  | code | minus | slash => rfl
  | closed q => cases q <;> rfl
  | quoted q | line | block | star => simp [LexState.live] at hs

/-- Markers put in front of words that are in no mark. -/
theorem Replaced.marked {g : Match → Option Text} {k : Nat} {ms : List Match} {sql t out r : Text}
    {marks : List (List Text)} (hmarks : ∀ m ∈ marks, IsMark m) (hr : Front r) (hslash : ∃ r', r = '/' :: r')
    (h : Replaced g k ms t out) (hsql : sql = pre ++ t) (hk : k = width pre) (hpre : code.after pre = code)
    (hms : ∀ m ∈ ms, ∀ x w z, sql = x ++ (w ++ z) → m.start = width x → m.stop = width (x ++ w) →
      WordCut x w z ∧ IsFiller [w] ∧ (g m = none ∨ g m = some (r ++ w))) :
    (beginsInWord t = false → beginsInWord out = false) ∧
      (∀ p ∈ codePieces out, p ∈ codePieces t ∨ p ∈ codePieces r) ∧
        ∀ l, Marked marks (l ++ codePieces t) → Marked marks (l ++ codePieces out) := by
  induction h generalizing pre with
  | nil k t => exact ⟨id, fun p hp => .inl hp, fun l h => h⟩
  | @cons k m ms a w rest out hstart hstop _ ih =>
    obtain ⟨hcut, hfiller, hg⟩ := hms m (by simp) (pre ++ a) w rest (by rw [hsql]; simp) (by rw [hstart, hk]; simp)
      (by rw [hstop, hstart, hk]; simp [Nat.add_assoc])
    obtain ⟨hbegin, hmem, hmarked⟩ := ih (show sql = pre ++ a ++ w ++ rest by rw [hsql]; simp)
      (by rw [hstop, hstart, hk]; simp [Nat.add_assoc]) (by rw [hcut.after]) fun m' hm' => hms m' (by simp [hm'])
    have hcut := hcut.drop hpre
    have hbegin := hbegin hcut.right
    have hold : codePieces (a ++ w ++ rest) = codePieces a ++ w :: codePieces rest := by
      rw [List.append_assoc, hcut.codePieces_eq hcut.right]
    have hfront : ∀ y, beginsInWord (a ++ w ++ rest) = false → beginsInWord (a ++ y) = false := fun y h => by
      by_cases hnil : a = []
      · -- the text would begin with the word
        rw [hnil, List.nil_append, beginsInWord_append hcut.ne_nil] at h
        obtain ⟨c, w, rfl⟩ := List.exists_cons_of_ne_nil hcut.ne_nil
        rw [beginsInWord_cons, hcut.word c (by simp)] at h
        exact absurd h (by decide)
      · rw [List.append_assoc, beginsInWord_append hnil] at h
        rwa [beginsInWord_append hnil]
    rw [hold]
    rcases hg with hg | hg
    · have hnew : codePieces (a ++ w ++ out) = codePieces a ++ w :: codePieces out := by
        rw [List.append_assoc, hcut.codePieces_eq hbegin]
      rw [hg, Option.getD_none, hnew]
      refine ⟨fun h => List.append_assoc a w out ▸ hfront _ h, fun p hp => ?_, fun l h => ?_⟩
      · simp only [List.mem_append, List.mem_cons] at hp ⊢
        have := hmem p
        tauto
      · have h' := hmarked (l ++ codePieces a ++ [w]) (by simpa using h)
        simpa using h'
    · have houter : Splits a (r ++ (w ++ out)) := by
        obtain ⟨r, rfl⟩ := hslash
        exact ⟨joins_slash hcut.live _, .of_begins (by rw [beginsInWord_mask]; rfl) _⟩
      have hnew : codePieces (a ++ (r ++ w) ++ out) = codePieces a ++ (codePieces r ++ w :: codePieces out) := by
        rw [List.append_assoc, List.append_assoc, houter.codePieces_eq, (hr.splits _).codePieces_eq,
          hcut.codePieces_append hbegin]
      rw [hg, Option.getD_some, hnew]
      refine ⟨fun h => List.append_assoc a (r ++ w) out ▸ hfront _ h, fun p hp => ?_, fun l h => ?_⟩
      · simp only [List.mem_append, List.mem_cons] at hp ⊢
        have := hmem p
        tauto
      · have h' : Marked marks (l ++ codePieces a ++ ((codePieces r ++ [w]) ++ codePieces rest)) :=
          .replace hmarks hfiller (by simpa using h)
        have h' := hmarked (l ++ codePieces a ++ (codePieces r ++ [w])) (by simpa using h')
        simpa using h'

end

/-! ## The rules -/

/-- A query without the words for row limits that has the marks of a skeleton if the warning on skeletons
was raised. -/
structure Carries (sql : Text) (raised : List Warning) : Prop where
  spares : Spares limitWords (mask sql)
  marked : .listaggDistinct ∈ raised.map Warning.category → Marked skeletonMarks (codePieces sql)

section
variable {sql : Text} {raised : List Warning}

theorem Carries.of_raised {raised' : List Warning} (h : Carries sql raised)
    (hsub : ∀ w ∈ raised', w.category = .listaggDistinct → w ∈ raised) : Carries sql raised' := by
  refine ⟨h.spares, fun hmem => h.marked ?_⟩
  obtain ⟨w, hw, hk⟩ := List.mem_map.1 hmem
  exact List.mem_map.2 ⟨w, hsub w hw hk, hk⟩

end

namespace ToTsql
variable {sql : Text} {raised : List Warning}

/-- The name of a regular expression function stands between two places at which no word goes on. -/
theorem matches_regexpWord_iff {u w v : Text} : Matches regexpWord u w v ↔
    Matches ("REGEXP_" ++ regexpNames) u w v ∧ endsInWord u = false ∧ beginsInWord v = false := by
  have hends : ∀ u w v, Matches ("REGEXP_" ++ regexpNames) u w v → beginsInWord w = true ∧ endsInWord w = true := by
    intro u w v hw
    obtain ⟨n, -, hname, hn⟩ := takesNames_regexp _ _ _ hw
    exact ⟨by simpa using hn.beginsInWord hname [], by simpa using hn.endsInWord hname []⟩
  rw [← matches_between_edges hends, regexpWord, matches_seq, matches_seq]
  simp only [matches_assoc]

theorem matches_regexpWord {u w v : Text} (h : Matches regexpWord u w v) :
    ∃ n ∈ regexpFunctionNames, isName n.toList = true ∧ Spelled n.toList w ∧ endsInWord u = false ∧
      beginsInWord v = false := by
  obtain ⟨hw, hu, hv⟩ := matches_regexpWord_iff.1 h
  obtain ⟨n, hn, hname, hspelled⟩ := takesNames_regexp _ _ _ hw
  exact ⟨n, hn, hname, hspelled, hu, hv⟩

/-- A name that the rule finds is a word of the code. -/
theorem exists_name_of_regexpWord {m : Match} (hm : m ∈ regexpWord.findAll (mask sql)) {x w z : Text}
    (hsql : sql = x ++ (w ++ z)) (hstart : m.start = width x) (hstop : m.stop = width (x ++ w)) :
    WordCut x w z ∧ ∃ n ∈ regexpFunctionNames, Spelled n.toList w := by
  obtain ⟨u, s, hmask, hat⟩ := exists_of_mem_findAll hm
  obtain ⟨w', v, rfl, hfirst, hlast, hw⟩ := matchAt?_eq_some hat
  obtain ⟨n, hn, hname, hspelled, hu, hv⟩ := matches_regexpWord ⟨_, _, hw⟩
  obtain ⟨a, b, hcut, rfl, rfl, hlive, -⟩ := exists_cut_word (hspelled.ne_nil hname) (hspelled.isWordChar hname) hmask
  have hx : width a = width x := by rw [← hstart, Match.start, hfirst, Cursor.offset_between, width_mask]
  obtain ⟨rfl, hrest⟩ := append_inj_of_width (hcut.symm.trans hsql) hx
  have hwidth : width w' = width w := by
    have : width (mask a) + width w' = width a + width w := by
      rw [← width_append, ← width_append, ← hstop, Match.stop, hlast, Cursor.offset_between]
    rw [width_mask] at this
    omega
  obtain ⟨rfl, rfl⟩ := append_inj_of_width hrest hwidth
  exact ⟨⟨hlive, hu, hspelled.ne_nil hname, hspelled.isWordChar hname, by rwa [← beginsInWord_mask]⟩, n, hn, hspelled⟩

theorem wordCut_of_regexpWord {m : Match} (hm : m ∈ regexpWord.findAll (mask sql)) {x w z : Text}
    (hsql : sql = x ++ (w ++ z)) (hstart : m.start = width x) (hstop : m.stop = width (x ++ w)) :
    WordCut x w z ∧ IsFiller [w] := by
  have hunmarked : ∀ n ∈ regexpFunctionNames, Unmarked n.toList := by decide
  obtain ⟨hcut, n, hn, hspelled⟩ := exists_name_of_regexpWord hm hsql hstart hstop
  exact ⟨hcut, .of_spelled (hunmarked n hn) hspelled⟩

theorem front_regexpMarker : Front (regexpMarker ++ " ".toList) :=
  Text.of_chars (p := fun t => Front (t ++ " ".toList)) ⟨by decide +kernel, by decide⟩

theorem spares_regexpMarker : ∀ p ∈ codePieces (regexpMarker ++ " ".toList), ∀ n ∈ limitWords, ¬ Spelled n.toList p :=
  Text.of_chars (p := fun t => ∀ p ∈ codePieces (t ++ " ".toList), ∀ n ∈ limitWords, ¬ Spelled n.toList p)
    (by decide +kernel)

theorem exists_regexpMarker_eq : ∃ r, regexpMarker = '/' :: '*' :: r :=
  Text.of_chars (p := fun t => ∃ r, t = '/' :: '*' :: r) ⟨_, rfl⟩

/-- What is put in the place of a name, if anything. -/
def markedName? (sql : Text) (m : Match) : Option Text :=
  if regexpMarker.isSuffixOf (trimEnd ((upTo? sql m.start).getD [])) then none
  else some (regexpMarker ++ " " ++ (slice? sql m.start m.stop).getD [])

/-- A name gets the marker if it does not have it yet. -/
theorem markedName?_eq_ite {m : Match} {x w z : Text} (hstart : m.start = width x) (hstop : m.stop = width (x ++ w)) :
    markedName? (x ++ (w ++ z)) m =
      if regexpMarker <:+ trimEnd x then none else some (regexpMarker ++ " ".toList ++ w) := by
  have hslice : slice? (x ++ (w ++ z)) m.start m.stop = some w := by
    have := slice?_append x w z
    rwa [List.append_assoc, ← width_append, ← hstart, ← hstop] at this
  rw [markedName?, hslice, hstart, upTo?_append, Option.getD_some, Option.getD_some]
  simp only [List.isSuffixOf_iff_suffix]

theorem markedName?_eq {m : Match} {x w z : Text} (hstart : m.start = width x) (hstop : m.stop = width (x ++ w)) :
    markedName? (x ++ (w ++ z)) m = none ∨
      markedName? (x ++ (w ++ z)) m = some (regexpMarker ++ " ".toList ++ w) := by
  rw [markedName?_eq_ite hstart hstop]
  split_ifs
  · exact .inl rfl
  · exact .inr rfl

/-- What is put in the place of a name does not depend on the log. -/
theorem mark_eq_pure {sql : Text} (hm : m ∈ regexpWord.findAll (mask sql)) : (do
      let before ← Text.upTo? sql m.start
      if regexpMarker.isSuffixOf (Text.trimEnd before) then return none
      else return some (regexpMarker ++ " " ++ (← Text.slice? sql m.start m.stop)) : Reporting (Option Text)) =
    pure (markedName? sql m) := by
  obtain ⟨hstart, hstop, hlt⟩ := isBoundary_of_mem_findAll (framed_clauses _ (by simp)) hm
  obtain ⟨before, hbefore⟩ := Text.exists_upTo? hstart
  obtain ⟨name, hname⟩ := Text.exists_slice? hstart hstop (Nat.le_of_lt hlt)
  simp only [markedName?, hbefore, hname, Option.getD_some, Editing.lift_some_bind]
  split_ifs <;> rfl

theorem carries_of_replaced {out : Text} (h : Carries sql raised)
    (hreplaced : Replaced (markedName? sql) 0 (regexpWord.findAll (mask sql)) sql out) : Carries out raised := by
  obtain ⟨r, hr⟩ := exists_regexpMarker_eq
  have hslash : ∃ r, regexpMarker ++ " ".toList = '/' :: r := ⟨'*' :: r ++ " ".toList, by rw [hr]; rfl⟩
  obtain ⟨-, hmem, hmarked⟩ := hreplaced.marked isMark_skeletonMarks front_regexpMarker hslash (List.nil_append sql).symm rfl rfl
    fun m hm x w z hsql hstart hstop => by
      obtain ⟨hcut, hfiller⟩ := wordCut_of_regexpWord hm hsql hstart hstop
      refine ⟨hcut, hfiller, ?_⟩
      rw [hsql]
      exact markedName?_eq hstart hstop
  refine ⟨fun p hp => ?_, fun hraised => ?_⟩
  · rcases hmem p hp with hp | hp
    · exact h.spares p hp
    · exact spares_regexpMarker p hp
  · exact hmarked [] (h.marked hraised)

theorem carries_regexpFunctions (h : Carries sql raised) : Leads (regexpFunctions sql) raised Carries := by
  have hframed : regexpWord.framed = true := framed_clauses _ (by simp)
  obtain ⟨out, hout, hlog, hreplaced⟩ := exists_replaceSpans_of_pure hframed fun m hm => mark_eq_pure (m := m) hm
  have hmarked := hout.leads (s := raised) (P := fun out _ => Carries out raised) fun _ => carries_of_replaced h hreplaced
  refine .bind (((hlog raised).and hmarked).mono fun out raised' hout => ?_)
  obtain ⟨rfl, hout⟩ := hout
  have hwarn : ∀ message, Silent .listaggDistinct (warnOnce .regexpLike message) := silent_warnOnce (by decide)
  split_ifs
  · exact .bind ((hwarn _ _).mono fun _ _ hsub => leads_pure (hout.of_raised hsub))
  · exact leads_pure hout

theorem carries_setOperators (h : Carries sql raised) : Carries (setOperators sql) raised := by
  have hpieces : codePieces (setOperators sql) =
      (codePieces sql).flatMap fun q => if Spelled "MINUS".toList q then pieces "EXCEPT" else [q] :=
    pieces_mask_replaceCode (by decide) (by decide) (by decide) (by decide) sql
  have hmarks : ∀ m ∈ skeletonMarks, ∀ p ∈ m, ¬ Spelled "MINUS".toList p := by decide
  have hexcept : Spares limitWords "EXCEPT" := by decide
  refine ⟨fun p hp => ?_, fun hmem => ?_⟩
  · change p ∈ codePieces (setOperators sql) at hp
    rw [hpieces] at hp
    obtain ⟨q, hq, hp⟩ := List.mem_flatMap.1 hp
    split_ifs at hp with hminus
    · exact hexcept p hp
    · exact List.mem_singleton.1 hp ▸ h.spares q hq
  · rw [hpieces]
    exact (h.marked hmem).flatMap fun m hm p hp => if_neg (hmarks m hm p hp)

end ToTsql

end DialectBridge
