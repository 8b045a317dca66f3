import DialectBridge.Checklist
import DialectBridge.ToTsql.RowLimit
import DialectBridge.ToTsql.Words
import DialectBridge.Proofs.Terms
import DialectBridge.Proofs.Totality
import DialectBridge.Proofs.WordReplacement
/-!
# Words that are missing

A pattern that asks for a word has no match in a text of which no piece spells the word
(`Avoids`). Then a rule that looks for the pattern leaves the query alone, and a check that looks for it
passes.

Of `ROWNUM` no query is left with a piece. After the tests of `ROWNUM` have been moved into `TOP`, each one that is
still in code is replaced by a row number, and a warning says so (`rownumLimit_removes_rownum`).
-/
namespace DialectBridge
open Pattern Cursor

def Avoids (p : Pattern) (t : Text) : Prop := ∀ u w v, t = u ++ (w ++ v) → ¬ Matches p u w v

section
variable {σ : Type} {p q : Pattern} {t sql r : Text} {names : List String}

/-! ## What follows -/

theorem Avoids.findAll (h : Avoids p t) : p.findAll t = [] := findAll_eq_nil h

theorem Avoids.occursIn (h : Avoids p t) : p.occursIn t = false := by
  rw [Bool.eq_false_iff]
  intro hoccurs
  obtain ⟨m, hm⟩ := Option.isSome_iff_exists.1 hoccurs
  obtain ⟨u, x, rfl, hat⟩ := exists_of_find? hm
  obtain ⟨w, v, rfl, -, -, htakes⟩ := matchAt?_eq_some hat
  exact h u w v rfl ⟨_, _, htakes⟩

theorem Avoids.replaceAll (h : Avoids p t) : p.replaceAll r t = t := by
  rw [Pattern.replaceAll, replaceAllBy, h.findAll]
  rfl

theorem Avoids.replaceSpans {f : Match → Editing σ (Option Text)} (h : Avoids p (mask sql)) :
    replaceSpans sql p f = pure sql := by
  rw [DialectBridge.replaceSpans, h.findAll]
  rfl

theorem findSomeM?_eq_none {α β : Type} {f : α → Editing σ (Option β)} {l : List α}
    (h : ∀ a ∈ l, f a = pure none) : l.findSomeM? f = pure none := by
  induction l with
  | nil => rfl
  | cons a l ih =>
    rw [List.findSomeM?, h a (by simp), pure_bind]
    exact ih fun b hb => h b (List.mem_cons_of_mem a hb)

/-! ## Patterns in a row -/

theorem matches_assoc {p q r : Pattern} {u w v : Text} :
    Matches (p ++ q ++ r) u w v ↔ Matches (p ++ (q ++ r)) u w v := by
  constructor
  · intro h
    obtain ⟨w, c, rfl, h, hc⟩ := matches_seq.1 h
    obtain ⟨a, b, rfl, ha, hb⟩ := matches_seq.1 h
    refine matches_seq.2 ⟨a, b ++ c, by simp, by simpa using ha, matches_seq.2 ⟨b, c, rfl, hb, ?_⟩⟩
    simpa using hc
  · intro h
    obtain ⟨a, w, rfl, ha, h⟩ := matches_seq.1 h
    obtain ⟨b, c, rfl, hb, hc⟩ := matches_seq.1 h
    refine matches_seq.2 ⟨a ++ b, c, by simp, matches_seq.2 ⟨a, b, rfl, by simpa using ha, hb⟩, ?_⟩
    simpa using hc

theorem Avoids.of_assoc {r : Pattern} (h : Avoids (p ++ (q ++ r)) t) : Avoids (p ++ q ++ r) t :=
  fun u w v hsplit hw => h u w v hsplit (matches_assoc.1 hw)

theorem Avoids.assoc {r : Pattern} (h : Avoids (p ++ q ++ r) t) : Avoids (p ++ (q ++ r)) t :=
  fun u w v hsplit hw => h u w v hsplit (matches_assoc.2 hw)

theorem Avoids.seq (h : Avoids p t) (q : Pattern) : Avoids (p ++ q) t := by
  rintro u w v rfl hw
  obtain ⟨a, b, rfl, ha, -⟩ := matches_seq.1 hw
  exact h u a (b ++ v) (by simp) ha

/-! ## Patterns that ask for a word -/

/-- A pattern that takes one of some words. -/
def TakesNames (names : List String) (p : Pattern) : Prop :=
  ∀ u w v, Matches p u w v → ∃ n ∈ names, isName n.toList = true ∧ Spelled n.toList w

theorem takesNames_word {name : String} (h : isName name.toList = true) :
    TakesNames [name] (word name.toList) := fun _ _ _ hw => ⟨name, by simp, h, matches_word.1 hw⟩

theorem takesNames_oneOf (h : ∀ n ∈ names, isName n.toList = true) :
    TakesNames names (oneOf (names.map fun n => word n.toList)) := by
  intro u w v hw
  obtain ⟨p, hp, hw⟩ := matches_oneOf.1 hw
  obtain ⟨n, hn, rfl⟩ := List.mem_map.1 hp
  exact ⟨n, hn, h n hn, matches_word.1 hw⟩

theorem TakesNames.group (h : TakesNames names p) (i : Nat) : TakesNames names (.group i p) :=
  fun u w v hw => h u w v (matches_group.1 hw)

/-- A pattern behind which a word begins. -/
def BeforeWord (p : Pattern) : Prop :=
  ∀ u w v, Matches p u w v → beginsInWord v = true → endsInWord (u ++ w) = false

/-- A pattern in front of which a word ends. -/
def BehindWord (p : Pattern) : Prop :=
  ∀ u w v, Matches p u w v → endsInWord u = true → beginsInWord (w ++ v) = false

theorem beforeWord_edge : BeforeWord edge := by
  intro u w v hw hv
  obtain ⟨rfl, hedge⟩ := matches_edge.1 hw
  rw [hv] at hedge
  simpa using hedge

theorem behindWord_edge : BehindWord edge := by
  intro u w v hw hu
  obtain ⟨rfl, hedge⟩ := matches_edge.1 hw
  rw [hu] at hedge
  simpa using hedge

theorem beforeWord_blanks1 : BeforeWord blanks1 := by
  intro u w v hw _
  obtain ⟨hne, hblank⟩ := matches_blanks1.1 hw
  exact endsInWord_blanks hne hblank u

theorem behindWord_blanks1 : BehindWord blanks1 := by
  intro u w v hw _
  obtain ⟨hne, hblank⟩ := matches_blanks1.1 hw
  obtain ⟨c, w, rfl⟩ := List.exists_cons_of_ne_nil hne
  exact isWordChar_of_isBlank (hblank c (by simp))

theorem BeforeWord.behind (hq : BeforeWord q) (p : Pattern) : BeforeWord (p ++ q) := by
  intro u w v hw hv
  obtain ⟨a, b, rfl, -, hb⟩ := matches_seq.1 hw
  rw [← List.append_assoc]
  exact hq _ b v hb hv

/-- White space and then something that is not of a word. -/
theorem BehindWord.blanks (hq : ∀ u w v, Matches q u w v → beginsInWord (w ++ v) = false) :
    BehindWord (blanks ++ q) := by
  intro u w v hw _
  obtain ⟨a, b, rfl, ha, hb⟩ := matches_seq.1 hw
  rw [List.append_assoc]
  exact beginsInWord_blanks (matches_many_one.1 ha) (hq _ b v hb)

theorem behindWord_parenthesis : BehindWord (blanks ++ sym '(') := by
  refine .blanks fun u w v hw => ?_
  rw [matches_sym.1 hw]
  rfl

/-- A word that is missing from a text is not found in it. -/
theorem avoids_of_spares {n : Pattern} (hp : BeforeWord p) (hn : TakesNames names n) (hq : BehindWord q)
    (h : Spares names t) : Avoids (p ++ n ++ q) t := by
  rintro u w v rfl hw
  obtain ⟨w, c, rfl, hw, hc⟩ := matches_seq.1 hw
  obtain ⟨a, b, rfl, ha, hb⟩ := matches_seq.1 hw
  obtain ⟨s, hmem, hname, hs⟩ := hn _ _ _ hb
  have hleft : endsInWord (u ++ a) = false := hp _ _ _ ha (hs.beginsInWord hname _)
  have hright : beginsInWord (c ++ v) = false :=
    hq _ _ _ hc (by rw [← List.append_assoc]; exact hs.endsInWord hname _)
  refine h b ?_ s hmem hs
  have hsplit : u ++ (a ++ b ++ c ++ v) = (u ++ a) ++ (b ++ (c ++ v)) := by simp
  rw [hsplit, pieces_append (.of_ends hleft _), pieces_append (.of_begins hright b),
    pieces_word (hs.ne_nil hname) (hs.isWordChar hname)]
  simp

end

/-! ## The patterns of the rules and checks -/

section
variable {p : Pattern} {t : Text}

namespace ToTsql

theorem avoids_sysGuid (h : Spares ["SYS_GUID"] t) : Avoids sysGuid t :=
  ((avoids_of_spares beforeWord_edge (takesNames_word (by decide)) behindWord_parenthesis h).of_assoc.seq _).seq _

theorem replaceCode_sysGuid {sql r : Text} (h : Spares ["SYS_GUID"] (mask sql)) : replaceCode sysGuid r sql = sql :=
  mapCode_eq_self fun _ hx => (avoids_sysGuid fun p hp => h p (hx p hp)).replaceAll

theorem avoids_dualClause (h : Spares ["DUAL"] t) : Avoids dualClause t :=
  avoids_of_spares (beforeWord_blanks1.behind _) (takesNames_word (by decide)) behindWord_edge h

theorem avoids_fetchFirstClause (h : Spares ["FETCH"] t) : Avoids fetchFirstClause t := by
  iterate 9 refine Avoids.seq ?_ _
  exact avoids_of_spares (beforeWord_edge.behind _) (takesNames_word (by decide)) behindWord_blanks1 h

def regexpFunctionNames : List String := ["REGEXP_LIKE", "REGEXP_SUBSTR", "REGEXP_REPLACE", "REGEXP_INSTR",
  "REGEXP_COUNT"]

theorem takesNames_regexp : TakesNames regexpFunctionNames ("REGEXP_" ++ regexpNames) := by
  intro u w v hw
  obtain ⟨a, b, rfl, ha, hb⟩ := matches_seq.1 hw
  have hnames : ∀ s ∈ ["LIKE", "SUBSTR", "REPLACE", "INSTR", "COUNT"],
      isName s.toList = true ∧ "REGEXP_" ++ s ∈ regexpFunctionNames ∧ isName ("REGEXP_" ++ s).toList = true := by decide
  obtain ⟨s, hs, -, hb⟩ := takesNames_oneOf (fun s hs => (hnames s hs).1) _ _ _ hb
  have hspelled : Spelled ("REGEXP_".toList ++ s.toList) (a ++ b) := List.rel_append (matches_word.1 ha) hb
  exact ⟨"REGEXP_" ++ s, (hnames s hs).2.1, (hnames s hs).2.2, by simpa using hspelled⟩

theorem avoids_regexpWord (h : Spares regexpFunctionNames t) : Avoids regexpWord t := fun u w v hsplit hw => by
  have havoids : Avoids (edge ++ ("REGEXP_" ++ regexpNames) ++ edge) t :=
    avoids_of_spares beforeWord_edge takesNames_regexp behindWord_edge h
  obtain ⟨a, b, rfl, ha, hb⟩ := matches_seq.1 hw
  exact havoids u _ v hsplit (matches_seq.2 ⟨a, b, rfl, matches_assoc.1 ha, hb⟩)

/-- A test of `ROWNUM` between other conditions has an `AND` beside it. -/
theorem avoids_of_and {form : RownumForm} (hform : form ∈ rownumForms.take 2) (h : Spares ["AND"] t) :
    Avoids form.pattern t := by
  simp only [rownumForms, List.take_succ_cons, List.take_zero, List.mem_cons, List.not_mem_nil, or_false] at hform
  rcases hform with rfl | rfl
  · exact avoids_of_spares (beforeWord_blanks1.behind _) (takesNames_word (by decide)) behindWord_edge h
  · exact ((avoids_of_spares beforeWord_blanks1 (takesNames_word (by decide)) behindWord_blanks1 h).seq _).seq _

theorem avoids_rownumTest (hp : BeforeWord p) (h : Spares ["ROWNUM"] t) : Avoids (p ++ rownumTest) t := by
  have hbehind : BehindWord (blanks ++ oneOf [
      .group 1 (sym '<' ++ opt (sym '=')) ++ blanks ++ .group 2 digits1, sym '=' ++ blanks ++ sym '1']) := by
    refine .blanks fun u w v hw => ?_
    obtain ⟨q, hq, hw⟩ := matches_oneOf.1 hw
    simp only [List.mem_cons, List.not_mem_nil, or_false] at hq
    rcases hq with rfl | rfl
    · obtain ⟨w, _, rfl, hw, -⟩ := matches_seq.1 hw
      obtain ⟨w, _, rfl, hw, -⟩ := matches_seq.1 hw
      obtain ⟨w, _, rfl, hw, -⟩ := matches_seq.1 (matches_group.1 hw)
      rw [matches_sym.1 hw]
      rfl
    · obtain ⟨w, _, rfl, hw, -⟩ := matches_seq.1 hw
      obtain ⟨w, _, rfl, hw, -⟩ := matches_seq.1 hw
      rw [matches_sym.1 hw]
      rfl
  intro u w v hsplit hw
  obtain ⟨a, b, rfl, ha, hb⟩ := matches_seq.1 hw
  exact (avoids_of_spares hp (takesNames_word (by decide)) hbehind h).assoc u _ v hsplit
    (matches_seq.2 ⟨a, b, rfl, ha, matches_assoc.1 hb⟩)

/-- Without a `ROWNUM` no test of it is found. -/
theorem avoids_of_mem_rownumForms {form : RownumForm} (hform : form ∈ rownumForms) (h : Spares ["ROWNUM"] t) :
    Avoids form.pattern t := by
  simp only [rownumForms, List.mem_cons, List.not_mem_nil, or_false] at hform
  rcases hform with rfl | rfl | rfl
  · exact (((avoids_rownumTest (beforeWord_blanks1.behind _) h).seq _).seq _).seq _
  · exact (avoids_rownumTest (beforeWord_blanks1.behind _) h).seq _
  · exact (avoids_rownumTest (beforeWord_blanks1.behind _) h).seq _

theorem rownumStep_of_spares {sql : Text} (h : Spares ["ROWNUM"] (mask sql)) : rownumStep sql = pure none :=
  findSomeM?_eq_none fun form hform => by
    rw [(avoids_of_mem_rownumForms hform h).findAll]
    rfl

theorem repeatStep_of_spares {sql : Text} (h : Spares ["ROWNUM"] (mask sql)) (passes : Nat) :
    repeatStep rownumStep passes sql = pure sql := by
  cases passes with
  | zero => rfl
  | succ passes =>
    rw [repeatStep, rownumStep_of_spares h]
    rfl

theorem occursIn_rownum_of_spares (h : Spares ["ROWNUM"] t) : (keyword "ROWNUM").occursIn t = false := by
  rw [Bool.eq_false_iff, ne_eq, occursIn_keyword_iff (by decide)]
  rintro ⟨q, hq, hspelled⟩
  exact h q hq "ROWNUM" (by simp) hspelled

theorem rownumLimit_of_spares {sql : Text} (h : Spares ["ROWNUM"] (mask sql)) : rownumLimit sql = pure sql := by
  rw [rownumLimit, fixpoint, repeatStep_of_spares h, pure_bind, occursIn_rownum_of_spares h]
  rfl

theorem fetchFirst_of_spares {sql : Text} (h : Spares ["FETCH"] (mask sql)) : fetchFirst sql = pure sql := by
  have hnone : fetchStep sql = pure none := by
    rw [fetchStep, (avoids_fetchFirstClause h).findAll]
    rfl
  rw [fetchFirst, fixpoint, maxPasses, repeatStep, hnone]
  rfl

theorem fromDual_of_spares {sql : Text} (h : Spares ["DUAL"] (mask sql)) : fromDual sql = pure sql :=
  (avoids_dualClause h).replaceSpans

end ToTsql

namespace Checklist

theorem avoids_stringAggCall (h : Spares ["STRING_AGG"] t) : Avoids stringAggCall t :=
  (avoids_of_spares beforeWord_edge (takesNames_word (by decide)) behindWord_parenthesis h).of_assoc

theorem avoids_oracleCall (h : Spares oracleFunctions t) : Avoids oracleCall t :=
  (avoids_of_spares beforeWord_edge ((takesNames_oneOf (by decide)).group 1) behindWord_parenthesis h).of_assoc

theorem avoids_oracleKeyword (h : Spares oracleKeywords t) : Avoids oracleKeyword t :=
  avoids_of_spares beforeWord_edge ((takesNames_oneOf (by decide)).group 1) behindWord_edge h

theorem avoids_regexpCall (h : Spares ToTsql.regexpFunctionNames t) : Avoids regexpCall t := fun u w v hsplit hw => by
  have havoids : Avoids (edge ++ ("REGEXP_" ++ ToTsql.regexpNames) ++ (blanks ++ sym '(')) t :=
    avoids_of_spares beforeWord_edge ToTsql.takesNames_regexp behindWord_parenthesis h
  obtain ⟨a, b, rfl, ha, hb⟩ := matches_seq.1 (matches_assoc.1 hw)
  exact havoids u _ v hsplit (matches_seq.2 ⟨a, b, rfl, matches_assoc.1 ha, hb⟩)

end Checklist
end

/-! ## What becomes of `ROWNUM` -/

namespace ToTsql

/-- The expression that stands for a `ROWNUM` which is not a limit. -/
def rowNumber : Text := "ROW_NUMBER() OVER (ORDER BY (SELECT NULL))"

def rowNumberWarning : Warning := ⟨.rowLimit, "ROWNUM could not be converted to TOP and was replaced with ROW_NUMBER() OVER (ORDER BY (SELECT NULL)). Manual review required."⟩

/-- No `ROWNUM` is left in the code of the result. Each one that moving tests into `TOP` has left
becomes a row number, and then a warning is raised. -/
theorem rownumLimit_removes_rownum (sql : Text) (raised : List Warning) :
    ∃ moved log out log', (fixpoint rownumStep sql).run raised = some (moved, log) ∧
      (rownumLimit sql).run raised = some (out, log') ∧
      (keyword "ROWNUM").occursIn (mask out) = false ∧
      ((keyword "ROWNUM").occursIn (mask moved) = true →
        Replaced (fun _ => some rowNumber) 0 ((keyword "ROWNUM").findAll (mask moved)) moved out ∧
          log' = log ++ [rowNumberWarning]) ∧
      ((keyword "ROWNUM").occursIn (mask moved) = false → out = moved ∧ log' = log) := by
  have hname : isName "ROWNUM" = true := by decide
  have hdollar : '$' ∉ rowNumber := by decide
  obtain ⟨moved, hmoved⟩ := total_fixpoint total_rownumStep sql
  obtain ⟨log, hrun⟩ := hmoved raised
  by_cases hleft : (keyword "ROWNUM").occursIn (mask moved) = true
  · have hreplaced := (gives_replaceSpans_keyword (σ := Unit) hname hdollar moved).2
    refine ⟨moved, log, replaceCode (keyword "ROWNUM") rowNumber moved, log ++ [rowNumberWarning], hrun,
      ?_, ?_, fun _ => ⟨hreplaced, rfl⟩, fun h => absurd (h.symm.trans hleft) Bool.false_ne_true⟩
    · simp only [rownumLimit, StateT.run_bind, hrun, Option.bind_eq_bind, Option.bind_some, hleft]
      rfl
    · rw [Bool.eq_false_iff, ne_eq, occursIn_keyword_iff hname]
      rintro ⟨q, hq, hspelled⟩
      rw [pieces_mask_replaceCode hname hdollar (by decide) (by decide), List.mem_flatMap] at hq
      obtain ⟨p, -, hq⟩ := hq
      split_ifs at hq with hp
      · have hnone : ∀ q ∈ pieces rowNumber, ¬ Spelled "ROWNUM" q := by decide
        exact hnone q hq hspelled
      · rw [List.mem_singleton.1 hq] at hspelled
        exact hp hspelled
  · rw [Bool.not_eq_true] at hleft
    refine ⟨moved, log, moved, log, hrun, ?_, hleft, fun h => absurd (hleft.symm.trans h) Bool.false_ne_true, fun _ => ⟨rfl, rfl⟩⟩
    simp only [rownumLimit, StateT.run_bind, hrun, Option.bind_eq_bind, Option.bind_some, hleft]
    rfl

end ToTsql

end DialectBridge
