import DialectBridge.Proofs.CallVisits
import DialectBridge.Proofs.Lexing
import DialectBridge.Proofs.NumberMasks
/-!
# Formats that are literals

`TO_CHAR` and `FORMAT` are rewritten where the format is a literal, and left alone, with a warning, where it is
computed. What is taken for a literal is a text that begins and ends with a quote. This is the lexer's answer
if and only if the quotes between these two come in pairs (`agrees_iff`): two literals with an operator between
them begin and end with a quote as well, and so does a literal that is never closed.
-/
namespace DialectBridge
open Pattern Text Segment

/-! ## What a literal is -/

/-- The text is one literal, closed by its last quote, with `c` between the quotes. -/
structure IsLiteral (t c : Text) : Prop where
  alone : segments t = [⟨.literal, t⟩]
  quoted : t = literal c
  closed : Doubled '\'' c

section
variable {t c : Text}

theorem unquote?_eq_some_iff : unquote? t = some c ↔ t = literal c := by
  constructor
  · intro h
    unfold unquote? at h
    split at h
    · split_ifs at h with hlast
      obtain ⟨inside, rfl⟩ := List.getLast?_eq_some_iff.1 hlast
      obtain rfl : inside = c := by simpa using h
      rfl
    · exact nomatch h
  · rintro rfl
    exact unquote?_literal c

theorem unquote?_eq_none_iff : unquote? t = none ↔ ∀ c, t ≠ literal c := by
  simp only [Option.eq_none_iff_forall_ne_some, ne_eq, unquote?_eq_some_iff]

theorem literal_inj {d : Text} (h : literal c = literal d) : c = d := by
  simpa [literal] using h

/-- A text between quotes is one literal for the lexer, if its own quotes come in pairs. -/
theorem segments_literal (h : Doubled '\'' c) : segments (literal c) = [⟨.literal, literal c⟩] := by
  have hends : EndsQuoted '\'' (c ++ ['\'']) [] := .inl ⟨c, rfl, h, by simp⟩
  have hformed : Formed .literal (literal c) [] := ⟨_, rfl, hends⟩
  simpa [segments] using segments_of_formed (by simp [literal]) hformed (by simp)

theorem mask_literal (h : Doubled '\'' c) : mask (literal c) = '\'' :: (Text.spaces (Text.width c) ++ ['\'']) := by
  have hquote : Text.width ['\''] = Char.utf8Size '\'' := rfl
  rw [mask, segments_literal h, List.flatMap_singleton, Segment.masked]
  simp [literal, hquote]

theorem isLiteral_iff : IsLiteral t c ↔ t = literal c ∧ Doubled '\'' c := by
  constructor
  · exact fun h => ⟨h.quoted, h.closed⟩
  · rintro ⟨rfl, h⟩
    exact ⟨segments_literal h, rfl, h⟩

/-- Whether what is read between quotes is what the lexer finds there. -/
def Agrees (t : Text) : Prop := ∀ c, unquote? t = some c ↔ IsLiteral t c

/-- The two differ on texts between quotes with a quote inside that is not one of a pair, and on no others. -/
theorem agrees_iff : Agrees t ↔ ∀ c, t = literal c → Doubled '\'' c := by
  simp only [Agrees, unquote?_eq_some_iff, isLiteral_iff, iff_self_and]

end

/-! ## What the rules do with a format -/

/-- What is done with a call: its replacement, if it gets one, and the warnings that are raised. -/
structure Ruling where
  answer : Option Text
  raised : List Warning

/-- A rule for the calls of one function. -/
structure CallRule where
  function : String
  ruling : Call → Ruling

namespace CallRule

/-- The answer to a call, with the warnings in the log. -/
def answer (rule : CallRule) (call : Call) : Reporting (Option Text) := do
  modify (· ++ (rule.ruling call).raised)
  return (rule.ruling call).answer

/-- The calls of the function, each replaced as the rule has it. -/
def apply (rule : CallRule) (sql : Text) : Reporting Text := replaceCalls sql rule.function rule.answer

section
variable {rule : CallRule} {call : Call} {r : Option Text} {category : Category} {message : Text}

theorem answer_of_quiet (h : rule.ruling call = ⟨r, []⟩) : rule.answer call = pure r := by
  rw [answer, h]
  funext log
  simp only [List.append_nil]
  rfl

theorem answer_of_warning (h : rule.ruling call = ⟨r, [⟨category, message⟩]⟩) :
    rule.answer call = do
      warn category message
      return r := by
  rw [answer, h]
  rfl

end

/-- The answer to a call, of whose tail nothing is replaced. -/
def edit (rule : CallRule) (call : Call) : Reporting (Option (Text × Nat)) := do
  return (← rule.answer call).map fun r => (r, 0)

theorem run_edit (rule : CallRule) (call : Call) (log : List Warning) : (rule.edit call).run log =
    some ((rule.ruling call).answer.map (·, 0), log ++ (rule.ruling call).raised) := rfl

end CallRule

/-- A call with a format that is no literal stays, with a warning. -/
def computed (function : String) (format : Text) : Ruling :=
  ⟨none, [⟨.dateFormat,
    function ++ " with a computed format (" ++ format ++ ") cannot be converted automatically."⟩]⟩

def toCharRule : CallRule where
  function := "TO_CHAR"
  ruling call :=
    match call.args with
    | [value] => ⟨some ("CAST(" ++ value ++ " AS VARCHAR(4000))"), []⟩
    | [value, format] =>
      match unquote? format with
      | none => computed "TO_CHAR" format
      | some mask =>
        if NumberMask.isOracle mask then
          ⟨some ("FORMAT(" ++ value ++ ", '" ++ NumberMask.toNet mask ++ "')"), [⟨.dateFormat,
            "TO_CHAR number format '" ++ mask ++ "' converted to FORMAT(). Verify rounding and padding."⟩]⟩
        else ⟨some ("FORMAT(" ++ value ++ ", '" ++ DateMask.toNet mask ++ "')"), []⟩
    | _ => ⟨none, [⟨.dateFormat, "TO_CHAR with NLS parameters cannot be converted automatically.".toList⟩]⟩

def formatRule : CallRule where
  function := "FORMAT"
  ruling call :=
    match call.args with
    | [value, format] =>
      match unquote? format with
      | none => computed "FORMAT" format
      | some mask =>
        let new := if NumberMask.isNet mask then NumberMask.toOracle mask else DateMask.toOracle mask
        ⟨some ("TO_CHAR(" ++ value ++ ", '" ++ new ++ "')"), []⟩
    | _ => ⟨none, [⟨.dateFormat, "FORMAT with a culture argument cannot be converted automatically.".toList⟩]⟩

theorem toCharRule_apply (sql : Text) : toCharRule.apply sql = ToTsql.toChar sql := by
  refine congrArg (replaceCalls sql "TO_CHAR") (funext fun call => ?_)
  rcases hargs : call.args with _ | ⟨value, _ | ⟨format, _ | ⟨nls, more⟩⟩⟩ <;> dsimp only
  case cons.nil => exact CallRule.answer_of_quiet (by simp only [toCharRule, hargs])
  case cons.cons.nil =>
    cases hmask : unquote? format <;> dsimp only
    case none => exact CallRule.answer_of_warning (by simp only [toCharRule, hargs, hmask]; rfl)
    case some mask =>
      split_ifs with hnumber
      · exact CallRule.answer_of_warning (by simp only [toCharRule, hargs, hmask, if_pos hnumber])
      · exact CallRule.answer_of_quiet (by simp only [toCharRule, hargs, hmask, if_neg hnumber])
  all_goals exact CallRule.answer_of_warning (by simp only [toCharRule, hargs])

/-- The calls of `CONVERT`, which come before those of `FORMAT`. -/
def convertCalls (sql : Text) : Reporting Text :=
  replaceCalls sql "CONVERT" fun call =>
    match call.args with
    | [type, value] => ToOracle.convertCall type value none
    | [type, value, style] => ToOracle.convertCall type value (some style)
    | _ => return none

theorem formatRule_apply (sql : Text) :
    ToOracle.conversionFunctions sql = (do formatRule.apply (← convertCalls sql)) := by
  refine congrArg (convertCalls sql >>= ·) (funext fun sql => ?_)
  refine congrArg (replaceCalls sql "FORMAT") (funext fun call => .symm ?_)
  rcases hargs : call.args with _ | ⟨value, _ | ⟨format, _ | ⟨culture, more⟩⟩⟩ <;> dsimp only
  case cons.cons.nil =>
    cases hmask : unquote? format <;> dsimp only
    case none => exact CallRule.answer_of_warning (by simp only [formatRule, hargs, hmask]; rfl)
    case some mask => exact CallRule.answer_of_quiet (by simp only [formatRule, hargs, hmask])
  all_goals exact CallRule.answer_of_warning (by simp only [formatRule, hargs])

/-! ## Whole queries -/

section
variable {rule : CallRule} {name text out : Text} {limit : Nat} {log log' : List Warning} {visits : List Visit}

theorem CallRule.answers_edit (rule : CallRule) : Answers rule.edit := by
  intro call log
  refine ⟨_, _, rule.run_edit call log, fun x hx => ?_⟩
  obtain ⟨r, -, rfl⟩ := Option.map_eq_some_iff.1 hx
  exact isBoundary_zero _

/-- Each call that is visited gets the answer of the rule, and the log says what it says of these calls. -/
theorem Rounds.ruled (h : Rounds name rule.edit limit text log visits out log') :
    log' = log ++ visits.flatMap (fun v => (rule.ruling v.call).raised) ∧
      ∀ v ∈ visits, v.answer = (rule.ruling v.call).answer.map (·, 0) := by
  induction h with
  | done => simp
  | unmatched _ _ _ ih => exact ih
  | kept _ _ _ hedit _ ih | replaced _ _ _ hedit _ _ ih =>
    rw [CallRule.run_edit] at hedit
    obtain ⟨hanswer, rfl⟩ := Prod.mk.inj (Option.some.inj hedit)
    exact ⟨by simp [ih.1], List.forall_mem_cons.2 ⟨hanswer.symm, ih.2⟩⟩

theorem CallRule.exists_rounds (rule : CallRule) (sql : Text) (log : List Warning) : ∃ visits out,
    (rule.apply sql).run log = some (out, log ++ visits.flatMap fun v => (rule.ruling v.call).raised) ∧
      Rounds rule.function rule.edit (width sql + 1) sql log visits out
        (log ++ visits.flatMap fun v => (rule.ruling v.call).raised) ∧
      ∀ v ∈ visits, v.answer = (rule.ruling v.call).answer.map (·, 0) := by
  obtain ⟨visits, out, log', h⟩ := DialectBridge.exists_rounds rule.answers_edit (width sql + 1) sql log
  obtain ⟨rfl, hanswers⟩ := h.ruled
  exact ⟨visits, out, h.run, h, hanswers⟩

end

def formatRules : List CallRule := [toCharRule, formatRule]

/-- A call stays, with the warning for computed formats, if and only if the format does not begin and end with a
quote. -/
theorem ruling_eq_computed_iff {rule : CallRule} {call : Call} {value t : Text} (hrule : rule ∈ formatRules)
    (hargs : call.args = [value, t]) : rule.ruling call = computed rule.function t ↔ ∀ c, t ≠ literal c := by
  rw [← unquote?_eq_none_iff]
  simp only [formatRules, List.mem_cons, List.not_mem_nil, or_false] at hrule
  cases hmask : unquote? t with
  | none =>
    have hruling : rule.ruling call = computed rule.function t := by
      rcases hrule with rfl | rfl
      · simp only [toCharRule, hargs, hmask]
      · simp only [formatRule, hargs, hmask]
    simp only [hruling]
  | some mask =>
    have hanswer : (rule.ruling call).answer.isSome = true := by
      rcases hrule with rfl | rfl
      · simp only [toCharRule, hargs, hmask]
        split_ifs <;> rfl
      · simp only [formatRule, hargs, hmask]
        rfl
    simp only [reduceCtorEq, iff_false]
    exact fun hcomputed => absurd (hcomputed ▸ hanswer) (by simp only [computed]; decide)

/-- What is read between two quotes is what the lexer finds, if and only if the quotes inside come in pairs. In every
text the rules for `TO_CHAR` and for `FORMAT` visit the calls round by round and raise the warnings for them in this
order; a call with a value and a format stays with a warning if and only if the format does not begin and end with a
quote. So that every format but a literal makes it stay is true exactly where the two agree. -/
theorem literals_read_iff (t : Text) :
    (∀ sql, ToTsql.conversionFunctions sql = do
      ToTsql.toNumber (← ToTsql.toDate (← toCharRule.apply sql))) ∧
    (∀ sql, ToOracle.conversionFunctions sql = (do formatRule.apply (← convertCalls sql))) ∧
    (Agrees t ↔ ∀ c, t = literal c → Doubled '\'' c) ∧
    ∀ rule ∈ formatRules, ∀ sql log, ∃ visits out,
      (rule.apply sql).run log = some (out, log ++ visits.flatMap fun v => (rule.ruling v.call).raised) ∧
      Rounds rule.function rule.edit (width sql + 1) sql log visits out
        (log ++ visits.flatMap fun v => (rule.ruling v.call).raised) ∧
      ∀ v ∈ visits, v.answer = (rule.ruling v.call).answer.map (·, 0) ∧
        ∀ value, v.call.args = [value, t] →
          (rule.ruling v.call = computed rule.function t ↔ ∀ c, t ≠ literal c) ∧
          (((¬ ∃ c, IsLiteral t c) → rule.ruling v.call = computed rule.function t) ↔ Agrees t) := by
  refine ⟨fun sql => by simp only [toCharRule_apply]; rfl, formatRule_apply, agrees_iff, fun rule hrule sql log => ?_⟩
  obtain ⟨visits, out, hrun, hrounds, hanswers⟩ := rule.exists_rounds sql log
  refine ⟨visits, out, hrun, hrounds, fun v hv => ⟨hanswers v hv, fun value hargs => ?_⟩⟩
  have hcomputed := ruling_eq_computed_iff hrule hargs
  refine ⟨hcomputed, ?_⟩
  rw [hcomputed, agrees_iff]
  constructor
  · rintro hleft c rfl
    by_contra hopen
    refine hleft ?_ c rfl
    rintro ⟨d, hd⟩
    exact hopen (literal_inj hd.quoted ▸ hd.closed)
  · rintro hpairs hnone c rfl
    exact hnone ⟨c, isLiteral_iff.2 ⟨rfl, hpairs c rfl⟩⟩

/-- Two literals with an operator between them are taken for one. -/
theorem concatenation_read_as_literal :
    unquote? "'YYYY' || 'MM'".toList = some "YYYY' || 'MM".toList ∧
    (¬ ∃ c, IsLiteral "'YYYY' || 'MM'".toList c) ∧
    (ToTsql.conversionFunctions "SELECT TO_CHAR(d, 'YYYY' || 'MM') FROM t".toList).run [] =
      some ("SELECT FORMAT(d, 'yyyy' || 'MM') FROM t".toList, []) ∧
    (ToOracle.conversionFunctions "SELECT FORMAT(d, 'yyyy' + 'MM') FROM t".toList).run [] =
      some ("SELECT TO_CHAR(d, 'YYYY' + 'MM') FROM t".toList, []) := by
  refine ⟨by decide, ?_, by decide +kernel, by decide +kernel⟩
  rintro ⟨c, hc⟩
  have hsegments : segments "'YYYY' || 'MM'".toList =
      [⟨.literal, "'YYYY'".toList⟩, ⟨.code, " || ".toList⟩, ⟨.literal, "'MM'".toList⟩] := by decide +kernel
  exact absurd (hc.alone.symm.trans hsegments) (by decide)

end DialectBridge
