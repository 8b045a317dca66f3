import DialectBridge.Proofs.CastParts
import DialectBridge.Proofs.MaskSegments
import DialectBridge.Proofs.QuotedFormats
import DialectBridge.Proofs.Totality
/-!
# Where the comments of a result come from

An argument is trimmed, and a comment that runs to the end of its line loses the line feed that ends
it: what is put behind the argument becomes a part of the comment. Where there are no such comments, a
call that is written anew from its arguments has no comment but those of its arguments. Two rules look
into an argument: one respells a format, and the other a type. They bring in no comment either if each
format is one literal and each value that is cast ends in code (`comments_of_rewritten_calls`).
-/
namespace DialectBridge
open Pattern LexState Text

section
variable {S : List Text} {names : List String} {t u v : Text}

theorem Clean.sane (h : Clean S t) : Sane S [] t := ⟨h, by simp [Spares]⟩

theorem Piece.sanePart (h : Piece S t) : SanePart S [] t := ⟨h.1.sane, h.2⟩

theorem SanePart.piece (h : SanePart S names t) : Piece S t := ⟨h.clean, h.live⟩

/-- The text between the parentheses of a call that is a whole argument. -/
theorem Piece.inside (h : Piece S (u ++ '(' :: (t ++ [')']))) (hu : ∀ c ∈ u, isPlain c = true) : Piece S t := by
  have hopen : ∀ c ∈ u ++ ['('], isPlain c = true := List.forall_mem_append.2 ⟨hu, by decide⟩
  have hcode : code.after (u ++ ['(']) = code := after_of_all_isPlain rfl hopen (by simp)
  rw [← List.singleton_append, ← List.append_assoc] at h
  have hclean := h.1.right (by rw [hcode]; exact joins_code _)
  have hlive := h.2
  rw [after_append, hcode] at hlive
  have hlive := live_of_plain (hclean.unlined _ (List.prefix_append _ _)) (by decide) hlive
  exact ⟨hclean.left (joins_of_live hlive (by decide)), hlive⟩

theorem Leads.yields {x : Reporting Text} (h : Leads x [] fun out _ => Sane S names out) (htotal : Total x) :
    Yields x fun out => comments out ⊆ S := by
  obtain ⟨out, hout⟩ := htotal
  obtain ⟨raised, hrun⟩ := hout []
  exact ⟨out, hout, (h out raised hrun).clean.comments⟩

end

/-! ## The calls that a rule visits -/

namespace CallRule

/-- Notes a call, and answers it as the rule does. -/
def note (rule : CallRule) (call : Call) : Editing (List Call) (Option Text) := do
  modify (· ++ [call])
  return (rule.ruling call).answer

/-- The calls that the rule visits, each as it is read in its round. -/
def calls (rule : CallRule) (sql : Text) : List Call :=
  (((replaceCalls sql rule.function rule.note).run []).map Prod.snd).getD []

/-- The rule for the calls with `P`; other calls stay. -/
def within (rule : CallRule) (P : Call → Prop) [DecidablePred P] : CallRule where
  function := rule.function
  ruling call := if P call then rule.ruling call else ⟨none, []⟩

section
variable {rule : CallRule} {P : Call → Prop} {name text sql out : Text} {limit : Nat}
  {log log' : List Warning} {seen seen' : List Call} {visits : List Visit} {S : List Text} {names : List String}

theorem ruling_within [DecidablePred P] {call : Call} (h : P call) : (rule.within P).ruling call = rule.ruling call :=
  if_pos h

/-- The answer to a call that is noted, of whose tail nothing is replaced. -/
def noteEdit (rule : CallRule) (call : Call) : Editing (List Call) (Option (Text × Nat)) := do
  return (← rule.note call).map fun r => (r, 0)

theorem run_noteEdit (rule : CallRule) (call : Call) (seen : List Call) : (rule.noteEdit call).run seen =
    some ((rule.ruling call).answer.map (·, 0), seen ++ [call]) := rfl

theorem seen_of_rounds (h : Rounds name rule.noteEdit limit text seen visits out seen') :
    seen' = seen ++ visits.map Visit.call := by
  induction h with
  | done => simp
  | unmatched _ _ _ ih => exact ih
  | kept _ _ _ hedit _ ih | replaced _ _ _ hedit _ _ ih =>
    rw [run_noteEdit] at hedit
    obtain ⟨-, rfl⟩ := Prod.mk.inj (Option.some.inj hedit)
    simp [ih]

/-- The rounds of a rule visit its calls, and the answers are those of the rule. -/
theorem exists_rounds_calls (rule : CallRule) (sql : Text) (log : List Warning) :
    ∃ visits out log', Rounds rule.function rule.edit (width sql + 1) sql log visits out log' ∧
      rule.calls sql = visits.map Visit.call ∧ ∀ v ∈ visits, v.answer = (rule.ruling v.call).answer.map (·, 0) := by
  obtain ⟨visits, out, -, h, hanswers⟩ := rule.exists_rounds sql log
  obtain ⟨seen, hnoted⟩ := h.transfer (g := rule.noteEdit) (fun v hv t => ⟨_, by rw [run_noteEdit, hanswers v hv]⟩) []
  refine ⟨visits, out, _, h, ?_, hanswers⟩
  have hrun : (replaceCalls sql rule.function rule.note).run [] = some (out, seen) := hnoted.run
  simp [calls, hrun, seen_of_rounds hnoted]

/-- What is put in for the calls that are visited fits, so the result is as sane as the query. -/
theorem leads_apply (hname : isName rule.function = true) (hunmarked : Unmarked rule.function)
    (hfits : ∀ call, P call → (∀ p ∈ call.inner :: call.args, SanePart S names p) →
      ∀ t ∈ (rule.ruling call).answer, Fits S names t)
    (hcalls : ∀ call ∈ rule.calls sql, P call) (hsane : Sane S names sql) :
    Leads (rule.apply sql) log fun out _ => Sane S names out := by
  classical
  obtain ⟨visits, out, log', h, hvisits, hanswers⟩ := rule.exists_rounds_calls sql log
  rw [hvisits, List.forall_mem_map] at hcalls
  -- the rule for the calls with `P` has the same rounds
  obtain ⟨log'', hwithin⟩ := h.transfer (g := (rule.within P).edit) (fun v hv t =>
    ⟨_, by rw [run_edit, ruling_within (hcalls v hv), hanswers v hv]⟩) log
  have hleads : Leads ((rule.within P).apply sql) log fun out _ => Sane S names out := by
    refine sane_replaceCalls hname hunmarked (fun call log hparts => .bind (leads_modify (leads_pure ?_))) hsane
    by_cases hcall : P call
    · simpa only [ruling_within hcall] using hfits call hcall hparts
    · simp [within, hcall]
  have hsane' := hleads out log'' hwithin.run
  intro out' log₁ hrun
  have hsame : (rule.apply sql).run log = some (out, log') := h.run
  rw [hrun] at hsame
  obtain ⟨rfl, -⟩ := Prod.mk.inj (Option.some.inj hsame)
  exact hsane'

end

end CallRule

/-! ## Formats -/

section
variable {c q : Char} {t u : Text}

theorem doubled_cons (hc : c ≠ q) : Doubled q (c :: t) ↔ Doubled q t := by
  refine ⟨fun h => ?_, .other hc⟩
  cases h with
  | other _ h => exact h
  | pair _ => exact absurd rfl hc

theorem doubled_append (hu : q ∉ u) : Doubled q (u ++ t) ↔ Doubled q t := by
  induction u with
  | nil => rfl
  | cons c u ih =>
    obtain ⟨hc, hu⟩ : q ≠ c ∧ q ∉ u := by simpa using hu
    rw [List.cons_append, doubled_cons (Ne.symm hc), ih hu]

theorem doubled_of_not_mem (ht : q ∉ t) : Doubled q t := by
  simpa using (doubled_append (t := []) ht).2 .nil

end

namespace DateMask
variable {tokens : List (String × String)} {fold : Bool} {t : Text}

/-- Tokens of letters and digits that are respelled without quotes leave the pairs of quotes alone. -/
theorem doubled_respellFrom (htable : Alphanumeric tokens) (hnew : ∀ e ∈ tokens, '\'' ∉ e.2.toList)
    (h : Doubled '\'' t) : Doubled '\'' (respellFrom tokens fold 0 t) := by
  have hquote : isSeparator '\'' = true := by decide
  induction hn : t.length using Nat.strongRecOn generalizing t with
  | ind n ih =>
    subst hn
    cases h with
    | nil => exact .nil
    | pair h =>
      rw [respellFrom_separator htable hquote, respellFrom_separator htable hquote]
      exact .pair (ih _ (by simp only [List.length_cons]; omega) h rfl)
    | @other c t hc h =>
      cases hfind : tokens.find? fun e => begins fold e.1 (c :: t) with
      | none =>
        rw [respellFrom, hfind]
        exact .other hc (ih _ (by simp) h rfl)
      | some e =>
        -- the token is read as a whole, and there is no quote in it
        have hmem := List.mem_of_find?_eq_some hfind
        obtain ⟨hne, hletters⟩ := htable e hmem
        have hbegins : begins fold e.1 (c :: t) = true := by simpa using List.find?_some hfind
        obtain ⟨hlength, hhead⟩ := head_of_begins hbegins
        have hpos := List.length_pos_iff.2 hne
        obtain ⟨k, hk⟩ : ∃ k, e.1.toList.length = k + 1 := ⟨e.1.toList.length - 1, by omega⟩
        have hk' : e.1.length - 1 = k := by rw [← String.length_toList, hk, Nat.add_sub_cancel]
        rw [hk, List.take_succ_cons] at hhead hlength
        have hquotes : '\'' ∉ t.take k := fun hmem => by
          have := hhead hletters _ (List.mem_cons_of_mem c hmem)
          simp [isSeparator, this] at hquote
        have hskip : respellFrom tokens fold k t = respellFrom tokens fold 0 (t.drop k) := by
          have hk : (t.take k).length = k := by simpa using hlength
          have : respellFrom tokens fold (t.take k).length (t.take k ++ t.drop k) = respellFrom tokens fold 0 (t.drop k) :=
            respellFrom_length _ _
          rwa [hk, List.take_append_drop] at this
        rw [respellFrom, hfind]
        dsimp only
        rw [hk', hskip, doubled_append (hnew e hmem)]
        rw [← List.take_append_drop k t, doubled_append hquotes] at h
        exact ih _ (by simp only [List.length_drop, List.length_cons]; omega) h rfl

end DateMask

def netMask (mask : Text) : Text :=
  if NumberMask.isOracle mask then NumberMask.toNet mask else DateMask.toNet mask

theorem doubled_netMask {mask : Text} (h : Doubled '\'' mask) : Doubled '\'' (netMask mask) := by
  unfold netMask
  split_ifs with hnumber
  · refine doubled_of_not_mem fun hmem => ?_
    have := NumberMask.mem_of_mem_toNet hnumber hmem
    revert this
    decide
  · exact DateMask.doubled_respellFrom DateMask.alphanumeric_oracleTokens (by decide) h

/-- A literal has no comment and ends in code. -/
theorem sanePart_literal {S : List Text} {names : List String} {c : Text} (hnames : names ⊆ limitWords)
    (h : Doubled '\'' c) : SanePart S names (literal c) := by
  have hcomments : comments (literal c) = [] := by simp [comments, segments_literal h]
  have hafter : code.after (literal c) = closed .single := by
    have hinside : (quoted .single).after c = quoted .single := after_doubled h
    rw [literal, after_cons, after_append, show code.step '\'' = quoted .single from rfl, hinside]
    rfl
  refine ⟨⟨⟨(comments_eq_nil_iff.1 hcomments).unlined, by simp [hcomments]⟩, ?_⟩, by rw [hafter]; rfl⟩
  have hlimit : ∀ n ∈ limitWords, isName n.toList = true := by decide
  rw [mask_literal h]
  exact spares_spaces (fun n hn => hlimit n (hnames hn)) _

/-- Whether a format of a call is one literal, if it begins and ends with a quote. -/
def LiteralFormat (call : Call) : Prop := ∀ value format, call.args = [value, format] → Agrees format

namespace ToTsql
variable {S : List Text} {names : List String} {call : Call}

/-- What is written around a value and its format. -/
theorem joints_toChar : ∀ gs ∈ [["CAST(".toList, " AS VARCHAR(4000))".toList], ["FORMAT(".toList, ", ".toList, ")".toList]],
    Joints [] limitWords gs := by
  repeat rewrite [String.toList_ofList]
  decide +kernel

theorem fits_toChar (hnames : names ⊆ limitWords) (hformat : LiteralFormat call)
    (hparts : ∀ p ∈ call.inner :: call.args, SanePart S names p) :
    ∀ t ∈ (toCharRule.ruling call).answer, Fits S names t := by
  have hjoints := joints_toChar
  simp only [List.forall_mem_cons] at hjoints
  obtain ⟨hcast, hnet, -⟩ := hjoints
  rcases hargs : call.args with _ | ⟨value, _ | ⟨format, _ | ⟨nls, more⟩⟩⟩ <;>
    simp only [toCharRule, hargs, Option.mem_def, reduceCtorEq, false_imp_iff, implies_true]
  · rintro _ ⟨⟩
    have hvalue := hparts value (by simp [hargs])
    have := (isJoint_stitch [value] (hcast.mono hnames) rfl (by simpa using hvalue)).1.fits
    simpa [stitch] using this
  · cases hmask : unquote? format with
    | none => simp [computed]
    | some mask =>
      have hvalue := hparts value (by simp [hargs])
      have hmask' := doubled_netMask (agrees_iff.1 (hformat value format hargs) mask (unquote?_eq_some_iff.1 hmask))
      have := (isJoint_stitch [value, literal (netMask mask)] (hnet.mono hnames) rfl
        (by simpa using ⟨hvalue, sanePart_literal hnames hmask'⟩)).1.fits
      simp only [netMask] at this
      dsimp only
      split_ifs at this ⊢ with hnumber
      all_goals
        rintro _ ⟨⟩
        simpa [stitch, literal] using this

/-- The rule for `TO_CHAR` brings nothing into a query in which each format is one literal. -/
theorem leads_toChar {sql : Text} {raised : List Warning} (hnames : names ⊆ limitWords)
    (hformats : ∀ call ∈ toCharRule.calls sql, LiteralFormat call) (hsane : Sane S names sql) :
    Leads (toChar sql) raised fun out _ => Sane S names out := by
  rw [← toCharRule_apply]
  exact CallRule.leads_apply (by decide) (by decide) (fun _ => fits_toChar hnames) hformats hsane

end ToTsql

/-! ## Casts -/

namespace DataType

/-- The Oracle spelling of a type is plain, but for the precision of a number, which is kept. -/
theorem toOracle?_cases {type new : Text} (h : toOracle? type = some new) : (∀ c ∈ new, isPlain c = true) ∨
    ∃ t p e, type = t ++ (p ++ e) ∧ new = "NUMBER".toList ++ p ∧ (∀ c ∈ t, isPlain c = true) ∧
      beginsInWord p = false ∧ ∀ c ∈ e, Unicode.isBlank c = true := by
  unfold toOracle? at h
  cases hchar : tsqlChar.find? (trim type) with
  | some m =>
    obtain ⟨⟨k, b, b', y, ht, hn, -⟩, ⟨g, g', hmatch⟩, -⟩ := charType_tsqlChar.isCharType hchar
    have hplain := isPlain_of_takes (by decide) hmatch
    have hnational : ∀ c ∈ m.groupD 1, isPlain c = true := fun c hc => hplain c (by rw [ht]; simp [hc])
    have hlength : ∀ c ∈ m.groupD 2, isPlain c = true := fun c hc => hplain c (by rw [ht]; simp [hc])
    simp only [hchar] at h
    refine .inl ?_
    split_ifs at h <;> obtain rfl := Option.some.inj h <;> simp only [List.forall_mem_append]
    · exact ⟨hnational, by decide⟩
    · exact ⟨⟨⟨hnational, by decide⟩, hlength⟩, by decide⟩
  | none =>
  simp only [hchar] at h
  cases hnumber : tsqlNumeric.find? (trim type) with
  | some m =>
    obtain ⟨b, e, hsplit, hb, he⟩ := exists_trim type
    obtain ⟨k, b', p, ht, ⟨g, g', hk⟩, hb', hp, hgroup⟩ :=
      exists_of_numberType (q := oneOf ["DECIMAL", "NUMERIC"]) (by decide) hnumber
    simp only [hnumber, hgroup.groupD] at h
    obtain rfl := Option.some.inj h
    refine .inr ⟨b ++ (k ++ b'), p, e, by rw [hsplit, ht]; simp, rfl, ?_, ?_, he⟩
    · simp only [List.forall_mem_append]
      exact ⟨fun c hc => isPlain_of_isBlank (hb c hc), isPlain_of_takes (by decide) hk,
        fun c hc => isPlain_of_isBlank (hb' c hc)⟩
    · rcases hp with rfl | ⟨x, rfl, -⟩ <;> rfl
  | none =>
  simp only [hnumber] at h
  refine .inl ?_
  split at h
  · rename_i entry hentry
    obtain rfl := Option.some.inj h
    have hnames : ∀ entry ∈ tsqlNames, ∀ c ∈ entry.2.toList, isPlain c = true := by decide
    exact hnames entry (List.mem_of_find?_eq_some hentry)
  · split_ifs at h
    obtain rfl := Option.some.inj h
    decide

end DataType

/-- Whether the value of a cast ends in code, so that the `AS` behind it is no part of a literal or of a comment. -/
def ValueInCode (call : Call) : Prop :=
  ∀ arg, call.args = [arg] → ∀ m ∈ DataType.castTarget.find? arg, (code.after (m.groupD 1)).live = true

namespace ToOracle
variable {S : List Text} {available : List Text} {call : Call} {t : Text}

def castRule : CallRule where
  function := "CAST"
  ruling call :=
    match call.args with
    | [arg] =>
      ⟨do
        let m ← DataType.castTarget.find? arg
        let type := trim (m.groupD 2)
        if sameLetters type "DATE" then some ("TRUNC(" ++ m.groupD 1 ++ ")")
        else return "CAST(" ++ m.groupD 1 ++ " AS " ++ (← DataType.toOracle? type) ++ ")", []⟩
    | _ => ⟨none, []⟩

theorem castRule_apply (sql : Text) : castRule.apply sql = castTypes sql := by
  refine congrArg (replaceCalls sql "CAST") (funext fun call => ?_)
  rcases hargs : call.args with _ | ⟨arg, _ | ⟨more, _⟩⟩ <;>
    exact CallRule.answer_of_quiet (by simp only [castRule, hargs])

/-- What is written around the arguments of calls. -/
def templates : List (List Text) := [
  ["NVL(", ")"], ["CASE WHEN ", " THEN ", " ELSE ", " "], ["CAST(", ")"], ["TRUNC(", ")"], ["TRUNC(", ", 'YYYY')"],
  ["TRUNC(", ", 'MM')"], ["ADD_MONTHS(", ", ", ")"], ["ADD_MONTHS(", ", 12 * (", "))"], ["(", " + ", ")"],
  ["(", " + 7 * (", "))"], ["(", " + (", ") / 24)"], ["(", " + (", ") / 1440)"], ["(", " + (", ") / 86400)"],
  ["MONTHS_BETWEEN(", ", ", ")"], ["(TRUNC(", ") - TRUNC(", "))"], ["LAST_DAY(", ")"],
  ["LAST_DAY(ADD_MONTHS(", ", ", "))"]]

theorem joints_templates : ∀ gs ∈ templates, Joints [] [] gs := by
  unfold templates
  repeat rewrite [String.toList_ofList]
  decide +kernel

theorem fits_template (gs parts : List Text) (hgs : gs ∈ templates) (hlength : gs.length = parts.length + 1)
    (hparts : ∀ p ∈ available, SanePart S [] p) (hsub : parts ⊆ available) (ht : t = stitch gs parts) :
    DialectBridge.Fits S [] t := by
  rw [ht]
  exact (isJoint_stitch parts ((joints_templates gs hgs).mono (List.nil_subset _)) hlength
    fun p hp => hparts p (hsub hp)).1.fits

theorem fits_cast (hvalue : ValueInCode call) (hparts : ∀ p ∈ call.inner :: call.args, SanePart S [] p) :
    ∀ t ∈ (castRule.ruling call).answer, DialectBridge.Fits S [] t := by
  rcases hargs : call.args with _ | ⟨arg, _ | ⟨more, _⟩⟩ <;>
    simp only [castRule, hargs, Option.mem_def, reduceCtorEq, false_imp_iff, implies_true]
  intro t ht
  obtain ⟨m, hm, ht⟩ := Option.bind_eq_some_iff.1 ht
  obtain ⟨b, a, b', harg, hb, ha, hb'⟩ := DataType.exists_castTarget hm
  have hpart := hparts arg (by simp [hargs])
  have hlive := hvalue arg hargs m hm
  have hv : SanePart S [] (m.groupD 1) := by
    rw [harg] at hpart
    refine ⟨hpart.clean.left (mask_cut hlive (fun c hc => isPlain_of_isBlank (hb.2 c hc)) hb.1) |>.sane, hlive⟩
  split_ifs at ht
  · obtain rfl := Option.some.inj ht
    exact fits_template ["TRUNC(".toList, ")".toList] [m.groupD 1] (by decide) rfl (by simpa using hv) (List.Subset.refl _)
      (by simp [stitch])
  obtain ⟨type, htype, ht⟩ := Option.bind_eq_some_iff.1 ht
  obtain rfl := Option.some.inj ht
  have hnew : SanePart S [] (m.groupD 1 ++ (" AS ".toList ++ type)) := by
    rcases DataType.toOracle?_cases htype with hplain | ⟨k, p, e, hold, rfl, hk, hp, he⟩
    · have hlink : ∀ c ∈ " AS ".toList ++ type, isPlain c = true := List.forall_mem_append.2 ⟨by decide, hplain⟩
      have hcode : code.after (m.groupD 1 ++ (" AS ".toList ++ type)) = code := by
        rw [after_append]
        exact after_of_all_isPlain hlive hlink (by simp)
      have hjoins : (code.after (m.groupD 1)).joins (" AS ".toList ++ type) = true := by
        simpa using mask_cut (b := []) hlive hlink (by simp)
      exact ⟨(hv.clean.append (clean_of_isPlain hlink) hjoins).sane, by rw [hcode]; rfl⟩
    · -- the precision is kept, and the white space behind it is not
      obtain ⟨c, c', htype, hc, hc'⟩ := DataType.exists_trim (m.groupD 2)
      have hswap : Swap [] (b ++ (a ++ (b' ++ (c ++ k)))) (" AS ".toList ++ "NUMBER".toList) := DataType.swap_castLink hb ha
        hb'.2 (List.forall_mem_append.2 ⟨fun d hd => isPlain_of_isBlank (hc d hd), hk⟩) (by decide) (by simp [Spares])
      rw [harg, htype, hold] at hpart
      have := hswap.exchange_code (v := m.groupD 1) (p := p) (e := e ++ c') (by simpa using hpart) hlive hp
        (List.forall_mem_append.2 ⟨he, hc'⟩)
      simpa using this
  exact fits_template ["CAST(".toList, ")".toList] [m.groupD 1 ++ (" AS ".toList ++ type)] (by decide) rfl
    (by simpa using hnew) (List.Subset.refl _) (by simp [stitch])

/-! ## Dates and null values -/

def rewrittenCalls : List Text := ["ISNULL", "IIF", "DATEFROMPARTS", "DATEADD", "DATEDIFF", "EOMONTH"]

theorem unmarked_rewrittenCalls : ∀ name ∈ rewrittenCalls, isName name = true ∧ Unmarked name := by decide

theorem keeps_rewritten {name : Text} {f : Call → Reporting (Option Text)} (hname : name ∈ rewrittenCalls)
    (hf : ∀ call raised, (∀ p ∈ call.inner :: call.args, SanePart S [] p) →
      Leads (f call) raised fun r _ => ∀ t ∈ r, DialectBridge.Fits S [] t) :
    Keeps S [] fun sql => replaceCalls sql name f :=
  fun _ _ => sane_replaceCalls (unmarked_rewrittenCalls _ hname).1 (unmarked_rewrittenCalls _ hname).2 hf

theorem keeps_nullFunctions : Keeps S [] nullFunctions := by
  have hrename : Joints [] [] ["NVL(".toList, ")".toList] := joints_templates _ (by decide)
  refine .bind (keeps_renameCalls (by decide) (by decide) (hrename.mono (List.nil_subset _))) ?_
  refine keeps_rewritten (by decide) fun call raised hparts => ?_
  split
  · rename_i condition yes no hargs
    have hjoints : Joints [] [] ["CASE WHEN ".toList, " THEN ".toList, " ELSE ".toList, " ".toList] :=
      joints_templates _ (by decide)
    exact leads_stitch_end _ [condition, yes, no] (List.nil_subset _) (hjoints.mono (List.nil_subset _)) rfl hparts
      (by simp [hargs]) (by simp [stitch])
  · exact leads_none

/-- A call that is a whole text. -/
theorem exists_wholeCall {name : Text} {m : Match} (h : (wholeCall name).find? t = some m) :
    ∃ n b, t = n ++ b ++ '(' :: (m.groupD 1 ++ [')']) ∧ Spelled name n ∧ ∀ c ∈ b, Unicode.isBlank c = true := by
  obtain ⟨u, x, rfl, hat⟩ := exists_of_find? h
  obtain ⟨w, v, rfl, -, -, hw⟩ := matchAt?_eq_some hat
  obtain ⟨w, e, g₁, rfl, hw, he⟩ := hw
  obtain ⟨w, k, g₂, rfl, hw, hk⟩ := hw
  obtain ⟨w, r, g₃, rfl, hw, g₄, hr, rfl⟩ := hw
  obtain ⟨w, o, g₅, rfl, hw, ho⟩ := hw
  obtain ⟨w, b, g₆, rfl, hw, hb⟩ := hw
  obtain ⟨s, n, g₇, rfl, hs, hn⟩ := hw
  obtain ⟨rfl, rfl⟩ := matches_textStart.1 ⟨_, _, hs⟩
  obtain ⟨rfl, rfl⟩ := matches_textEnd.1 ⟨_, _, he⟩
  obtain rfl := matches_sym.1 ⟨_, _, hk⟩
  obtain rfl := matches_sym.1 ⟨_, _, ho⟩
  have hgroups := he.groups_eq rfl
  rw [hk.groups_eq rfl] at hgroups
  have hinside : m.groupD 1 = r := Match.groupD_eq (by decide) (by rw [hgroups]; rfl)
  exact ⟨n, b, by simp [hinside], (takes_word hn).1, (takes_blanks hb).1⟩

theorem sanePart_wholeCall {name : Text} {m : Match} (hname : isName name = true) (ht : SanePart S [] t)
    (h : (wholeCall name).find? t = some m) : SanePart S [] (trim (m.groupD 1)) := by
  obtain ⟨n, b, rfl, hn, hb⟩ := exists_wholeCall h
  refine (ht.piece.inside (List.forall_mem_append.2 ⟨fun c hc => ?_, fun c hc => ?_⟩)).trim.sanePart
  · exact isPlain_of_isWordChar (hn.isWordChar hname c hc)
  · exact isPlain_of_isBlank (hb c hc)

theorem fits_truncFromParts? {year month day : Text} (hyear : SanePart S [] year)
    (h : truncFromParts? year month day = some t) : DialectBridge.Fits S [] t := by
  obtain ⟨m, hm, h⟩ := Option.bind_eq_some_iff.1 h
  have hdate := sanePart_wholeCall (by decide) hyear hm
  split_ifs at h
  · obtain rfl := Option.some.inj h
    exact fits_template ["TRUNC(".toList, ", 'YYYY')".toList] [trim (m.groupD 1)] (by decide) rfl (by simpa using hdate)
      (List.Subset.refl _) (by simp [stitch])
  · obtain ⟨m', hm', h⟩ := Option.bind_eq_some_iff.1 h
    split_ifs at h
    obtain rfl := Option.some.inj h
    exact fits_template ["TRUNC(".toList, ", 'MM')".toList] [trim (m.groupD 1)] (by decide) rfl (by simpa using hdate)
      (List.Subset.refl _) (by simp [stitch])

theorem fits_dateAdd? {unit amount date : Text} (hparts : ∀ p ∈ [amount, date], SanePart S [] p)
    (h : dateAdd? unit amount date = some t) : DialectBridge.Fits S [] t := by
  unfold dateAdd? at h
  dsimp only at h
  split_ifs at h <;> obtain rfl := Option.some.inj h
  · exact fits_template ["ADD_MONTHS(".toList, ", ".toList, ")".toList] [date, amount] (by decide) rfl hparts (by simp)
      (by simp [stitch])
  · exact fits_template ["ADD_MONTHS(".toList, ", 12 * (".toList, "))".toList] [date, amount] (by decide) rfl hparts
      (by simp) (by simp [stitch])
  · exact fits_template ["(".toList, " + ".toList, ")".toList] [date, amount] (by decide) rfl hparts (by simp)
      (by simp [stitch])
  · exact fits_template ["(".toList, " + 7 * (".toList, "))".toList] [date, amount] (by decide) rfl hparts (by simp)
      (by simp [stitch])
  · exact fits_template ["(".toList, " + (".toList, ") / 24)".toList] [date, amount] (by decide) rfl hparts (by simp)
      (by simp [stitch])
  · exact fits_template ["(".toList, " + (".toList, ") / 1440)".toList] [date, amount] (by decide) rfl hparts (by simp)
      (by simp [stitch])
  · exact fits_template ["(".toList, " + (".toList, ") / 86400)".toList] [date, amount] (by decide) rfl hparts (by simp)
      (by simp [stitch])

theorem keeps_dateAdd : Keeps S [] dateAdd := by
  refine keeps_rewritten (by decide) fun call raised hparts => ?_
  split
  · rename_i unit amount date hargs
    split
    · rename_i new hnew
      exact leads_some (fits_dateAdd? (fun p hp => hparts p (by simp [hargs] at hp ⊢; tauto)) hnew)
    · exact .bind (leads_modify leads_none)
  · exact leads_none

theorem keeps_dateDiff : Keeps S [] dateDiff := by
  refine keeps_rewritten (by decide) fun call raised hparts => ?_
  split
  · rename_i unit start finish hargs
    dsimp only
    split_ifs
    · refine .bind (leads_modify (leads_some ?_))
      exact fits_template ["MONTHS_BETWEEN(".toList, ", ".toList, ")".toList] [finish, start] (by decide) rfl hparts
        (by simp [hargs]) (by simp [stitch])
    · refine leads_some ?_
      exact fits_template ["(TRUNC(".toList, ") - TRUNC(".toList, "))".toList] [finish, start] (by decide) rfl hparts
        (by simp [hargs]) (by simp [stitch])
    · exact .bind (leads_modify leads_none)
  · exact leads_none

def dateCalls (sql : Text) : Reporting Text := do
  let sql ← replaceCalls sql "DATEFROMPARTS" fun call =>
    match call.args with
    | [year, month, day] => return truncFromParts? year month day
    | _ => return none
  let sql ← dateAdd sql
  let sql ← dateDiff sql
  replaceCalls sql "EOMONTH" fun call =>
    match call.args with
    | [date] => return some ("LAST_DAY(" ++ date ++ ")")
    | [date, months] => return some ("LAST_DAY(ADD_MONTHS(" ++ date ++ ", " ++ months ++ "))")
    | _ => return none

theorem dateFunctions_eq (sql : Text) : dateFunctions sql = (do dateCalls (← castRule.apply sql)) := by
  rw [castRule_apply]
  rfl

theorem keeps_dateCalls : Keeps S [] dateCalls := by
  refine .bind ?_ (.bind keeps_dateAdd (.bind keeps_dateDiff ?_))
  · refine keeps_rewritten (by decide) fun call raised hparts => ?_
    split
    · rename_i year month day hargs
      exact leads_pure fun t ht => fits_truncFromParts? (hparts year (by simp [hargs])) ht
    · exact leads_none
  · refine keeps_rewritten (by decide) fun call raised hparts => ?_
    split
    · rename_i date hargs
      exact leads_some (fits_template ["LAST_DAY(".toList, ")".toList] [date] (by decide) rfl hparts (by simp [hargs])
        (by simp [stitch]))
    · rename_i date months hargs
      exact leads_some (fits_template ["LAST_DAY(ADD_MONTHS(".toList, ", ".toList, "))".toList] [date, months] (by decide)
        rfl hparts (by simp [hargs]) (by simp [stitch]))
    · exact leads_none

end ToOracle

/-- Rules that write calls anew from their own arguments. -/
def stitchingRules : List (Text → Reporting Text) :=
  [ToTsql.nvl2, ToTsql.decode, ToTsql.trunc, ToTsql.dateFunctions, ToTsql.stringFunctions, ToOracle.nullFunctions]

theorem total_stitchingRules (sql : Text) : ∀ rule ∈ stitchingRules, Total (rule sql) := by
  simp only [stitchingRules, List.forall_mem_cons]
  exact ⟨ToTsql.total_nvl2 sql, ToTsql.total_decode sql, ToTsql.total_trunc sql, ToTsql.total_dateFunctions sql,
    ToTsql.total_stringFunctions sql, ToOracle.total_nullFunctions sql, by simp⟩

theorem keeps_stitchingRules (S : List Text) : ∀ rule ∈ stitchingRules, Keeps S [] rule := by
  have hnames : ([] : List String) ⊆ limitWords := List.nil_subset _
  simp only [stitchingRules, List.forall_mem_cons]
  exact ⟨ToTsql.keeps_nvl2 hnames, ToTsql.keeps_decode hnames, ToTsql.keeps_trunc hnames,
    ToTsql.keeps_dateFunctions hnames, ToTsql.keeps_stringFunctions hnames, ToOracle.keeps_nullFunctions, by simp⟩

section
variable {S : List Text} {sql : Text} {raised : List Warning}

theorem leads_conversionFunctions (hsane : Sane S [] sql) (hformats : ∀ call ∈ toCharRule.calls sql, LiteralFormat call) :
    Leads (ToTsql.conversionFunctions sql) raised fun out _ => Sane S [] out := by
  have hnames : ([] : List String) ⊆ limitWords := List.nil_subset _
  exact .bind ((ToTsql.leads_toChar hnames hformats hsane).mono fun _ _ h => .bind ((ToTsql.keeps_toDate hnames _ _ h).mono fun _ _ h =>
    ToTsql.keeps_toNumber hnames _ _ h))

theorem leads_dateFunctions (hsane : Sane S [] sql) (hvalues : ∀ call ∈ ToOracle.castRule.calls sql, ValueInCode call) :
    Leads (ToOracle.dateFunctions sql) raised fun out _ => Sane S [] out := by
  rw [ToOracle.dateFunctions_eq]
  exact .bind ((CallRule.leads_apply (by decide) (by decide) (fun _ => ToOracle.fits_cast) hvalues hsane).mono
    fun _ _ h => ToOracle.keeps_dateCalls _ _ h)

end

/-- Where no comment runs to the end of its line, each comment of the result of a rule for calls was a comment of the
query: for the rules that write calls anew from their own arguments; for the one that rewrites `TO_CHAR`, if each
format between quotes is one literal; and for the one that rewrites casts, if the value of each ends in code. -/
theorem comments_of_rewritten_calls (sql : Text) (h : Unlined sql) :
    (∀ rule ∈ stitchingRules, Yields (rule sql) fun out => comments out ⊆ comments sql) ∧
    ((∀ call ∈ toCharRule.calls sql, LiteralFormat call) →
      Yields (ToTsql.conversionFunctions sql) fun out => comments out ⊆ comments sql) ∧
    ((∀ call ∈ ToOracle.castRule.calls sql, ValueInCode call) →
      Yields (ToOracle.dateFunctions sql) fun out => comments out ⊆ comments sql) := by
  have hsane : Sane (comments sql) [] sql := Clean.sane ⟨h, fun c hc => hc⟩
  refine ⟨fun rule hrule => ?_, fun hformats => ?_, fun hvalues => ?_⟩
  · exact (keeps_stitchingRules _ rule hrule sql [] hsane).yields (total_stitchingRules sql rule hrule)
  · exact (leads_conversionFunctions hsane hformats).yields (ToTsql.total_conversionFunctions sql)
  · exact (leads_dateFunctions hsane hvalues).yields (ToOracle.total_dateFunctions sql)

/-- Comments between two marks stay comments of their own. -/
theorem comments_of_rewritten_toChar :
    let sql : Text := "SELECT NVL2(TO_CHAR(d /* b */, 'YYYY''FM'), CAST(c AS DATETIME), '--') /* e */ FROM t"
    Unlined sql ∧ ToTsql.nvl2 ∈ stitchingRules ∧ (∀ call ∈ toCharRule.calls sql, LiteralFormat call) ∧
      (∀ call ∈ ToOracle.castRule.calls sql, ValueInCode call) ∧
      Yields (ToTsql.nvl2 sql) (fun out => comments out ⊆ comments sql) ∧
      Yields (ToTsql.conversionFunctions sql) (fun out => comments out ⊆ comments sql) ∧
      Yields (ToOracle.dateFunctions sql) fun out => comments out ⊆ comments sql := by
  intro sql
  have hunlined : Unlined sql := by decide +kernel
  have hmem : ToTsql.nvl2 ∈ stitchingRules := by simp [stitchingRules]
  have hformats : ∀ call ∈ toCharRule.calls sql, LiteralFormat call := by
    have hargs : ∀ call ∈ toCharRule.calls sql, call.args = ["d /* b */".toList, "'YYYY''FM'".toList] := by
      decide +kernel
    intro call hcall value format hcut
    rw [hargs call hcall] at hcut
    simp only [List.cons.injEq, and_true] at hcut
    obtain ⟨rfl, rfl⟩ := hcut
    refine agrees_iff.2 fun c hc => ?_
    obtain rfl : "YYYY''FM".toList = c := literal_inj hc
    exact (doubled_append (u := "YYYY".toList) (by decide)).2 (.pair (doubled_of_not_mem (by decide)))
  have hvalues : ∀ call ∈ ToOracle.castRule.calls sql, ValueInCode call := by
    have hargs : ∀ call ∈ ToOracle.castRule.calls sql, call.args = ["c AS DATETIME".toList] := by
      decide +kernel
    intro call hcall arg hcut
    rw [hargs call hcall] at hcut
    simp only [List.cons.injEq, and_true] at hcut
    rw [← hcut]
    decide +kernel
  obtain ⟨hstitched, hchar, hcast⟩ := comments_of_rewritten_calls sql hunlined
  exact ⟨hunlined, hmem, hformats, hvalues, hstitched _ hmem, hchar hformats, hcast hvalues⟩

/-- The text behind a trimmed argument is taken into its comment. -/
theorem nvl2_takes_code_into_comment :
    ∃ out, (ToTsql.nvl2 "SELECT NVL2(a, b -- c\n, d) FROM t").run [] = some (out, []) ∧
      ∃ c ∈ comments out, c ∉ comments "SELECT NVL2(a, b -- c\n, d) FROM t" := by
  rw [String.toList_ofList]
  exact ⟨"SELECT CASE WHEN a IS NOT NULL THEN b -- c ELSE d END FROM t".toList, by decide +kernel,
    "-- c ELSE d END FROM t".toList, by decide +kernel, by decide +kernel⟩

end DialectBridge
