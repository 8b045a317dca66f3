import DialectBridge.ToTsql.Calls
import DialectBridge.Proofs.TermLists
/-!
# Rules on a list of terms

A query that lists good terms still does so after each of the rules for calls and words, and does not
have the names any more that the rule replaces.
-/
namespace DialectBridge.ToTsql
open Pattern LexState

section
variable {σ : Type} {bars : Bool} {gone : List String} {rest sql : Text} {name : String}

/-! ## The rules for calls -/

/-- The texts that rules put between operands. -/
def linkTexts : List String := [" WHEN ", " IS NOT NULL THEN ", " IS NULL THEN ", " = ", " THEN ", " ELSE ",
  " AS ", " "]

theorem isLink_linkTexts : ∀ g ∈ linkTexts, IsLink reservedNames g.toList ∧ '|' ∉ g.toList := by
  decide

section
variable {t u : Term}

theorem isTerm_linked {g : String} (hg : g ∈ linkTexts) (ht : IsTerm bars gone t) (hu : IsTerm bars gone u) :
    IsTerm bars gone (.linked t g.toList u) :=
  .linked ht (isLink_linkTexts g hg).1 (.inl (isLink_linkTexts g hg).2) hu

theorem isTerm_word (hk : arity name 0 = true) (hname : isName name.toList = true) (hgone : name ∉ gone) :
    IsTerm bars gone (.word name.toList) := .word (isWord_of_isName hname) (hasName_of_arity hk hgone)

theorem isTerm_number {d : Text} (hne : d ≠ []) (hd : ∀ c ∈ d, c.isDigit = true) : IsTerm bars gone (.word d) :=
  .word ⟨hne, fun c hc => isWordChar_of_asciiDigit (hd c hc)⟩ (.inl ⟨⟨d, hd, .inl rfl⟩, rfl⟩)

theorem isTerm_call {args : List Term} (hk : arity name args.length = true) (hne : args ≠ [])
    (hname : isName name.toList = true) (hgone : name ∉ gone) (hargs : ∀ a ∈ args, IsTerm bars gone a) :
    IsTerm bars gone (.call name.toList args) := .call (isWord_of_isName hname) hne (hasName_of_arity hk hgone) hargs

def castTerm (value type : Term) : Term := .call "CAST".toList [.linked value " AS ".toList type]

theorem isTerm_cast (hgone : "CAST" ∉ gone) (ht : IsTerm bars gone t) (hu : IsTerm bars gone u) :
    IsTerm bars gone (castTerm t u) := by
  have hcast : IsTerm bars gone (.linked t " AS ".toList u) := isTerm_linked (by decide) ht hu
  exact isTerm_call rfl (by simp) (by decide) hgone (by simpa using hcast)

theorem text_cast : (castTerm t u).text = "CAST(" ++ (t.text ++ (" AS " ++ (u.text ++ ")".toList))) := by
  simp [castTerm, callText, Text.join, List.intercalate]

end

/-- `NVL` becomes `ISNULL`. -/
theorem Lists.nvl (hrest : IsTail rest) (hleft : "ISNULL" ∉ gone) (h : Lists bars gone rest sql) :
    Yields (ToTsql.nvl sql) (Lists bars ("NVL" :: gone) rest) := by
  refine h.renameCalls "ISNULL" (by decide) hrest (by decide) (by simpa using hleft) ?_
  intro k hk
  obtain rfl : k = 2 := eq_of_beq hk
  exact ⟨by decide, by decide⟩

def nvl2Term : List Term → Term
  | [value, ifSet, ifNull] =>
    .linked (.word "CASE".toList) " WHEN ".toList <| .linked value " IS NOT NULL THEN ".toList <|
      .linked ifSet " ELSE ".toList <| .linked ifNull " ".toList (.word "END".toList)
  | args => .call "NVL2".toList args

theorem Lists.nvl2 (hrest : IsTail rest) (hcase : "CASE" ∉ gone) (hend : "END" ∉ gone)
    (h : Lists bars gone rest sql) : Yields (ToTsql.nvl2 sql) (Lists bars ("NVL2" :: gone) rest) := by
  refine h.replaceCalls nvl2Term (by decide) hrest fun args hk hargs => ?_
  obtain ⟨v, s, n, rfl⟩ := List.length_eq_three.1 (eq_of_beq hk)
  simp only [List.mem_cons, List.not_mem_nil, or_false, forall_eq_or_imp, forall_eq] at hargs
  obtain ⟨hv, hs, hn⟩ := hargs
  refine ⟨isTerm_linked (by decide) (isTerm_word rfl (by decide) (by simpa using hcase)) <|
    isTerm_linked (by decide) hv <| isTerm_linked (by decide) hs <|
      isTerm_linked (by decide) hn (isTerm_word rfl (by decide) (by simpa using hend)), fun call _ hcall => ?_⟩
  have htext : (nvl2Term [v, s, n]).text = "CASE WHEN " ++ v.text ++ " IS NOT NULL THEN " ++ s.text ++ " ELSE " ++
      n.text ++ " END" := by
    simp [nvl2Term]
  simp only [hcall, List.map_cons, List.map_nil, htext]

/-- One branch of the `CASE` that `DECODE` becomes, behind `head`. -/
def branchTerm (expr head search result : Term) : Term :=
  if Text.sameLetters search.text "NULL" then
    .linked (.linked head " WHEN ".toList expr) " IS NULL THEN ".toList result
  else
    .linked (.linked (.linked head " WHEN ".toList expr) " = ".toList search) " THEN ".toList result

def endTerm (head : Term) : Term := .linked head " ".toList (.word "END".toList)

def elseTerm (head otherwise : Term) : Term := .linked head " ELSE ".toList otherwise

/-- The `CASE` that `DECODE` becomes, with `head` in front of its branches. -/
def decodeTerm (expr : Term) : Term → List Term → Term
  | head, search :: result :: more => decodeTerm expr (branchTerm expr head search result) more
  | head, [otherwise] => endTerm (elseTerm head otherwise)
  | head, [] => endTerm head

theorem text_branch (expr head search result : Term) : (branchTerm expr head search result).text =
    head.text ++ (" WHEN " ++ expr.text ++
      (if Text.sameLetters search.text "NULL" then " IS NULL".toList else " = " ++ search.text) ++
        " THEN " ++ result.text) := by
  rw [branchTerm]
  split <;> simp

theorem decodeBranches_branch (expr search result : Text) (more : List Text) :
    decodeBranches expr (search :: result :: more) = " WHEN " ++ expr ++
      (if Text.sameLetters search "NULL" then " IS NULL".toList else " = " ++ search) ++ " THEN " ++ result ++
        decodeBranches expr more := rfl

theorem decodeBranches_else (expr otherwise : Text) : decodeBranches expr [otherwise] = " ELSE " ++ otherwise :=
  rfl

theorem decodeBranches_nil (expr : Text) : decodeBranches expr [] = [] := rfl

theorem text_decode (expr : Term) : ∀ (head : Term) (args : List Term), (decodeTerm expr head args).text =
    head.text ++ (decodeBranches expr.text (args.map Term.text) ++ " END")
  | head, search :: result :: more => by
    rw [decodeTerm, text_decode expr _ more, text_branch, List.map_cons, List.map_cons, decodeBranches_branch]
    simp only [List.append_assoc]
  | head, [otherwise] => by
    rw [List.map_singleton, decodeBranches_else]
    simp [decodeTerm, elseTerm, endTerm]
  | head, [] => by
    rw [List.map_nil, decodeBranches_nil]
    simp [decodeTerm, endTerm]

theorem isTerm_branch {expr head search result : Term} (hexpr : IsTerm bars gone expr)
    (hhead : IsTerm bars gone head) (hsearch : IsTerm bars gone search) (hresult : IsTerm bars gone result) :
    IsTerm bars gone (branchTerm expr head search result) := by
  have hwhen : IsTerm bars gone (.linked head " WHEN ".toList expr) := isTerm_linked (by decide) hhead hexpr
  rw [branchTerm]
  split
  · exact isTerm_linked (by decide) hwhen hresult
  · exact isTerm_linked (by decide) (isTerm_linked (by decide) hwhen hsearch) hresult

theorem isTerm_decode {expr : Term} (hend : "END" ∉ gone) (hexpr : IsTerm bars gone expr) :
    ∀ (head : Term) (args : List Term), IsTerm bars gone head → (∀ a ∈ args, IsTerm bars gone a) →
      IsTerm bars gone (decodeTerm expr head args)
  | head, search :: result :: more, hhead, hargs => by
    simp only [List.mem_cons, forall_eq_or_imp] at hargs
    obtain ⟨hsearch, hresult, hmore⟩ := hargs
    exact isTerm_decode hend hexpr _ more (isTerm_branch hexpr hhead hsearch hresult) hmore
  | head, [otherwise], hhead, hargs =>
    isTerm_linked (by decide) (isTerm_linked (by decide) hhead (hargs otherwise (by simp)))
      (isTerm_word rfl (by decide) hend)
  | head, [], hhead, _ => isTerm_linked (by decide) hhead (isTerm_word rfl (by decide) hend)

theorem Lists.decode (hrest : IsTail rest) (hcase : "CASE" ∉ gone) (hend : "END" ∉ gone)
    (h : Lists bars gone rest sql) : Yields (ToTsql.decode sql) (Lists bars ("DECODE" :: gone) rest) := by
  refine h.replaceCalls (fun args => decodeTerm (args.headD (.word [])) (.word "CASE".toList) args.tail) (by decide)
    hrest fun args hk hargs => ?_
  have hk : 3 ≤ args.length := of_decide_eq_true hk
  obtain ⟨expr, search, result, more, rfl⟩ : ∃ a b c l, args = a :: b :: c :: l := by
    match args with
    | a :: b :: c :: l => exact ⟨a, b, c, l, rfl⟩
    | [] | [_] | [_, _] => simp at hk
  refine ⟨isTerm_decode (by simpa using hend) (hargs expr (by simp)) _ _
    (isTerm_word rfl (by decide) (by simpa using hcase)) fun a ha => hargs a (List.mem_cons_of_mem _ ha),
    fun call _ hcall => ?_⟩
  simp only [hcall, List.map_cons, List.headD_cons, List.tail_cons, text_decode, Term.text_word]
  simp

/-- A function of one argument becomes a cast. -/
theorem Lists.castCalls {f : Call → Editing σ (Option Text)} (type : Term) (hname : name ∈ calledFunctions)
    (harity : ∀ k, arity name k = true → k = 1) (htype : IsTerm bars (name :: gone) type)
    (hrest : IsTail rest) (hcast : "CAST" ∉ name :: gone)
    (hf : ∀ (call : Call) (v : Text), call.args = [v] →
      f call = pure (some ("CAST(" ++ (v ++ (" AS " ++ (type.text ++ ")".toList))))))
    (h : Lists bars gone rest sql) :
    Yields (DialectBridge.replaceCalls sql name f) (Lists bars (name :: gone) rest) := by
  refine h.replaceCalls (fun args => castTerm (args.headD (.word [])) type) hname hrest
    fun args hk hargs => ?_
  obtain ⟨v, rfl⟩ := List.length_eq_one_iff.1 (harity _ hk)
  refine ⟨isTerm_cast hcast (by simpa using hargs) htype, fun call _ hcall => ?_⟩
  rw [hf call v.text hcall, List.headD_cons, text_cast]

theorem Lists.trunc (hrest : IsTail rest) (hcast : "CAST" ∉ gone) (hdate : "DATE" ∉ gone)
    (h : Lists bars gone rest sql) : Yields (ToTsql.trunc sql) (Lists bars ("TRUNC" :: gone) rest) :=
  h.castCalls (.word "DATE".toList) (by decide) (fun _ hk => eq_of_beq hk)
    (isTerm_word rfl (by decide) (by simpa using hdate)) hrest (by simpa using hcast)
    fun call v hcall => by simp [hcall]

theorem Lists.dateFunctions (hrest : IsTail rest) (hadd : "DATEADD" ∉ gone) (hmonth : "MONTH" ∉ gone)
    (hlast : "EOMONTH" ∉ gone) (h : Lists bars gone rest sql) :
    Yields (ToTsql.dateFunctions sql) (Lists bars ("LAST_DAY" :: "ADD_MONTHS" :: gone) rest) := by
  refine Yields.bind (P := Lists bars ("ADD_MONTHS" :: gone) rest) ?_ fun sql h => ?_
  · refine h.replaceCalls (fun args => .call "DATEADD".toList (.word "MONTH".toList :: args.reverse)) (by decide)
      hrest fun args hk hargs => ?_
    obtain ⟨date, months, rfl⟩ := List.length_eq_two.1 (eq_of_beq hk)
    have hword : IsTerm bars ("ADD_MONTHS" :: gone) (.word "MONTH".toList) :=
      isTerm_word rfl (by decide) (by simpa using hmonth)
    refine ⟨isTerm_call rfl (by simp) (by decide) (by simpa using hadd) fun a ha => ?_, fun call _ hcall => ?_⟩
    · rcases List.mem_cons.1 ha with rfl | ha
      · exact hword
      · exact hargs a (List.mem_reverse.1 ha)
    · simp [hcall, callText, Text.join, List.intercalate]
  have hnone : Spares ["MONTHS_BETWEEN"] (mask sql) := h.spares (by decide) (.inr (by decide)) hrest
  rw [replaceCalls_of_spares (by decide) hnone, pure_bind]
  refine h.renameCalls "EOMONTH" (by decide) hrest (by decide) (by simpa using hlast) ?_
  intro k hk
  obtain rfl : k = 1 := eq_of_beq hk
  exact ⟨by decide, by decide⟩

theorem Lists.toChar (hrest : IsTail rest) (hcast : "CAST" ∉ gone) (hleft : "VARCHAR" ∉ gone)
    (h : Lists bars gone rest sql) : Yields (ToTsql.toChar sql) (Lists bars ("TO_CHAR" :: gone) rest) := by
  have hsize : IsTerm bars ("TO_CHAR" :: gone) (.word "4000".toList) := isTerm_number (by decide) (by decide)
  refine h.castCalls (.call "VARCHAR".toList [.word "4000".toList]) (by decide) (fun _ hk => eq_of_beq hk)
    (isTerm_call rfl (by simp) (by decide) (by simpa using hleft) (by simpa using hsize)) hrest (by simpa using hcast)
    fun call v hcall => ?_
  simp [hcall, callText, Text.join, List.intercalate]

theorem Lists.toDate (hrest : IsTail rest) (hcast : "CAST" ∉ gone) (hleft : "DATETIME" ∉ gone)
    (h : Lists bars gone rest sql) : Yields (ToTsql.toDate sql) (Lists bars ("TO_DATE" :: gone) rest) :=
  h.castCalls (.word "DATETIME".toList) (by decide) (fun _ hk => eq_of_beq hk)
    (isTerm_word rfl (by decide) (by simpa using hleft)) hrest (by simpa using hcast)
    fun call v hcall => by simp [hcall]

theorem Lists.toNumber (hrest : IsTail rest) (hcast : "CAST" ∉ gone) (hleft : "DECIMAL" ∉ gone)
    (h : Lists bars gone rest sql) : Yields (ToTsql.toNumber sql) (Lists bars ("TO_NUMBER" :: gone) rest) := by
  have hsizes : ∀ a ∈ [Term.word "38".toList, .word "10".toList], IsTerm bars ("TO_NUMBER" :: gone) a := by
    simpa using ⟨isTerm_number (by decide) (by decide), isTerm_number (by decide) (by decide)⟩
  refine h.castCalls (.call "DECIMAL".toList [.word "38".toList, .word "10".toList]) (by decide)
    (fun _ hk => eq_of_beq hk) (isTerm_call rfl (by simp) (by decide) (by simpa using hleft) hsizes) hrest
    (by simpa using hcast) fun call v hcall => ?_
  simp [hcall, callText, Text.join, List.intercalate]

def substrTerm : List Term → Term
  | [text, start] => .call "SUBSTRING".toList [text, start, .call "LEN".toList [text]]
  | args => .call "SUBSTRING".toList args

theorem Lists.substr (hrest : IsTail rest) (hsub : "SUBSTRING" ∉ gone) (hlen : "LEN" ∉ gone)
    (h : Lists bars gone rest sql) : Yields (DialectBridge.replaceCalls sql "SUBSTR" fun call =>
      match call.args with
      | [_, _, _] => return some ("SUBSTRING(" ++ call.inner ++ ")")
      | [text, start] => return some ("SUBSTRING(" ++ text ++ ", " ++ start ++ ", LEN(" ++ text ++ "))")
      | _ => return none : Reporting Text) (Lists bars ("SUBSTR" :: gone) rest) := by
  refine h.replaceCalls substrTerm (by decide) hrest fun args hk hargs => ?_
  have hk : (args.length == 2 || args.length == 3) = true := hk
  rcases Bool.or_eq_true _ _ ▸ hk with hk | hk
  · obtain ⟨text, start, rfl⟩ := List.length_eq_two.1 (eq_of_beq hk)
    simp only [List.mem_cons, List.not_mem_nil, or_false, forall_eq_or_imp, forall_eq] at hargs
    have hcall : IsTerm bars ("SUBSTR" :: gone) (.call "LEN".toList [text]) :=
      isTerm_call rfl (by simp) (by decide) (by simpa using hlen) (by simpa using hargs.1)
    refine ⟨isTerm_call rfl (by simp) (by decide) (by simpa using hsub) ?_, fun call _ hcall => ?_⟩
    · simpa using ⟨hargs.1, hargs.2, hcall⟩
    · simp [hcall, substrTerm, callText, Text.join, List.intercalate]
  · obtain ⟨text, start, count, rfl⟩ := List.length_eq_three.1 (eq_of_beq hk)
    refine ⟨isTerm_call rfl (by simp) (by decide) (by simpa using hsub) hargs, fun call hinner hcall => ?_⟩
    simp [hcall, hinner, substrTerm, callText]

theorem Lists.instr (hrest : IsTail rest) (hindex : "CHARINDEX" ∉ gone) (h : Lists bars gone rest sql) :
    Yields (DialectBridge.replaceCalls sql "INSTR" fun call =>
      match call.args with
      | [text, needle] => return some ("CHARINDEX(" ++ needle ++ ", " ++ text ++ ")")
      | [text, needle, start] =>
        return some ("CHARINDEX(" ++ needle ++ ", " ++ text ++ ", " ++ start ++ ")")
      | _ :: _ :: _ :: _ :: _ => do
        warn .unsupported "INSTR with an occurrence argument has no CHARINDEX equivalent. Manual conversion required."
        return none
      | _ => return none : Reporting Text) (Lists bars ("INSTR" :: gone) rest) := by
  refine h.replaceCalls (fun args => .call "CHARINDEX".toList args.reverse) (by decide) hrest
    fun args hk hargs => ?_
  obtain ⟨text, needle, rfl⟩ := List.length_eq_two.1 (eq_of_beq hk)
  refine ⟨isTerm_call rfl (by simp) (by decide) (by simpa using hindex) fun a ha => hargs a (List.mem_reverse.1 ha),
    fun call _ hcall => ?_⟩
  simp [hcall, callText, Text.join, List.intercalate]

theorem Lists.stringFunctions (hrest : IsTail rest) (hsub : "SUBSTRING" ∉ gone) (hlen : "LEN" ∉ gone)
    (hindex : "CHARINDEX" ∉ gone) (h : Lists bars gone rest sql) :
    Yields (ToTsql.stringFunctions sql) (Lists bars ("LENGTH" :: "INSTR" :: "SUBSTR" :: gone) rest) := by
  refine (h.substr hrest hsub hlen).bind fun sql h => ?_
  refine (h.instr hrest (by simpa using hindex)).bind fun sql h => ?_
  have hnone : Spares ["LENGTHB"] (mask sql) := h.spares (by decide) (.inr (by decide)) hrest
  rw [DialectBridge.renameCalls, replaceCalls_of_spares (by decide) hnone, pure_bind]
  refine h.renameCalls "LEN" (by decide) hrest (by decide) (by simpa using hlen) ?_
  intro k hk
  obtain rfl : k = 1 := eq_of_beq hk
  exact ⟨by decide, by decide⟩

/-! ## The rules for words -/

theorem isAtom_niladic (hname : isName name.toList = true)
    (hspares : Spares reservedNames (callText name.toList [])) :
    IsAtom reservedNames (callText name.toList []) := by
  have hword := isWord_of_isName hname
  have hmask : mask (callText name.toList []) = callText name.toList [] := mask_callText hword.chars (by simp)
  have hchars : ∀ c ∈ callText name.toList [], Unicode.isWordChar c = true ∨ c = '(' ∨ c = ')' := by
    intro c hc
    simp only [callText, Text.join, List.intercalate, List.intersperse_nil, List.flatten_nil, List.nil_append,
      List.mem_append, List.mem_cons, List.not_mem_nil, or_false] at hc
    exact hc.imp_left (hword.chars c)
  refine ⟨operand_callText hword (by simp), by rwa [hmask], ?_, ?_⟩
  · rw [hmask]
    intro hbar
    exact absurd (hchars _ hbar) (by decide)
  · intro hamp
    exact absurd (hchars _ hamp) (by decide)

/-- The words for the current time become calls without arguments. -/
theorem Lists.currentDatetime (hrest : IsTail rest) (h : Lists bars gone rest sql) :
    Lists bars ("SYSTIMESTAMP" :: "SYSDATE" :: gone) rest (ToTsql.currentDatetime sql) := by
  have hdate : IsAtom reservedNames (callText "GETDATE".toList []) :=
    isAtom_niladic (by decide) (by decide)
  have htime : IsAtom reservedNames (callText "SYSDATETIME".toList []) :=
    isAtom_niladic (by decide) (by decide)
  have h := h.replaceWord "SYSDATE" (by decide) (fun _ hk => eq_of_beq hk) (by decide) hdate (by decide) hrest
  have h := h.replaceWord "SYSTIMESTAMP" (by decide) (fun _ hk => eq_of_beq hk) (by decide) htime (by decide) hrest
  have hguid : Spares ["SYS_GUID"] (mask _) := h.spares (by decide) (.inr (by decide)) hrest
  rw [← replaceCode_sysGuid (r := "NEWID()") hguid] at h
  exact h

end

end DialectBridge.ToTsql
