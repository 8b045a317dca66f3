import DialectBridge.Sql.Mask
import Mathlib.Data.List.Basic
import Mathlib.Tactic.Common
/-!
# The lexer as a machine

`segments` cuts a query with a look at what follows. Here the same cut is read from left to right
by a machine with eight states, so that what a text does to the lexer is one state. A text put
together from two is lexed part by part where the state between them allows it:
`segments_append`, and from it `comments_append`.
-/
namespace DialectBridge

/-- The two quotes: of literals and of identifiers. -/
inductive Quote where
  | single
  | double
  deriving DecidableEq, Repr

def Quote.char : Quote → Char
  | single => '\''
  | double => '"'

/-- Where the lexer is after some text. -/
inductive LexState where
  | code
  /-- In code, behind a minus sign. -/
  | minus
  /-- In code, behind a slash. -/
  | slash
  | quoted (quote : Quote)
  /-- Behind a quote, which closes unless it is written twice. -/
  | closed (quote : Quote)
  | line
  | block
  /-- In a block comment, behind an asterisk. -/
  | star
  deriving DecidableEq, Repr

namespace LexState

/-- The state behind a character of code. -/
def ofCode (c : Char) : LexState :=
  if c = '\'' then quoted .single
  else if c = '"' then quoted .double
  else if c = '-' then minus
  else if c = '/' then slash
  else code

def step : LexState → Char → LexState
  | code, c => ofCode c
  | minus, c => if c = '-' then line else ofCode c
  | slash, c => if c = '*' then block else ofCode c
  | quoted q, c => if c = q.char then closed q else quoted q
  | closed q, c => if c = q.char then quoted q else ofCode c
  | line, c => if c = '\n' then code else line
  | block, c => if c = '*' then star else block
  | star, c => if c = '/' then code else if c = '*' then star else block

def after (s : LexState) (t : Text) : LexState := t.foldl step s

@[simp] theorem after_nil (s : LexState) : s.after [] = s := rfl

@[simp] theorem after_cons (s : LexState) (c : Char) (t : Text) :
    s.after (c :: t) = (s.step c).after t := rfl

@[simp] theorem after_append (s : LexState) (a b : Text) :
    s.after (a ++ b) = (s.after a).after b := List.foldl_append

/-- Whether text that follows is code. -/
def live : LexState → Bool
  | quoted _ | line | block | star => false
  | _ => true

/-- Whether the text that follows is lexed as it is on its own. -/
def joins : LexState → Text → Bool
  | _, [] => true
  | code, _ => true
  | minus, c :: _ => c != '-'
  | slash, c :: _ => c != '*'
  | closed q, c :: _ => c != q.char
  | line, c :: _ => c == '\n'
  | _, _ => false

@[simp] theorem joins_nil (s : LexState) : s.joins [] = true := by cases s <;> rfl

@[simp] theorem joins_code (t : Text) : code.joins t = true := by cases t <;> rfl

/-- Whether a text joins is up to its first character. -/
theorem joins_cons_append (s : LexState) (c : Char) (t u : Text) :
    s.joins (c :: t ++ u) = s.joins (c :: t) := by
  cases s <;> rfl

theorem step_of_joins {s : LexState} {c : Char} {t : Text} (h : s.joins (c :: t) = true) :
    s.step c = ofCode c := by
  cases s with
  | code => rfl
  | line =>
    have hc : c = '\n' := by simpa [joins] using h
    subst hc
    rfl
  | minus | slash | closed q => simp_all [joins, step]
  | quoted q | block | star => simp [joins] at h

/-- What is lexed on its own leaves the state that it leaves on its own. -/
theorem after_of_joins {s : LexState} {t : Text} (h : s.joins t = true) (ht : t ≠ []) :
    s.after t = code.after t := by
  cases t with
  | nil => exact absurd rfl ht
  | cons c t => rw [after_cons, step_of_joins h, after_cons]; rfl

/-- Text that is lexed on its own and does not begin with a line feed begins in code. -/
theorem live_of_joins {s : LexState} {c : Char} {t : Text} (h : s.joins (c :: t) = true)
    (hc : c ≠ '\n') : s.live = true := by
  cases s <;> simp_all [joins, live]

/-- Whether no pair of characters begins or ends with `c`, so that `c` is code on its own. -/
def isPlain (c : Char) : Bool := c != '\'' && c != '"' && c != '-' && c != '/' && c != '*'

theorem ofCode_of_isPlain {c : Char} (h : isPlain c = true) : ofCode c = code := by
  simp only [isPlain, Bool.and_eq_true, bne_iff_ne, ne_eq] at h
  simp [ofCode, h]

/-- Behind a live place a plain character is read on its own. -/
theorem joins_of_live {s : LexState} (h : s.live = true) {c : Char} {t : Text}
    (hc : isPlain c = true) : s.joins (c :: t) = true := by
  simp only [isPlain, Bool.and_eq_true, bne_iff_ne, ne_eq] at hc
  cases s with
  | closed q => cases q <;> simp [joins, Quote.char, hc]
  | minus | slash | code => simp [joins, hc]
  | quoted q | line | block | star => simp [live] at h

/-- Plain characters behind a live place leave code. -/
theorem after_of_all_isPlain {s : LexState} (h : s.live = true) {t : Text}
    (ht : ∀ c ∈ t, isPlain c = true) (hne : t ≠ []) : s.after t = code := by
  cases t with
  | nil => exact absurd rfl hne
  | cons c t =>
    rw [after_of_joins (joins_of_live h (ht c (by simp))) hne]
    generalize hct : c :: t = u at ht
    clear hct hne h
    induction u with
    | nil => rfl
    | cons d u ih =>
      rw [after_cons, step, ofCode_of_isPlain (ht d (by simp))]
      exact ih fun e he => ht e (by simp [he])

end LexState

namespace Segment
open LexState

/-! ## Segments that end before the text does -/

theorem splitQuoted_cons_of_ne {q c : Char} (hc : c ≠ q) (t : Text) :
    splitQuoted q (c :: t) = (c :: (splitQuoted q t).1, (splitQuoted q t).2) := by
  rw [splitQuoted.eq_def]
  simp [hc]

theorem splitQuoted_append_of_ne_nil {q : Char} {t : Text} (h : (splitQuoted q t).2 ≠ [])
    (b : Text) : splitQuoted q (t ++ b) = ((splitQuoted q t).1, (splitQuoted q t).2 ++ b) := by
  fun_induction splitQuoted q t with
  | case1 => simp at h
  | case2 => simp at h
  | case3 u inside rest heq ih =>
    rw [heq] at ih
    simp [splitQuoted, ih h]
  | case4 d u hd => simp [splitQuoted, hd]
  | case5 c t hc inside rest heq ih =>
    rw [heq] at ih
    rw [List.cons_append, splitQuoted_cons_of_ne hc, ih h]

theorem splitLine_append_of_ne_nil {t : Text} (h : (splitLine t).2 ≠ []) (b : Text) :
    splitLine (t ++ b) = ((splitLine t).1, (splitLine t).2 ++ b) := by
  fun_induction splitLine t with
  | case1 => simp at h
  | case2 t => simp [splitLine]
  | case3 c t hc inside rest heq ih =>
    rw [heq] at ih
    simp [splitLine, hc, ih h]

theorem splitBlock_append_of_ne_nil {t : Text} (h : (splitBlock t).2 ≠ []) (b : Text) :
    splitBlock (t ++ b) = ((splitBlock t).1, (splitBlock t).2 ++ b) := by
  fun_induction splitBlock t with
  | case1 => simp at h
  | case2 c t hc =>
    cases t with
    | nil => simp at hc
    | cons d t => simp_all [splitBlock]
  | case3 c t hc inside rest heq ih =>
    rw [heq] at ih
    cases t with
    | nil => simp [splitBlock] at heq; simp [heq] at h
    | cons d t => simp_all [splitBlock]

theorem splitCode_append_of_ne_nil {t : Text} (h : (splitCode t).2 ≠ []) (b : Text) :
    splitCode (t ++ b) = ((splitCode t).1, (splitCode t).2 ++ b) := by
  fun_induction splitCode t with
  | case1 => simp at h
  | case2 c t hc =>
    have hb : opens (c :: (t ++ b)) = true := by
      cases t with
      | nil => cases b <;> simp_all [opens]
      | cons d t => exact hc
    simp [splitCode, hb]
  | case3 c t hc inside rest heq ih =>
    rw [heq] at ih
    cases t with
    | nil => simp [splitCode] at heq; simp [heq] at h
    | cons d t =>
      have hb : ¬ opens (c :: (d :: t ++ b)) = true := hc
      rw [List.cons_append, splitCode, if_neg hb, ih h]

theorem next_append_of_ne_nil {c : Char} {t : Text} (h : (next c t).2 ≠ []) (b : Text) :
    next c (t ++ b) = ((next c t).1, (next c t).2 ++ b) := by
  have ht : t ≠ [] := by
    rintro rfl
    have hlt := next_rest_lt c []
    exact h (List.length_eq_zero_iff.1 (by simpa using hlt))
  unfold next at h ⊢
  rw [List.head?_append_of_ne_nil _ ht]
  split_ifs at h ⊢ with h1 h2 h3 h4
  · rw [splitQuoted_append_of_ne_nil h]
  · rw [splitQuoted_append_of_ne_nil h]
  · rw [splitLine_append_of_ne_nil h]
  · rw [List.tail_append_of_ne_nil ht, splitBlock_append_of_ne_nil h]
  · rw [splitCode_append_of_ne_nil h]

/-! ## The state behind a segment -/

theorem after_splitQuoted {q : Quote} {t : Text} (h : (splitQuoted q.char t).2 ≠ []) :
    (quoted q).after (splitQuoted q.char t).1 = closed q ∧
      (closed q).joins (splitQuoted q.char t).2 = true := by
  fun_induction splitQuoted q.char t with
  | case1 => simp at h
  | case2 => simp at h
  | case3 u inside rest heq ih =>
    rw [heq] at ih
    simpa [step] using ih h
  | case4 d u hd => simp [step, joins, hd]
  | case5 c t hc inside rest heq ih =>
    rw [heq] at ih
    simpa [step, hc] using ih h

theorem after_splitLine (t : Text) :
    line.after (splitLine t).1 = line ∧ line.joins (splitLine t).2 = true := by
  fun_induction splitLine t with
  | case1 => simp
  | case2 t => simp [joins]
  | case3 c t hc inside rest heq ih =>
    rw [heq] at ih
    simpa [step, hc] using ih

/-- Only a slash is read differently behind an asterisk. -/
theorem after_star {t : Text} (ht : t ≠ []) (h : t.head? ≠ some '/') :
    star.after t = block.after t := by
  cases t with
  | nil => exact absurd rfl ht
  | cons c t =>
    have hc : c ≠ '/' := by simpa using h
    simp [step, hc]

theorem after_splitBlock {t : Text} (h : (splitBlock t).2 ≠ []) :
    block.after (splitBlock t).1 = code := by
  fun_induction splitBlock t with
  | case1 => simp at h
  | case2 c t hc => simp [step, hc.1]
  | case3 c t hc inside rest heq ih =>
    have hi : inside ++ rest = t := by simpa [heq] using splitBlock_append t
    rw [heq] at ih
    by_cases hstar : c = '*'
    · have hinside : inside ≠ [] := by
        rintro rfl
        cases t with
        | nil => simp [splitBlock] at heq; simp [heq] at h
        | cons d t => rw [splitBlock] at heq; split at heq <;> simp at heq
      have hhead : inside.head? ≠ some '/' := by
        intro hd
        refine hc ⟨hstar, ?_⟩
        rw [← hi, List.head?_append_of_ne_nil _ hinside, hd]
      rw [after_cons, hstar, step, if_pos rfl, after_star hinside hhead, ih h]
    · rw [after_cons, step, if_neg hstar, ih h]

theorem joins_of_not_opens {c : Char} {t : Text} (h : opens (c :: t) = false) :
    (ofCode c).joins t = true := by
  simp only [opens, Bool.or_eq_false_iff, Bool.and_eq_false_iff, beq_eq_false_iff_ne] at h
  obtain ⟨⟨⟨h1, h2⟩, h3⟩, h4⟩ := h
  cases t with
  | nil => simp
  | cons d t =>
    by_cases hm : c = '-'
    · simp_all [ofCode, joins]
    · by_cases hs : c = '/'
      · simp_all [ofCode, joins]
      · simp [ofCode, h1, h2, hm, hs]

/-- What follows on a run of code is lexed on its own. -/
theorem joins_splitCode {s : LexState} {t : Text} (h : s.joins t = true) :
    (s.after (splitCode t).1).joins (splitCode t).2 = true := by
  fun_induction splitCode t generalizing s with
  | case1 => simp
  | case2 c t hc => simpa using h
  | case3 c t hc inside rest heq ih =>
    rw [heq] at ih
    rw [after_cons, step_of_joins h]
    exact ih (joins_of_not_opens (by simpa using hc))

/-- What follows on a segment is lexed on its own. -/
theorem joins_next (c : Char) (t : Text) (h : (next c t).2 ≠ []) :
    (code.after (next c t).1.text).joins (next c t).2 = true := by
  unfold next at h ⊢
  split_ifs at h ⊢ with h1 h2 h3 h4
  · subst h1
    have hq := after_splitQuoted (q := .single) h
    simp only [Quote.char] at hq
    simp [step, ofCode, hq]
  · subst h2
    have hq := after_splitQuoted (q := .double) h
    simp only [Quote.char] at hq
    simp [step, ofCode, hq]
  · obtain ⟨rfl, ht⟩ := h3
    cases t with
    | nil => simp at ht
    | cons d t =>
      obtain rfl : d = '-' := by simpa using ht
      have hl := after_splitLine t
      simp [splitLine, step, ofCode, hl]
  · obtain ⟨rfl, ht⟩ := h4
    simp only [after_cons, step, ofCode]
    have hb := after_splitBlock h
    simp_all
  · have hc : opens (c :: t) = false := by simp_all [opens]
    simp only [after_cons, step]
    exact joins_splitCode (joins_of_not_opens hc)

/-- The machine may forget a segment that has ended. -/
theorem after_next {c : Char} {t : Text} (h : (next c t).2 ≠ []) :
    code.after (c :: t) = code.after (next c t).2 := by
  rw [← next_append c t, after_append, after_of_joins (joins_next c t h) h]

/-! ## Segments that end with the text -/

theorem splitQuoted_append_of_joins {q : Quote} {t b : Text} (h : (splitQuoted q.char t).2 = [])
    (hb : ((quoted q).after t).joins b = true) : splitQuoted q.char (t ++ b) = (t, b) := by
  fun_induction splitQuoted q.char t with
  | case1 => cases b <;> simp_all [joins, splitQuoted]
  | case2 =>
    cases b with
    | nil => simp [splitQuoted]
    | cons d b =>
      have hd : d ≠ q.char := by simpa [step, joins] using hb
      simp [splitQuoted, hd]
  | case3 u inside rest heq ih =>
    rw [heq] at ih
    simp [splitQuoted, ih h (by simpa [step] using hb)]
  | case4 d u hd => simp at h
  | case5 c t hc inside rest heq ih =>
    rw [heq] at ih
    rw [List.cons_append, splitQuoted_cons_of_ne hc, ih h (by simpa [step, hc] using hb)]

theorem splitLine_append_of_joins {t b : Text} (h : (splitLine t).2 = [])
    (hb : line.joins b = true) : splitLine (t ++ b) = (t, b) := by
  fun_induction splitLine t with
  | case1 => cases b <;> simp_all [joins, splitLine]
  | case2 t => simp at h
  | case3 c t hc inside rest heq ih =>
    rw [heq] at ih
    simp [splitLine, hc, ih h]

theorem splitBlock_append_of_joins {t b : Text} (h : (splitBlock t).2 = [])
    (hb : (block.after t).joins b = true) : splitBlock (t ++ b) = (t, b) := by
  fun_induction splitBlock t with
  | case1 => cases b <;> simp_all [joins, splitBlock]
  | case2 c t hc =>
    cases t with
    | nil => simp at hc
    | cons d t => simp_all [splitBlock]
  | case3 c t hc inside rest heq ih =>
    rw [heq] at ih
    cases t with
    | nil =>
      -- a block comment that is still open takes in whatever follows
      have hnil : b = [] := by
        cases b with
        | nil => rfl
        | cons d b => by_cases hstar : c = '*' <;> simp [step, joins, hstar] at hb
      simp [hnil, splitBlock]
    | cons d t =>
      have hb' : (block.after (d :: t)).joins b = true := by
        by_cases hstar : c = '*'
        · have hd : (d :: t).head? ≠ some '/' := fun hd => hc ⟨hstar, hd⟩
          rwa [after_cons, step, if_pos hstar, after_star (by simp) hd] at hb
        · rwa [after_cons, step, if_neg hstar] at hb
      have hc' : ¬ (c = '*' ∧ (d :: t ++ b).head? = some '/') := hc
      rw [List.cons_append, splitBlock, if_neg hc', ih h hb']

theorem splitCode_append_of_joins {s : LexState} {t b : Text} (h : (splitCode t).2 = [])
    (hs : s.joins t = true) (hb : (s.after t).joins b = true) :
    splitCode (t ++ b) = (t ++ (splitCode b).1, (splitCode b).2) := by
  fun_induction splitCode t generalizing s with
  | case1 => rfl
  | case2 c t hc => simp at h
  | case3 c t hc inside rest heq ih =>
    rw [heq] at ih
    rw [after_cons, step_of_joins hs] at hb
    have hj := joins_of_not_opens (by simpa using hc)
    have hc' : ¬ opens (c :: (t ++ b)) = true := by
      cases t with
      | cons d t => exact hc
      | nil =>
        cases b with
        | nil => exact hc
        | cons d b =>
          by_cases hm : c = '-' <;> by_cases hd : c = '/' <;>
            simp_all [opens, ofCode, joins]
    rw [List.cons_append, splitCode, if_neg hc', ih h hj hb]
    rfl

/-- A segment other than code that ends with the text ends there in a longer text too. -/
theorem next_append_of_joins {c : Char} {t b : Text} (h : (next c t).2 = [])
    (hk : (next c t).1.kind ≠ .code) (hb : (code.after (c :: t)).joins b = true) :
    next c (t ++ b) = (⟨(next c t).1.kind, c :: t⟩, b) := by
  rw [after_cons] at hb
  unfold next at h hk ⊢
  split_ifs at h hk with h1 h2 h3 h4
  · subst h1
    have hq := splitQuoted_append_of_joins (q := .single) h (by simpa [step, ofCode] using hb)
    simp only [Quote.char] at hq
    simp [hq]
  · subst h2
    have hq := splitQuoted_append_of_joins (q := .double) h (by simpa [step, ofCode] using hb)
    simp only [Quote.char] at hq
    simp [hq]
  · obtain ⟨rfl, ht⟩ := h3
    cases t with
    | nil => simp at ht
    | cons d t =>
      obtain rfl : d = '-' := by simpa using ht
      have hl := after_splitLine t
      have hlt := splitLine_append t
      have hn : (splitLine t).2 = [] := by simpa [splitLine] using h
      have hb' : line.joins b = true := by
        rw [hn, List.append_nil] at hlt
        rw [hlt] at hl
        simpa [step, ofCode, hl.1] using hb
      simp [splitLine, splitLine_append_of_joins hn hb']
  · obtain ⟨rfl, ht⟩ := h4
    cases t with
    | nil => simp at ht
    | cons d t =>
      obtain rfl : d = '*' := by simpa using ht
      simp [splitBlock_append_of_joins (t := t) h (by simpa [step, ofCode] using hb)]
  · simp at hk

end Segment

/-! ## Texts put together -/

namespace Segment

/-- Segments in a row, where code that meets code is one segment. -/
def glue : List Segment → List Segment → List Segment
  | [], r => r
  | [⟨.code, a⟩], ⟨.code, b⟩ :: r => ⟨.code, a ++ b⟩ :: r
  | s :: l, r => s :: glue l r

theorem glue_cons {l : List Segment} (hl : l ≠ []) (s : Segment) (r : List Segment) :
    glue (s :: l) r = s :: glue l r := by
  cases l with
  | nil => exact absurd rfl hl
  | cons s' l => rw [glue]; simp

theorem glue_of_kind_ne_code {s : Segment} (hs : s.kind ≠ .code) (r : List Segment) :
    glue [s] r = s :: r := by
  obtain ⟨kind, text⟩ := s
  cases r <;> cases kind <;> simp_all [glue]

theorem glue_of_head_ne_code (s : Segment) {r : List Segment}
    (hr : ∀ s' ∈ r.head?, s'.kind ≠ .code) : glue [s] r = s :: r := by
  cases r with
  | nil => simp [glue]
  | cons s' r =>
    obtain ⟨kind, text⟩ := s'
    have hk : kind ≠ .code := hr ⟨kind, text⟩ rfl
    rw [glue]
    · rfl
    · intro a b r' hr' _ _
      cases hr'
      exact hk rfl

end Segment
open Segment LexState

theorem segments_ne_nil {t : Text} (h : t ≠ []) : segments t ≠ [] := by
  cases t with
  | nil => exact absurd rfl h
  | cons c t => simp [segments]

theorem next_of_opens_eq_false {c : Char} {t : Text} (h : opens (c :: t) = false) :
    Segment.next c t = (⟨.code, c :: (splitCode t).1⟩, (splitCode t).2) := by
  simp only [opens, Bool.or_eq_false_iff, Bool.and_eq_false_iff, beq_eq_false_iff_ne] at h
  obtain ⟨⟨⟨h1, h2⟩, h3⟩, h4⟩ := h
  simp only [Segment.next]
  rw [if_neg h1, if_neg h2, if_neg (by tauto), if_neg (by tauto)]

theorem kind_next_of_opens {c : Char} {t : Text} (h : opens (c :: t) = true) :
    (Segment.next c t).1.kind ≠ .code := by
  unfold Segment.next
  split_ifs <;> simp_all [opens]

/-- Code at the end of a text is lengthened by the code that follows on it. -/
theorem segments_code_append {c : Char} {t b : Text} (hc : opens (c :: t) = false)
    (ht : (splitCode t).2 = []) (hb : (code.after (c :: t)).joins b = true) :
    segments (c :: t ++ b) = glue [⟨.code, c :: t⟩] (segments b) := by
  have hall := splitCode_append_of_joins (s := code) (t := c :: t) (b := b)
    (by rw [splitCode, if_neg (by simp [hc])]; exact ht) (joins_code _) hb
  have hcb : opens (c :: (t ++ b)) = false := by
    by_contra hopen
    rw [List.cons_append, splitCode, if_pos (by simpa using hopen)] at hall
    simp at hall
  rw [List.cons_append, splitCode, if_neg (by simp [hcb])] at hall
  simp only [Prod.mk.injEq, List.cons_append, List.cons.injEq, true_and] at hall
  rw [List.cons_append, segments, next_of_opens_eq_false hcb]
  simp only [hall.1, hall.2]
  cases b with
  | nil => simp [splitCode, segments, glue]
  | cons d b =>
    by_cases hopen : opens (d :: b) = true
    · rw [segments, glue_of_head_ne_code]
      · simp [splitCode, hopen, segments]
      · simpa using kind_next_of_opens hopen
    · simp only [Bool.not_eq_true] at hopen
      rw [segments, next_of_opens_eq_false hopen]
      simp [splitCode, hopen, glue]

/-- A text is lexed part by part where the second part joins the state behind the first. -/
theorem segments_append {a b : Text} (h : (code.after a).joins b = true) :
    segments (a ++ b) = glue (segments a) (segments b) := by
  fun_induction segments a with
  | case1 => simp [glue]
  | case2 c t ih =>
    by_cases hr : (Segment.next c t).2 = []
    · have ht : (Segment.next c t).1.text = c :: t := by
        simpa [hr] using Segment.next_append c t
      rw [hr, segments]
      by_cases hc : opens (c :: t) = true
      · rw [glue_of_kind_ne_code (kind_next_of_opens hc), List.cons_append, segments,
          next_append_of_joins hr (kind_next_of_opens hc) h, ← ht]
      · simp only [Bool.not_eq_true] at hc
        rw [next_of_opens_eq_false hc] at hr ht ⊢
        rw [segments_code_append hc hr h, ← ht]
    · rw [after_next hr] at h
      rw [List.cons_append, segments, next_append_of_ne_nil hr, ih h, glue_cons]
      exact segments_ne_nil hr

/-! ## Comments -/

/-- The comments of a query, from left to right. -/
def comments (t : Text) : List Text :=
  ((segments t).filter fun s => s.kind == .comment).map Segment.text

theorem filter_comment_glue (l r : List Segment) :
    (glue l r).filter (fun s => s.kind == .comment) =
      l.filter (fun s => s.kind == .comment) ++ r.filter (fun s => s.kind == .comment) := by
  fun_induction glue l r with
  | case1 => rfl
  | case2 a b r => rfl
  | case3 s l r _ ih => rw [List.filter_cons, List.filter_cons, ih]; split <;> rfl

/-- A text put together has the comments of its parts. -/
theorem comments_append {a b : Text} (h : (code.after a).joins b = true) :
    comments (a ++ b) = comments a ++ comments b := by
  rw [comments, segments_append h, filter_comment_glue, List.map_append]
  rfl

end DialectBridge
