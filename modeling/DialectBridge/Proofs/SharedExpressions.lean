import DialectBridge.Proofs.CastValues
import DialectBridge.Proofs.Expressions
/-!
# Expressions of both dialects

Some functions of Oracle have a counterpart in T-SQL, which takes the same arguments, perhaps with a word in
front of them, with a type behind them or the other way around. An expression made of such functions can be
written with any set of them in T-SQL and the others in Oracle (`Staged`): the rules of either direction go
from one of these texts to the next. Whatever is in T-SQL, the text is an operand (`Staged.operand`), and
its code is made of the names of the functions, plain names and a few signs (`Staged.worded`).
-/
namespace DialectBridge
open Pattern LexState ToTsql

/-! ## Counterparts -/

/-- A function of Oracle and the function of T-SQL that does the same. -/
structure Counterpart where
  oracle : String
  tsql : String
  /-- The number of arguments. -/
  arity : Nat
  /-- The word that T-SQL has in front of the arguments. -/
  lead : Option String := none
  /-- Whether T-SQL has the arguments the other way around. -/
  flipped : Bool := false
  /-- The type that T-SQL has behind an argument. -/
  type : Option String := none
  deriving DecidableEq

namespace Counterpart

def nvl : Counterpart := { oracle := "NVL", tsql := "ISNULL", arity := 2 }

def trunc : Counterpart := { oracle := "TRUNC", tsql := "CAST", arity := 1, type := "DATE" }

def addMonths : Counterpart :=
  { oracle := "ADD_MONTHS", tsql := "DATEADD", arity := 2, lead := "MONTH", flipped := true }

def lastDay : Counterpart := { oracle := "LAST_DAY", tsql := "EOMONTH", arity := 1 }

def substr : Counterpart := { oracle := "SUBSTR", tsql := "SUBSTRING", arity := 3 }

def instr : Counterpart := { oracle := "INSTR", tsql := "CHARINDEX", arity := 2, flipped := true }

def length : Counterpart := { oracle := "LENGTH", tsql := "LEN", arity := 1 }

end Counterpart

/-- The functions that are converted in both directions. -/
def counterparts : List Counterpart :=
  [.nvl, .trunc, .addMonths, .lastDay, .substr, .instr, .length]

namespace Counterpart

variable (c : Counterpart) (done : List String)

/-- What T-SQL has behind an argument. -/
def suffix : Text := c.type.elim [] fun t => typeLink ++ t.toList

/-- The name of the function, when the functions of `done` are in T-SQL. -/
def name : String := if c.oracle ∈ done then c.tsql else c.oracle

/-- The arguments of Oracle in the order of T-SQL. -/
def ordered (args : List Text) : List Text := if c.flipped then args.reverse else args

/-- The arguments of the function, when the functions of `done` are in T-SQL. -/
def arguments (args : List Text) : List Text :=
  if c.oracle ∈ done then c.lead.toList.map String.toList ++ (c.ordered args).map (· ++ c.suffix) else args

/-- A call of the function, when the functions of `done` are in T-SQL. -/
def text (args : List Text) : Text := callText (c.name done).toList (c.arguments done args)

def words : List String :=
  if c.oracle ∈ done then c.tsql :: c.lead.toList ++ (c.type.elim [] fun t => ["AS", t]) else [c.oracle]

end Counterpart

def nowText (done : List String) : Text := if "SYSDATE" ∈ done then "GETDATE()" else "SYSDATE"

/-! ## Expressions -/

/-- Expressions of Oracle that are converted in both directions. -/
inductive SharedExpression : Text → Prop
  | column {d : Text} : IsDigits d → SharedExpression ('c' :: d)
  | number {d : Text} : d ≠ [] → IsDigits d → SharedExpression d
  | literal {t : Text} : (∀ c ∈ ['\'', '&', '\n'], c ∉ t) → SharedExpression ('\'' :: (t ++ ['\'']))
  | sysdate : SharedExpression "SYSDATE"
  | call {c : Counterpart} {args : List Text} : c ∈ counterparts → args.length = c.arity →
      (∀ a ∈ args, SharedExpression a) → SharedExpression (callText c.oracle.toList args)

/-- The signs in the code of an expression, and of a limit for the rows. -/
def signs : List Char := ['\'', '(', ')', ',', ' ', '<', '=']

/-- The code is made of signs, plain names and the given words. -/
def Worded (words : List String) (t : Text) : Prop :=
  ∀ p ∈ pieces t, (∃ c ∈ signs, p = [c]) ∨ IsPlainName p ∨ ∃ w ∈ words, p = w.toList

/-- A text that is the same in both dialects. -/
structure IsLeaf (t : Text) : Prop where
  operand : Operand t
  worded : Worded [] (mask t)
  clean : ∀ c ∈ ['&', '\n'], c ∉ t
  first : ∀ c ∈ (mask t).head?, Unicode.isBlank c = false

/-- The texts of an expression, one for each list of names that are in T-SQL. -/
inductive Staged : (List String → Text) → Prop
  | leaf {t : Text} : IsLeaf t → Staged fun _ => t
  | sysdate : Staged nowText
  | call {c : Counterpart} {args : List (List String → Text)} : c ∈ counterparts → args.length = c.arity →
      (∀ a ∈ args, Staged a) → Staged fun done => c.text done (args.map fun a => a done)

section
variable {words words' names : List String} {t u : Text} {c : Counterpart} {done : List String}

theorem Worded.mono (h : Worded words t) (hsub : words ⊆ words') : Worded words' t := fun p hp =>
  (h p hp).imp_right (.imp_right fun ⟨w, hw, heq⟩ => ⟨w, hsub hw, heq⟩)

theorem Worded.append (ht : Worded words t) (hu : Worded words u) (h : Apart t u) : Worded words (t ++ u) := by
  intro p hp
  rw [pieces_append h, List.mem_append] at hp
  exact hp.elim (ht p) (hu p)

theorem worded_word {n : String} (hname : isName n.toList = true) (hn : n ∈ words) : Worded words n.toList := by
  intro p hp
  have hword := isWord_of_isName hname
  rw [pieces_word hword.ne_nil hword.chars, List.mem_singleton] at hp
  exact .inr (.inr ⟨n, hn, hp⟩)

theorem worded_plainName (hword : ∀ c ∈ t, Unicode.isWordChar c = true) (ht : IsPlainName t) : Worded words t := by
  intro p hp
  have hne : t ≠ [] := by
    rintro rfl
    simp at hp
  rw [pieces_word hne hword, List.mem_singleton] at hp
  exact .inr (.inl (hp ▸ ht))

theorem worded_signs (h : ∀ c ∈ t, c ∈ signs) : Worded words t := by
  intro p hp
  have hsign : ∀ c ∈ p, c ∈ signs := fun c hc => h c <| by
    rw [← flatten_pieces t]
    exact List.mem_flatten_of_mem hp hc
  rcases mem_pieces hp with ⟨c, rfl⟩ | hword
  · exact .inl ⟨c, hsign c (by simp), rfl⟩
  · obtain ⟨c, p, rfl⟩ := List.exists_cons_of_ne_nil (ne_nil_of_mem_pieces hp)
    exact absurd (hword c (by simp)) ((by decide : ∀ c ∈ signs, ¬ Unicode.isWordChar c = true) c (hsign c (by simp)))

/-- Names that are no words of the code. -/
def Foreign (words names : List String) : Prop :=
  ∀ n ∈ names, isName n.toList = true ∧ beginsInLetters n.toList = true ∧
    ∀ w ∈ words, ¬ Spelled n.toList w.toList

instance (words names : List String) : Decidable (Foreign words names) :=
  inferInstanceAs (Decidable (∀ n ∈ names, isName n.toList = true ∧ beginsInLetters n.toList = true ∧
    ∀ w ∈ words, ¬ Spelled n.toList w.toList))

theorem Worded.spares (h : Worded words t) (hnames : Foreign words names) : Spares names t := by
  intro p hp n hn
  obtain ⟨hname, hletters, hwords⟩ := hnames n hn
  rcases h p hp with ⟨c, hc, rfl⟩ | hplain | ⟨w, hw, rfl⟩
  · exact not_spelled_singleton hname ((by decide : ∀ c ∈ signs, Unicode.isWordChar c = false) c hc)
  · exact not_spelled_plainName hletters hplain
  · exact hwords w hw

/-- A sign that no expression has is not in the code. -/
theorem Worded.not_mem {d : Char} (h : Worded words t) (hwords : ∀ w ∈ words, isName w.toList = true)
    (hd : Unicode.isWordChar d = false) (hsign : d ∉ signs) : d ∉ t := by
  intro hmem
  rw [← flatten_pieces t, List.mem_flatten] at hmem
  obtain ⟨p, hp, hmem⟩ := hmem
  have hword : ¬ Unicode.isWordChar d = true := by simp [hd]
  rcases h p hp with ⟨c, hc, rfl⟩ | ⟨n, hn, hplain⟩ | ⟨w, hw, rfl⟩
  · exact hsign (List.mem_singleton.1 hmem ▸ hc)
  · have hletters : ∀ c ∈ ['c', 't'], Unicode.isWordChar c = true := by decide
    rcases hplain with rfl | rfl | rfl
    · exact hword (isWordChar_of_asciiDigit (hn d hmem))
    · rcases List.mem_cons.1 hmem with rfl | hmem
      · exact hword (hletters _ (by simp))
      · exact hword (isWordChar_of_asciiDigit (hn d hmem))
    · rcases List.mem_cons.1 hmem with rfl | hmem
      · exact hword (hletters _ (by simp))
      · exact hword (isWordChar_of_asciiDigit (hn d hmem))
  · exact hword ((isWord_of_isName (hwords w hw)).chars d hmem)

/-! ## The arguments of a call -/

/-- The words of the table are names. -/
theorem isName_counterparts : ∀ c ∈ counterparts, isName c.oracle.toList = true ∧ isName c.tsql.toList = true ∧
    (∀ u ∈ c.lead, isName u.toList = true) ∧ (∀ t ∈ c.type, isName t.toList = true) ∧ c.arity ≠ 0 := by
  decide

theorem isName_name (hc : c ∈ counterparts) (done : List String) : isName (c.name done).toList = true := by
  obtain ⟨horacle, htsql, -⟩ := isName_counterparts c hc
  rw [Counterpart.name]
  split_ifs
  · exact htsql
  · exact horacle

/-- What relates the arguments of two calls relates what T-SQL makes of them. -/
theorem forall₂_arguments {R : Text → Text → Prop} {args args' : List Text} {done' : List String}
    (hdone : c.oracle ∈ done ↔ c.oracle ∈ done') (hlead : ∀ u ∈ c.lead, R u.toList u.toList)
    (hsuffix : ∀ a b, R a b → R (a ++ c.suffix) (b ++ c.suffix)) (h : List.Forall₂ R args args') :
    List.Forall₂ R (c.arguments done args) (c.arguments done' args') := by
  have hordered : List.Forall₂ R (c.ordered args) (c.ordered args') := by
    rw [Counterpart.ordered, Counterpart.ordered]
    split_ifs
    · exact List.rel_reverse h
    · exact h
  simp only [Counterpart.arguments, ← hdone]
  split_ifs with hmem
  · refine List.rel_append ?_ ?_
    · simpa [List.forall₂_map_left_iff, List.forall₂_map_right_iff, List.forall₂_same] using hlead
    · rw [List.forall₂_map_left_iff, List.forall₂_map_right_iff]
      exact hordered.imp hsuffix
  · exact h

/-- What holds of the arguments of a call holds of what T-SQL makes of them. -/
theorem forall_arguments {P : Text → Prop} {args : List Text} (hlead : c.oracle ∈ done → ∀ u ∈ c.lead, P u.toList)
    (hsuffix : c.oracle ∈ done → ∀ a, P a → P (a ++ c.suffix)) (h : ∀ a ∈ args, P a) :
    ∀ a ∈ c.arguments done args, P a := by
  have hordered : ∀ a ∈ c.ordered args, P a := by
    rw [Counterpart.ordered]
    split_ifs
    · simpa using h
    · exact h
  rw [Counterpart.arguments]
  split_ifs with hmem
  · rw [List.forall_mem_append, List.forall_mem_map, List.forall_mem_map]
    exact ⟨fun u hu => hlead hmem u (by simpa using hu), fun a ha => hsuffix hmem a (hordered a ha)⟩
  · exact h

/-! ## What an expression is made of -/

theorem isLink_typeLink : IsLink [] typeLink := by decide

theorem operand_suffix {a : Text} (hc : c ∈ counterparts) (ha : Operand a) : Operand (a ++ c.suffix) := by
  obtain ⟨-, -, -, htype, -⟩ := isName_counterparts c hc
  rw [Counterpart.suffix]
  cases hct : c.type with
  | none => simpa using ha
  | some t => exact operand_linked ha isLink_typeLink (operand_word (isWord_of_isName (htype t hct)))

theorem operand_arguments {args : List Text} (hc : c ∈ counterparts) (h : ∀ a ∈ args, Operand a) :
    ∀ a ∈ c.arguments done args, Operand a := by
  obtain ⟨-, -, hlead, -⟩ := isName_counterparts c hc
  exact forall_arguments (fun _ u hu => operand_word (isWord_of_isName (hlead u hu))) (fun _ _ => operand_suffix hc) h

theorem operand_text {args : List Text} (hc : c ∈ counterparts) (h : ∀ a ∈ args, Operand a) :
    Operand (c.text done args) :=
  operand_callText (isWord_of_isName (isName_name hc done)) (operand_arguments hc h)

theorem operand_now (done : List String) : Operand (nowText done) := by
  rw [nowText]
  split_ifs
  · have hword : IsWord "GETDATE".toList := isWord_of_isName (by decide)
    have hargs : ∀ t ∈ ([] : List Text), Operand t := by simp
    exact operand_callText hword hargs
  · exact operand_word (isWord_of_isName (by decide))

variable {f : List String → Text}

theorem Staged.operand (h : Staged f) (done : List String) : Operand (f done) := by
  induction h with
  | leaf ht => exact ht.operand
  | sysdate => exact operand_now done
  | call hc _ _ ih => exact operand_text hc (by simpa using ih)

/-- The words of the functions and of the current time. -/
def stageWords (done : List String) : List String :=
  (if "SYSDATE" ∈ done then "GETDATE" else "SYSDATE") :: counterparts.flatMap (·.words done)

theorem mask_suffix {a : Text} (hc : c ∈ counterparts) (ha : Operand a) :
    mask (a ++ c.suffix) = mask a ++ c.suffix := by
  obtain ⟨-, -, -, htype, -⟩ := isName_counterparts c hc
  rw [Counterpart.suffix]
  cases hct : c.type with
  | none => simp
  | some t =>
    have hplain : ∀ d ∈ typeLink ++ t.toList, isPlain d = true := fun d hd => by
      rcases List.mem_append.1 hd with hd | hd
      · exact (by decide : ∀ d ∈ typeLink, isPlain d = true) d hd
      · exact isPlain_of_isWordChar ((isWord_of_isName (htype t hct)).chars d hd)
    simpa using mask_plain_between (b := []) ha.live hplain (by simp [typeLink])

theorem worded_suffix {a : Text} (hc : c ∈ counterparts) (hwords : c.words done ⊆ words) (hdone : c.oracle ∈ done)
    (ha : Worded words a) : Worded words (a ++ c.suffix) := by
  obtain ⟨-, -, -, htype, -⟩ := isName_counterparts c hc
  rw [Counterpart.suffix]
  cases hct : c.type with
  | none => simpa using ha
  | some t =>
    have hsub : ["AS", t] ⊆ words := fun w hw => hwords (by simp [Counterpart.words, hdone, hct, hw])
    have hlink : Worded words typeLink := by
      have hsplit : typeLink = [' '] ++ ("AS".toList ++ [' ']) := by decide
      have hspace : Worded words [' '] := worded_signs (by decide)
      rw [hsplit]
      exact hspace.append ((worded_word (by decide) (hsub (by simp))).append hspace (.of_begins rfl _))
        (.of_ends (by decide) _)
    exact ha.append (hlink.append (worded_word (htype t hct) (hsub (by simp))) (.of_ends (by decide) _))
      (.of_begins rfl _)

theorem worded_callText {n : String} {args : List Text} (hname : isName n.toList = true) (hn : n ∈ words)
    (h : ∀ a ∈ args, Worded words a) : Worded words (callText n.toList args) := by
  intro p hp
  rcases mem_pieces_callText (isWord_of_isName hname) hp with rfl | ⟨a, ha, hp⟩ | hp
  · exact .inr (.inr ⟨n, hn, rfl⟩)
  · exact h a ha p hp
  · refine .inl ?_
    simp only [List.mem_cons, List.not_mem_nil, or_false] at hp
    rcases hp with rfl | rfl | rfl | rfl
    · exact ⟨'(', by decide, rfl⟩
    · exact ⟨')', by decide, rfl⟩
    · exact ⟨',', by decide, rfl⟩
    · exact ⟨' ', by decide, rfl⟩

theorem worded_now (h : (if "SYSDATE" ∈ done then "GETDATE" else "SYSDATE") ∈ words) :
    Worded words (mask (nowText done)) := by
  rw [nowText]
  split_ifs at h ⊢
  · have hcall : "GETDATE()".toList = callText "GETDATE".toList [] := by decide
    rw [hcall, mask_of_all_isPlain (by decide)]
    exact worded_callText (by decide) h (by simp)
  · rw [mask_of_all_isPlain (by decide)]
    exact worded_word (by decide) h

/-- The code of an expression is made of its words. -/
theorem Staged.worded (h : Staged f) (done : List String) (hwords : stageWords done ⊆ words) :
    Worded words (mask (f done)) := by
  induction h with
  | leaf ht => exact ht.worded.mono (by simp)
  | sysdate => exact worded_now (hwords List.mem_cons_self)
  | @call c args hc _ hargs ih =>
    have hsub : c.words done ⊆ words := fun w hw =>
      hwords (List.mem_cons_of_mem _ (List.mem_flatMap.2 ⟨c, hc, hw⟩))
    have hname : c.name done ∈ words := hsub (by rw [Counterpart.name, Counterpart.words]; split_ifs <;> simp)
    have hoperands : ∀ a ∈ args.map fun a => a done, Operand a := by simpa using fun a ha => (hargs a ha).operand done
    obtain ⟨-, -, hlead, -⟩ := isName_counterparts c hc
    have hparts : ∀ a ∈ c.arguments done (args.map fun a => a done), Operand a ∧ Worded words (mask a) := by
      refine forall_arguments (fun hdone u hu => ?_) (fun hdone a ha => ?_) ?_
      · have hword := isWord_of_isName (hlead u hu)
        refine ⟨operand_word hword, ?_⟩
        rw [mask_word hword]
        have hu : c.lead = some u := hu
        exact worded_word (hlead u hu) (hsub (by simp [Counterpart.words, hdone, hu]))
      · rw [mask_suffix hc ha.1]
        exact ⟨operand_suffix hc ha.1, worded_suffix hc hsub hdone ha.2⟩
      · simpa using fun a ha => ⟨(hargs a ha).operand done, ih a ha⟩
    have hmask : mask (c.text done (args.map fun a => a done)) =
        callText (c.name done).toList ((c.arguments done (args.map fun a => a done)).map mask) :=
      mask_callText (isWord_of_isName (isName_name hc done)).chars fun a ha => (hparts a ha).1.live
    rw [hmask]
    exact worded_callText (isName_name hc done) hname (by simpa using fun a ha => (hparts a ha).2)

/-- The code of an expression does not begin in white space. -/
theorem Staged.first (h : Staged f) (done : List String) : ∀ d ∈ (mask (f done)).head?, Unicode.isBlank d = false := by
  cases h with
  | leaf ht => exact ht.first
  | sysdate =>
    rw [nowText]
    split_ifs
    · rw [mask_of_all_isPlain (by decide)]
      decide
    · rw [mask_of_all_isPlain (by decide)]
      decide
  | @call c args hc _ _ =>
    have hword := isWord_of_isName (isName_name hc done)
    simp only [Counterpart.text, callText]
    rw [mask_plain_append fun d hd => isPlain_of_isWordChar (hword.chars d hd)]
    exact isBlank_of_word ⟨hword.ne_nil, hword.chars⟩ _

/-- An expression has no ampersand and no line feed. -/
theorem Staged.clean (h : Staged f) (done : List String) : ∀ d ∈ ['&', '\n'], d ∉ f done := by
  intro d hd
  induction h with
  | leaf ht => exact ht.clean d hd
  | sysdate =>
    rw [nowText]
    split_ifs
    · exact (by decide : ∀ d ∈ ['&', '\n'], d ∉ "GETDATE()".toList) d hd
    · exact (by decide : ∀ d ∈ ['&', '\n'], d ∉ "SYSDATE".toList) d hd
  | @call c args hc _ _ ih =>
    have hfixed : ∀ c ∈ counterparts, ∀ d ∈ ['&', '\n'], d ∉ c.oracle.toList ∧ d ∉ c.tsql.toList ∧
        (∀ u ∈ c.lead, d ∉ u.toList) ∧ d ∉ c.suffix := by
      decide
    obtain ⟨horacle, htsql, hlead, hsuffix⟩ := hfixed c hc d hd
    intro hmem
    rcases mem_callText hmem with hmem | ⟨a, ha, hmem⟩ | hmem
    · rw [Counterpart.name] at hmem
      split_ifs at hmem
      · exact htsql hmem
      · exact horacle hmem
    · have hnone : ∀ a ∈ c.arguments done (args.map fun a => a done), d ∉ a :=
        forall_arguments (fun _ u hu => hlead u hu) (fun _ a ha => by simpa using ⟨ha, hsuffix⟩) (by simpa using ih)
      exact hnone a ha hmem
    · exact (by decide : ∀ d ∈ ['&', '\n'], d ∉ ['(', ')', ',', ' ']) d hd hmem

end

/-! ## From texts to stages -/

section
variable {e : Text} {es : List Text}

theorem isLeaf_plainName {t : Text} (hne : t ≠ []) (hword : ∀ c ∈ t, Unicode.isWordChar c = true)
    (ht : IsPlainName t) : IsLeaf t := by
  have hmask : mask t = t := mask_word ⟨hne, hword⟩
  refine ⟨operand_word ⟨hne, hword⟩, ?_, fun c hc hmem => ?_, ?_⟩
  · rw [hmask]
    exact worded_plainName hword ht
  · exact absurd (hword c hmem) ((by decide : ∀ c ∈ ['&', '\n'], ¬ Unicode.isWordChar c = true) c hc)
  · have hfirst := isBlank_of_word ⟨hne, hword⟩ []
    rwa [List.append_nil, ← hmask] at hfirst

theorem isLeaf_literal {t : Text} (h : ∀ c ∈ ['\'', '&', '\n'], c ∉ t) : IsLeaf ('\'' :: (t ++ ['\''])) := by
  have hquote : '\'' ∉ t := h _ (by simp)
  have hmask : mask ('\'' :: (t ++ ['\''])) = '\'' :: (Text.spaces (Text.width t) ++ ['\'']) :=
    mask_quoted (q := .single) hquote
  refine ⟨(isAtom_literal hquote (h _ (by simp))).operand, ?_, fun c hc hmem => ?_, ?_⟩
  · rw [hmask]
    refine worded_signs fun c hc => ?_
    simp only [Text.spaces, List.mem_cons, List.mem_append, List.mem_replicate, List.not_mem_nil, or_false] at hc
    rcases hc with rfl | ⟨-, rfl⟩ | rfl <;> decide
  · have hne : c ≠ '\'' := (by decide : ∀ c ∈ ['&', '\n'], c ≠ '\'') c hc
    have hin : c ∈ t := by simpa [hne] using hmem
    exact h c (List.mem_cons_of_mem _ hc) hin
  · rw [hmask]
    rintro _ ⟨⟩
    decide

theorem exists_stages {es : List Text} (h : ∀ e ∈ es, ∃ f, Staged f ∧ f [] = e) :
    ∃ fs : List (List String → Text), (∀ f ∈ fs, Staged f) ∧ (fs.map fun f => f []) = es := by
  induction es with
  | nil => exact ⟨[], by simp, rfl⟩
  | cons e es ih =>
    obtain ⟨f, hf, rfl⟩ := h e (by simp)
    obtain ⟨fs, hfs, rfl⟩ := ih fun e he => h e (List.mem_cons_of_mem _ he)
    exact ⟨f :: fs, by simpa using ⟨hf, hfs⟩, rfl⟩

/-- An expression of Oracle is the text with nothing in T-SQL. -/
theorem SharedExpression.exists_staged (h : SharedExpression e) : ∃ f, Staged f ∧ f [] = e := by
  induction h with
  | @column d hd =>
    refine ⟨_, .leaf (isLeaf_plainName (by simp) (fun c hc => ?_) ⟨d, hd, .inr (.inl rfl)⟩), rfl⟩
    rcases List.mem_cons.1 hc with rfl | hc
    · decide
    · exact isWordChar_of_asciiDigit (hd c hc)
  | @number d hne hd => exact ⟨_, .leaf (isLeaf_plainName hne (isWordChar_of_isDigits hd) ⟨d, hd, .inl rfl⟩), rfl⟩
  | literal ht => exact ⟨_, .leaf (isLeaf_literal ht), rfl⟩
  | sysdate => exact ⟨_, .sysdate, rfl⟩
  | @call c args hc hlength _ ih =>
    obtain ⟨fs, hfs, rfl⟩ := exists_stages ih
    exact ⟨_, .call hc (by simpa using hlength) hfs, by
      simp [Counterpart.text, Counterpart.name, Counterpart.arguments]⟩

end

end DialectBridge
