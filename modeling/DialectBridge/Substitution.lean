import DialectBridge.Error
import DialectBridge.Regex
/-!
# Substitutions

A substitution is written `s/pattern/replacement/flags`. The character after the `s` is the
delimiter; a backslash in front of it makes it part of the text. The flag `g` asks for every
match instead of the first one, the flag `i` for either case. `split_escape` says that a piece
in which the delimiters are escaped is read back.
-/
namespace DialectBridge

/-- A regular expression and what its matches become. -/
structure Substitution where
  pattern : Text
  regex : Regex
  replacement : Text
  /-- Whether every match is replaced and not only the first. -/
  everywhere : Bool
  deriving Repr

namespace Substitution

/-- The pieces of a text between its delimiters. A backslash in front of a delimiter makes this
a character of the piece, and is dropped. -/
def split (delimiter : Char) : Text → List Text
  | [] => [[]]
  | [c] => if c = delimiter then [[], []] else [[c]]
  | c :: d :: t =>
    if c = '\\' ∧ d = delimiter then Text.consFirst delimiter (split delimiter t)
    else if c = delimiter then [] :: split delimiter (d :: t)
    else Text.consFirst c (split delimiter (d :: t))

def escape (delimiter : Char) : Text → Text
  | [] => []
  | c :: t => if c = delimiter then '\\' :: c :: escape delimiter t else c :: escape delimiter t

theorem split_escaped (d : Char) (t : Text) :
    split d ('\\' :: d :: t) = Text.consFirst d (split d t) := by simp [split]

theorem split_delimiter {d : Char} (hd : d ≠ '\\') (t : Text) :
    split d (d :: t) = [] :: split d t := by
  cases t with
  | nil => simp [split]
  | cons e t => simp [split, hd]

theorem split_cons {d c : Char} {t : Text} (hc : c ≠ d) (h : c ≠ '\\' ∨ t.head? ≠ some d) :
    split d (c :: t) = Text.consFirst c (split d t) := by
  cases t with
  | nil => simp [split, hc, Text.consFirst]
  | cons e t =>
    have : ¬(c = '\\' ∧ e = d) := by simp at h; grind
    simp [split, hc, this]

theorem head?_escape_append_ne {d : Char} (hd : d ≠ '\\') {p : Text} (hp : p ≠ []) (t : Text) :
    (escape d p ++ t).head? ≠ some d := by
  cases p with
  | nil => exact absurd rfl hp
  | cons c p =>
    by_cases hc : c = d
    · simp [escape, hc, hd.symm]
    · simp [escape, hc]

/-- What follows the delimiter after a piece is split on its own, if the piece does not end in
a backslash. -/
theorem split_escape {d : Char} (hd : d ≠ '\\') {p : Text} (hp : p.getLast? ≠ some '\\')
    (t : Text) : split d (escape d p ++ d :: t) = p :: split d t := by
  induction p with
  | nil => exact split_delimiter hd t
  | cons c p ih =>
    have ih := ih (by cases p <;> simp_all [List.getLast?_cons_cons])
    by_cases hc : c = d
    · subst hc
      rw [escape, if_pos rfl, List.cons_append, List.cons_append, split_escaped, ih]
      rfl
    · rw [escape, if_neg hc, List.cons_append, split_cons hc, ih]
      · rfl
      · by_cases hp' : p = []
        · subst hp'
          exact .inl (by simpa using hp)
        · exact .inr (head?_escape_append_ne hd hp' _)

/-- Whether `c` can separate the parts of a substitution. -/
def isDelimiter (c : Char) : Bool :=
  !(Unicode.isAlphanumeric c || c == '\\' || Unicode.isBlank c)

structure Flags where
  everywhere : Bool
  caseInsensitive : Bool
  deriving DecidableEq, Repr

/-- The flags written in `t`, or the first character that is none. -/
def readFlags : Flags → Text → Except Char Flags
  | flags, [] => .ok flags
  | flags, c :: t =>
    if c = 'g' then readFlags { flags with everywhere := true } t
    else if c = 'i' then readFlags { flags with caseInsensitive := true } t
    else .error c

/-- The parts of a substitution before its pattern is looked at: pattern, replacement and
flags. -/
def parts (t : Text) : Except SubstitutionFault (Text × Text × Flags) :=
  match t with
  | 's' :: [] => .error .missingDelimiter
  | 's' :: delimiter :: body =>
    if !isDelimiter delimiter then .error .badDelimiter
    else
      let finish (pattern replacement flags : Text) :=
        if pattern.isEmpty then .error .emptyPattern
        else
          match readFlags ⟨false, false⟩ flags with
          | .ok f => .ok (pattern, replacement, f)
          | .error c => .error (.unknownFlag c)
      match split delimiter body with
      | [pattern, replacement] => finish pattern replacement []
      | [pattern, replacement, flags] => finish pattern replacement flags
      | _ :: _ :: _ :: _ => .error .extraDelimiter
      | _ => .error .missingReplacement
  | _ => .error .missingCommand

def parse (t : Text) : Except Error Substitution :=
  match parts t with
  | .error fault => .error (.invalidSubstitution t fault)
  | .ok (pattern, replacement, flags) =>
    match Regex.compile? flags.caseInsensitive pattern with
    | none => .error (.invalidRegex pattern)
    | some regex => .ok ⟨pattern, regex, replacement, flags.everywhere⟩

def apply (s : Substitution) (t : Text) : Text :=
  if s.everywhere then s.regex.replaceAll s.replacement t
  else s.regex.replaceFirst s.replacement t

end Substitution
end DialectBridge
