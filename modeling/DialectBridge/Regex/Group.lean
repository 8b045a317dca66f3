import DialectBridge.Regex.Escape
import DialectBridge.Unicode.Letter
/-!
# Heads of groups, and counted repetitions

A group may begin with a name or with a change of flags. A counted repetition has its bounds in
braces.
-/
namespace DialectBridge.Regex

def flag? : Char → Option Flag
  | 'i' => some .caseInsensitive
  | 'm' => some .multiLine
  | 's' => some .dotMatchesNewLine
  | 'U' => some .swapGreed
  | 'u' => some .unicode
  | 'R' => some .crlf
  | 'x' => some .ignoreWhitespace
  | _ => none

/-- A change of flags, read up to its `:` or `)`; that character and the text after it follow.
A flag may be named once, and a hyphen needs a flag after it. -/
def flags? : (clearing afterHyphen : Bool) → FlagChange → Text → Option (FlagChange × Char × Text)
  | _, _, _, [] => none
  | clearing, hyphen, change, c :: t =>
    if c = ':' ∨ c = ')' then if hyphen then none else some (change, c, t)
    else if c = '-' then if clearing then none else flags? true true change t
    else match flag? c with
      | none => none
      | some f =>
        if change.on.contains f || change.off.contains f then none
        else if clearing then flags? clearing false ⟨change.on, f :: change.off⟩ t
        else flags? clearing false ⟨f :: change.on, change.off⟩ t

/-- How a group begins. -/
inductive GroupHead where
  | capture (name : Option Text)
  | flags (change : FlagChange)
  | within (change : FlagChange)

def isNameChar (first : Bool) (c : Char) : Bool :=
  if first then c == '_' || Unicode.isAlphabetic c
  else c == '_' || c == '.' || c == '[' || c == ']' || Unicode.isAlphanumeric c

/-- The name of a group, up to its `>`. -/
def groupName? (t : Text) : Option (Text × Text) :=
  let name := t.takeWhile (· != '>')
  match t.drop name.length, name with
  | '>' :: rest, first :: more =>
    if isNameChar true first && more.all (isNameChar false) then some (name, rest) else none
  | _, _ => none

def groupHead? (extended : Bool) (t : Text) : Option (GroupHead × Text) := do
  match passSpace extended t with
  | '?' :: '=' :: _ => none
  | '?' :: '!' :: _ => none
  | '?' :: '<' :: '=' :: _ => none
  | '?' :: '<' :: '!' :: _ => none
  | '?' :: 'P' :: '<' :: r =>
    let (name, rest) ← groupName? r
    return (.capture (some name), rest)
  | '?' :: '<' :: r =>
    let (name, rest) ← groupName? r
    return (.capture (some name), rest)
  | '?' :: r =>
    let (change, last, rest) ← flags? false false ⟨[], []⟩ r
    if last = ':' then return (.within change, rest)
    if change = ⟨[], []⟩ then none
    return (.flags change, rest)
  | r => return (.capture none, r)

/-- The digits at the start of a text, with what does not count between them, and the text
after them. -/
def digitsFrom (extended : Bool) : (fuel : Nat) → Text → Text × Text
  | fuel + 1, c :: t =>
    if c.isDigit then
      let (more, rest) := digitsFrom extended fuel (passSpace extended t)
      (c :: more, rest)
    else ([], c :: t)
  | _, t => ([], t)

/-- The decimal number below 2^32 at the start of a text, if there is one, and the text after
it. White space around a number never counts. -/
def decimal? (extended : Bool) (t : Text) : Option Nat × Text :=
  let t := t.dropWhile Unicode.isBlank
  let (ds, rest) := digitsFrom extended t.length t
  (Text.readNat? 10 (Nat.pow 2 32) ds, rest.dropWhile Unicode.isBlank)

/-- The bounds in the braces of a counted repetition, after the opening brace. -/
def bounds? (extended : Bool) (t : Text) : Option (Nat × Option Nat × Text) := do
  let (least, rest) := decimal? extended (passSpace extended t)
  match rest with
  | '\x7D' :: rest =>
    let n ← least
    return (n, some n, rest)
  | ',' :: rest =>
    match passSpace extended rest with
    | '\x7D' :: rest => return (← least, none, rest)
    | rest =>
      let (most, rest) := decimal? extended rest
      match rest with
      | '\x7D' :: rest =>
        let lo ← least
        let hi ← most
        if lo ≤ hi then return (lo, some hi, rest) else none
      | _ => none
  | _ => none

end DialectBridge.Regex
