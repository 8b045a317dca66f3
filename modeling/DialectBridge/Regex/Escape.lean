import DialectBridge.Regex.Expr
/-!
# Escapes

What a backslash makes of the text after it: a character, a set of characters or a condition.
In an expression with free white space, blanks and comments may stand between the parts of an
escape.
-/
namespace DialectBridge.Regex

def passBlanks : (inComment : Bool) → Text → Text
  | _, [] => []
  | true, c :: t => if c = '\n' then passBlanks false t else passBlanks true t
  | false, c :: t =>
    if Unicode.isBlank c then passBlanks false t
    else if c = '#' then passBlanks true t
    else c :: t

/-- Passes white space and comments if they do not count. -/
def passSpace (extended : Bool) (t : Text) : Text := if extended then passBlanks false t else t

/-- Characters that have a meaning of their own. -/
def isMeta (c : Char) : Bool := "\\.+*?()|[]\x7B\x7D^$#&-~".toList.contains c

/-- Characters that stand for themselves after a backslash. -/
def isEscapable (c : Char) : Bool :=
  isMeta c || (c.toNat < 128 && !c.isAlphanum && c != '<' && c != '>')

/-- The number in `count` hexadecimal digits, continuing `n`, and the text after it. -/
def hexDigits? (extended : Bool) : (count : Nat) → Nat → Text → Option (Nat × Text)
  | 0, n, t => some (n, t)
  | _ + 1, _, [] => none
  | count + 1, n, c :: t => do
    hexDigits? extended count (n * 16 + (← Text.digitValue? 16 c)) (passSpace extended t)

/-- The text up to the closing brace, less what does not count, and the text after the
brace. -/
def upToBrace? (extended : Bool) : (inComment : Bool) → Text → Option (Text × Text)
  | _, [] => none
  | true, c :: t => upToBrace? extended (c ≠ '\n') t
  | false, c :: t =>
    if extended && Unicode.isBlank c then upToBrace? extended false t
    else if extended && c = '#' then upToBrace? extended true t
    else if c = '\x7D' then some ([], t)
    else (upToBrace? extended false t).map fun (inside, rest) => (c :: inside, rest)

/-- A character written by its code point after `x`, `u` or `U`. -/
def hexChar? (extended : Bool) (kind : Char) (t : Text) : Option (Expr × Text) := do
  match passSpace extended t with
  | '\x7B' :: r =>
    let (digits, rest) ← upToBrace? extended false r
    if digits.isEmpty then none
    let n ← Text.readDigits 16 0 digits
    return (.char (← Text.charOfCode? n) false, passSpace extended rest)
  | r =>
    let count := if kind = 'x' then 2 else if kind = 'u' then 4 else 8
    let (n, rest) ← hexDigits? extended count 0 r
    return (.char (← Text.charOfCode? n) (kind = 'x'), rest)

/-- A property of characters after `p` or `P`. -/
def property? (extended negated : Bool) (t : Text) : Option (Expr × Text) := do
  match passSpace extended t with
  | [] => none
  | '\x7B' :: r =>
    let (inside, rest) ← upToBrace? extended false r
    let (query, others) := PropertyQuery.ofText inside
    return (.property query (negated != others), rest)
  | c :: r =>
    if c = '\\' then none
    else return (.property (.named [c]) negated, passSpace extended r)

/-- The condition that the braces after `\b` name, if they name one: the first character in
them decides whether they do or are a counted repetition. -/
def namedEdge? (extended : Bool) (t : Text) : Option (Look × Text) := do
  let isNameChar (c : Char) : Bool := c.isAlpha || c == '-'
  match t with
  | '\x7B' :: r =>
    let inside := passSpace extended r
    if inside.isEmpty then none
    if !(inside.head?.any isNameChar) then return (.wordEdge, t)
    let (name, rest) ← upToBrace? extended false inside
    if !name.all isNameChar then none
    if name = "start".toList then return (.wordStart, rest)
    if name = "end".toList then return (.wordEnd, rest)
    if name = "start-half".toList then return (.wordStartHalf, rest)
    if name = "end-half".toList then return (.wordEndHalf, rest)
    none
  | _ => return (.wordEdge, t)

def escape? (extended : Bool) (t : Text) : Option (Expr × Text) := do
  match t with
  | [] => none
  | c :: r =>
    match c with
    | 'x' | 'u' | 'U' => hexChar? extended c r
    | 'p' => property? extended false r
    | 'P' => property? extended true r
    | 'd' => return (.shorthand .digit false, r)
    | 'D' => return (.shorthand .digit true, r)
    | 's' => return (.shorthand .blank false, r)
    | 'S' => return (.shorthand .blank true, r)
    | 'w' => return (.shorthand .word false, r)
    | 'W' => return (.shorthand .word true, r)
    | 'a' => return (.char '\x07' false, r)
    | 'f' => return (.char '\x0C' false, r)
    | 't' => return (.char '\t' false, r)
    | 'n' => return (.char '\n' false, r)
    | 'r' => return (.char '\r' false, r)
    | 'v' => return (.char '\x0B' false, r)
    | 'A' => return (.look .textStart, r)
    | 'z' => return (.look .textEnd, r)
    | 'b' => do
      let (l, rest) ← namedEdge? extended r
      return (.look l, rest)
    | 'B' => return (.look .noWordEdge, r)
    | '<' => return (.look .wordStart, r)
    | '>' => return (.look .wordEnd, r)
    | _ => if isEscapable c then return (.char c false, r) else none

end DialectBridge.Regex
