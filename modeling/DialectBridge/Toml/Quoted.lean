import DialectBridge.Text.Number
/-!
# Strings in a TOML document

A string stands between quotation marks, where a backslash begins an escape, or between
apostrophes, where every character stands for itself. Three quotes in a row begin a string that
may run over several lines; a line feed right after them does not count.
-/
namespace DialectBridge.Toml.Quoted

/-- Control characters other than the tabulator must not stand in a document. -/
def isControl (c : Char) : Bool := (c.toNat < 0x20 && c != '\t') || c.toNat == 0x7F

def isSpace (c : Char) : Bool := c == ' ' || c == '\t'

/-- The character whose code point has `count` hexadecimal digits, and the number of characters
taken together with the letter in front of them. -/
def codePoint? (count : Nat) (t : Text) : Option (Char × Nat) := do
  let digits := t.take count
  if digits.length < count then none
  return (← Text.charOfCode? (← Text.readDigits 16 0 digits), count + 1)

/-- The character that an escape stands for, and the number of characters taken after the
backslash. -/
def escape? : Text → Option (Char × Nat)
  | 'b' :: _ => some ('\x08', 1)
  | 't' :: _ => some ('\t', 1)
  | 'n' :: _ => some ('\n', 1)
  | 'f' :: _ => some ('\x0C', 1)
  | 'r' :: _ => some ('\r', 1)
  | 'e' :: _ => some ('\x1B', 1)
  | '"' :: _ => some ('"', 1)
  | '\\' :: _ => some ('\\', 1)
  | 'x' :: t => codePoint? 2 t
  | 'u' :: t => codePoint? 4 t
  | 'U' :: t => codePoint? 8 t
  | _ => none

/-- The number of characters up to the end of the blanks and line breaks in front. -/
def gap : Text → Nat
  | '\r' :: '\n' :: t => 2 + gap t
  | c :: t => if isSpace c || c == '\n' then 1 + gap t else 0
  | [] => 0

/-- The number of characters in front of what follows when a backslash joins a line with it: blanks
and line breaks, of which the first one has to come after blanks only; 0 if it does not. -/
def joined (t : Text) : Nat :=
  match t.dropWhile isSpace with
  | '\n' :: _ => gap t
  | '\r' :: '\n' :: _ => gap t
  | _ => 0

def cons (c : Char) : Option (Text × Text) → Option (Text × Text) :=
  Option.map fun (inside, rest) => (c :: inside, rest)

/-- The inside of a string in quotation marks, and the text after it. `skip` characters belong
to an escape. -/
def basicFrom? : (skip : Nat) → Text → Option (Text × Text)
  | _, [] => none
  | skip + 1, _ :: t => basicFrom? skip t
  | 0, c :: t =>
    if c = '"' then some ([], t)
    else if c = '\\' then
      match escape? t with
      | some (e, n) => cons e (basicFrom? n t)
      | none => none
    else if isControl c then none
    else cons c (basicFrom? 0 t)

/-- The inside of a string in apostrophes, and the text after it. -/
def literal? : Text → Option (Text × Text)
  | [] => none
  | c :: t =>
    if c = '\'' then some ([], t)
    else if isControl c then none
    else cons c (literal? t)

/-- The end of a string over several lines, if it is here. Of up to five quotes the last three
end it. -/
def closing? (quote : Char) (t : Text) : Option (Text × Text) :=
  let n := min 5 (t.takeWhile (· == quote)).length
  if n < 3 then none else some (List.replicate (n - 3) quote, t.drop n)

/-- Whether `c` may stand in a string over several lines in front of `t`. A carriage return
needs its line feed. -/
def isBlockChar (c : Char) (t : Text) : Bool :=
  c == '\n' || (c == '\r' && t.head? == some '\n') || !isControl c

/-- The inside of a string in quotation marks that may run over several lines. A backslash at
the end of a line joins it with what follows. -/
def basicBlockFrom? : (skip : Nat) → Text → Option (Text × Text)
  | _, [] => none
  | skip + 1, _ :: t => basicBlockFrom? skip t
  | 0, c :: t =>
    match closing? '"' (c :: t) with
    | some found => some found
    | none =>
      if c = '\\' then
        match joined t, escape? t with
        | 0, some (e, n) => cons e (basicBlockFrom? n t)
        | 0, none => none
        | n, _ => basicBlockFrom? n t
      else if isBlockChar c t then cons c (basicBlockFrom? 0 t)
      else none

/-- The inside of a string in apostrophes that may run over several lines. -/
def literalBlock? : Text → Option (Text × Text)
  | [] => none
  | c :: t =>
    match closing? '\'' (c :: t) with
    | some found => some found
    | none => if isBlockChar c t then cons c (literalBlock? t) else none

/-- The text without a line break in front. -/
def passBreak : Text → Text
  | '\n' :: t => t
  | '\r' :: '\n' :: t => t
  | t => t

def line? : Text → Option (Text × Text)
  | '"' :: t => basicFrom? 0 t
  | '\'' :: t => literal? t
  | _ => none

def string? : Text → Option (Text × Text)
  | '"' :: '"' :: '"' :: t => basicBlockFrom? 0 (passBreak t)
  | '\'' :: '\'' :: '\'' :: t => literalBlock? (passBreak t)
  | t => line? t

end DialectBridge.Toml.Quoted
