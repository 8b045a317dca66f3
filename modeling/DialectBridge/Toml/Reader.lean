import DialectBridge.Toml.DateTime
import DialectBridge.Toml.Number
import DialectBridge.Toml.Quoted
import DialectBridge.Toml.Value
/-!
# Reading a TOML document

The text is read line by line, and the lines make the document. Arrays and tables in braces may
run over several lines and may stand in one another, but not too deep. Keys with points between
them stand on one line; only in braces may the value follow on another one.
-/
namespace DialectBridge.Toml

namespace Reader
open Quoted

def passSpace (t : Text) : Text := t.dropWhile isSpace

/-- Passes a comment, if there is one, up to the end of the line. -/
def passComment? : (inside : Bool) → Text → Option Text
  | _, [] => some []
  | false, c :: t => if c = '#' then passComment? true t else some (c :: t)
  | true, c :: t =>
    if c = '\n' ∨ c = '\r' then some (c :: t)
    else if isControl c then none
    else passComment? true t

/-- Passes blanks, comments and line breaks. -/
def passLines? : (inComment : Bool) → Text → Option Text
  | _, [] => some []
  | inComment, c :: t =>
    if c = '\n' then passLines? false t
    else if c = '\r' then if t.head? = some '\n' then passLines? false t else none
    else if inComment then if isControl c then none else passLines? true t
    else if isSpace c then passLines? false t
    else if c = '#' then passLines? true t
    else some (c :: t)

/-- Passes the rest of a line, which may hold a comment. -/
def endLine? (t : Text) : Option Text := do
  match ← passComment? false (passSpace t) with
  | [] => return []
  | '\n' :: t => return t
  | '\r' :: '\n' :: t => return t
  | _ => none

def isKeyChar (c : Char) : Bool := c.isAlphanum || c == '_' || c == '-'

def key? (t : Text) : Option (Text × Text) :=
  let bare := t.takeWhile isKeyChar
  if bare.isEmpty then line? t else some (bare, t.drop bare.length)

/-- The most keys that may stand one behind the other, and the most brackets that may stand in
one another. -/
def depthLimit : Nat := 80

/-- Keys with points between them, `fuel` at most, and the text after them and the blanks there. -/
def pathWithin? : (fuel : Nat) → Text → Option (Path × Text × Text)
  | 0, _ => none
  | fuel + 1, t => do
    let (key, rest) ← key? (passSpace t)
    match passSpace rest with
    | '.' :: rest =>
      let (path, last, rest) ← pathWithin? fuel rest
      return (key :: path, last, rest)
    | rest => return ([], key, rest)

def path? (t : Text) : Option (Path × Text × Text) := pathWithin? depthLimit t

def isBareChar (c : Char) : Bool := !"=,[]\x7B\x7D\"'# \t\r\n".toList.contains c

/-- A value that is neither quoted nor in brackets, and the text after it. -/
def bare? (t : Text) : Option (Value × Text) :=
  let word := t.takeWhile isBareChar
  let rest := t.drop word.length
  let more : Text := match rest with
    | ' ' :: c :: r =>
      if DateTime.looksLikeDate word && c.isDigit then ' ' :: (c :: r).takeWhile isBareChar else []
    | _ => []
  let word := word ++ more
  let rest := rest.drop more.length
  if word = "true".toList then some (.boolean true, rest)
  else if word = "false".toList then some (.boolean false, rest)
  else if Number.isNumber word then some (.number, rest)
  else if DateTime.isDateTime word then some (.dateTime, rest)
  else none

mutual

/-- A value, and the text after it; `depth` brackets are open. -/
def value? (depth : Nat) : (fuel : Nat) → Text → Option (Value × Text)
  | 0, _ => none
  | fuel + 1, t =>
    match t with
    | '[' :: t => do
      if depth = depthLimit then none
      let (items, rest) ← items? (depth + 1) fuel (← passLines? false t)
      return (.array items, rest)
    | '\x7B' :: t => do
      if depth = depthLimit then none
      let (entries, rest) ← entries? (depth + 1) fuel [] (← passLines? false t)
      return (.table .braces entries, rest)
    | '"' :: _ | '\'' :: _ => (string? t).map fun (s, rest) => (.string s, rest)
    | _ => bare? t

/-- The items of an array up to its closing bracket, and the text after this. -/
def items? (depth : Nat) : (fuel : Nat) → Text → Option (List Value × Text)
  | 0, _ => none
  | fuel + 1, t =>
    match t with
    | ']' :: rest => some ([], rest)
    | _ => do
      let (item, rest) ← value? depth fuel t
      match ← passLines? false rest with
      | ',' :: rest =>
        let (items, rest) ← items? depth fuel (← passLines? false rest)
        return (item :: items, rest)
      | ']' :: rest => return ([item], rest)
      | _ => none

/-- The entries of a table in braces after those read before, up to its closing brace, and the
text after this. -/
def entries? (depth : Nat) : (fuel : Nat) → Entries → Text → Option (Entries × Text)
  | 0, _, _ => none
  | fuel + 1, before, t =>
    match t with
    | '\x7D' :: rest => some (before, rest)
    | _ => do
      let (path, key, rest) ← path? t
      let rest ← DateTime.pass? '=' (← passLines? false rest)
      let (value, rest) ← value? depth fuel (← passLines? false rest)
      let (_, entries) ← before.insert? path key value .braces
      match ← passLines? false rest with
      | ',' :: rest => entries? depth fuel entries (← passLines? false rest)
      | '\x7D' :: rest => return (entries, rest)
      | _ => none

end

def line? (fuel : Nat) (t : Text) : Option (Line × Text) :=
  match t with
  | '[' :: '[' :: t => do
    let (path, key, rest) ← path? t
    match rest with
    | ']' :: ']' :: rest => return (.tablesHeading path key, ← endLine? rest)
    | _ => none
  | '[' :: t => do
    let (path, key, rest) ← path? t
    match rest with
    | ']' :: rest => return (.heading path key, ← endLine? rest)
    | _ => none
  | _ => do
    let (path, key, rest) ← path? t
    match rest with
    | '=' :: rest =>
      let (value, rest) ← value? 0 fuel (passSpace rest)
      return (.entry path key value, ← endLine? rest)
    | _ => none

/-- The lines of a document. Every round takes at least one character. -/
def lines? : (fuel : Nat) → Text → Option (List Line)
  | 0, _ => none
  | fuel + 1, t => do
    match ← passLines? false t with
    | [] => return []
    | t =>
      let (line, rest) ← line? (2 * t.length + 2) t
      return line :: (← lines? fuel rest)

end Reader

/-- The document that a text writes, if it writes one. A byte order mark in front does not
count. -/
def read? (t : Text) : Option Entries := do
  let t := match t with
    | '\uFEFF' :: t => t
    | t => t
  Document.ofLines? (← Reader.lines? (t.length + 1) t)

end DialectBridge.Toml
