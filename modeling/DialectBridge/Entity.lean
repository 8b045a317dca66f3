import DialectBridge.Warning
/-!
# Character entities

A query copied out of a web page may hold entities such as `&gt;` and `&#39;`. Decoding reads
each entity once: what it yields is not read again, so `&amp;lt;` becomes `&lt;`.
-/
namespace DialectBridge.Entity
open Pattern

def letters : CharSet := ⟨[(0x41, 0x5A), (0x61, 0x7A)]⟩

def digits : CharSet := ⟨[(0x30, 0x39)]⟩

def hexDigits : CharSet := ⟨[(0x30, 0x39), (0x41, 0x46), (0x61, 0x66)]⟩

/-- An entity; its name or number is group 1. -/
def pattern : Pattern :=
  sym '&' ++
    .group 1 (oneOf [
      sym '#' ++ many1 (one digits),
      sym '#' ++ oneOf [sym 'x', sym 'X'] ++ many1 (one hexDigits),
      many1 (one letters)]) ++
    sym ';'

/-- The named entities. A no-break space counts as a blank, since SQL Server does not take it
for white space. -/
def named : List (String × Char) :=
  [("gt", '>'), ("lt", '<'), ("amp", '&'), ("quot", '"'), ("apos", '\''), ("nbsp", ' ')]

/-- The character that an entity stands for. -/
def decodeName? (name : Text) : Option Char :=
  match name with
  | '#' :: 'x' :: hex => (Text.readNat? 16 (Nat.pow 2 32) hex).bind Text.charOfCode?
  | '#' :: 'X' :: hex => (Text.readNat? 16 (Nat.pow 2 32) hex).bind Text.charOfCode?
  | '#' :: decimal => (Text.readNat? 10 (Nat.pow 2 32) decimal).bind Text.charOfCode?
  | _ => (named.find? fun e => e.1.toList == Text.lower name).map Prod.snd

/-- What an entity found in a text becomes; one that stands for nothing is kept. -/
def decodeMatch (m : Match) : Text :=
  match decodeName? (m.groupD 1) with
  | some c => [c]
  | none => m.text

/-- A query with its entities decoded everywhere but in comments. -/
def decode (sql : Text) : Text := mapOutsideComments (pattern.replaceAllBy decodeMatch) sql

def rule : Rule where
  name := "decode_html_entities"
  apply _ sql := return decode sql

end DialectBridge.Entity
