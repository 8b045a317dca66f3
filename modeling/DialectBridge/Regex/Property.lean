import DialectBridge.Pattern.CharSet
import DialectBridge.Unicode.Age
import DialectBridge.Unicode.Break
/-!
# Properties of characters in regular expressions

A property is named as in `\p{Greek}` or `\p{Script=Greek}`. Names are compared loosely: case,
blanks, `_`, `-` and a leading `is` do not count.
-/
namespace DialectBridge.Regex
open Unicode

/-- What a property is asked for: a name alone, or a name and a value. -/
inductive PropertyQuery where
  | named (name : Text)
  | valued (name value : Text)
  deriving DecidableEq, Repr

namespace PropertyQuery

/-- The text before the first `!=` and the text after it, if there is one. -/
def cutNotEqual? : Text → Option (Text × Text)
  | '!' :: '=' :: t => some ([], t)
  | c :: t => (cutNotEqual? t).map fun (before, after) => (c :: before, after)
  | [] => none

/-- The query written between the braces of a property: a name, or a name and a value with `=`,
`:` or `!=` between them. The last one asks for all other characters, as the flag says. -/
def ofText (t : Text) : PropertyQuery × Bool :=
  let cutAt (c : Char) : PropertyQuery :=
    let name := t.takeWhile (· != c)
    valued name (t.drop (name.length + 1))
  match cutNotEqual? t with
  | some (name, value) => (valued name value, true)
  | none =>
    if t.contains ':' then (cutAt ':', false)
    else if t.contains '=' then (cutAt '=', false)
    else (named t, false)

def plain (t : Text) : Text :=
  let keep (t : Text) : Text :=
    (Text.lower t).filter fun c => c.toNat < 128 && c != ' ' && c != '_' && c != '-'
  if (Text.lower (t.take 2)) = "is".toList then
    let rest := keep (t.drop 2)
    if rest = ['c'] then "isc" else rest
  else keep t

def script? (name : Text) : Option Ranges := (named? scripts name).map .ofText

def scriptExtensions? (name : Text) : Option Ranges := do
  let (names, own) ← scripts.find? fun e => e.1.any (·.toList == name)
  let all := (scriptExtensions.find? fun e => e.1 = names.headD "").map Prod.snd
  return .ofText (all.getD own)

/-- The properties that have values: their names, and the characters that have a value. -/
def valuedProperties : List (List String × (Text → Option Ranges)) := [
  (["generalcategory", "gc"], category?),
  (["script", "sc"], script?),
  (["scriptextensions", "scx"], scriptExtensions?),
  (["age"], age?),
  (["graphemeclusterbreak", "gcb"], breakClass? graphemeClasses),
  (["wordbreak", "wb"], breakClass? wordClasses),
  (["sentencebreak", "sb"], breakClass? sentenceClasses)]

/-- The characters that a property stands for. A name alone is that of a property, a general
category or a script. -/
def set? (q : PropertyQuery) : Option CharSet :=
  match q with
  | named name =>
    let n := plain name
    (((property? n).or (category? n)).or (script? n)).map CharSet.mk
  | valued name value => do
    let values ← named? valuedProperties (plain name)
    return ⟨← values (plain value)⟩

end PropertyQuery
end DialectBridge.Regex
