import DialectBridge.Unicode.Blank
import DialectBridge.Unicode.Category
import DialectBridge.Unicode.Property
/-!
# Categories and properties by name

Some properties follow from others: a lowercase character, for instance, is one of category Ll
or has the property Other_Lowercase. `category?` and `property?` give the characters of a
category or property of either kind.
-/
namespace DialectBridge.Unicode
open Ranges

/-- The characters of a table under one of its names; none if the table lacks the name. -/
def entry (table : List (List String × String)) (name : String) : Ranges :=
  .ofText ((named? table name.toList).getD "")

def category (name : String) : Ranges := entry categories name

/-- The characters of one property that is given by a list. -/
def listed (name : String) : Ranges := entry properties name

def anyCategory (names : List String) : Ranges := .union (names.map category)

/-- The code points that are no characters at all. -/
def surrogates : Ranges := [(0xD800, 0xDFFF)]

/-- The characters of some category. -/
def assigned : Ranges := .union (categories.map fun c => .ofText c.2)

def unassigned : Ranges := assigned.complement

/-- The characters of a general category, or of a group of them. -/
def category? (name : Text) : Option Ranges :=
  let is (s : String) : Bool := s.toList == name
  if is "any" then some [(0, 0x10FFFF)]
  else if is "assigned" then some unassigned.complement
  else if is "ascii" then some [(0, 0x7F)]
  else if is "cn" || is "unassigned" then some unassigned
  else if is "c" || is "other" then
    some (.union [anyCategory ["cc", "cf", "co"], surrogates, unassigned])
  else match named? categoryGroups name with
    | some members => some (anyCategory members)
    | none => (named? categories name).map .ofText

/-! ## What follows from other properties -/

def uppercase : Ranges := .union [category "lu", listed "otheruppercase"]

def lowercase : Ranges := .union [category "ll", listed "otherlowercase"]

def alphabetic : Ranges :=
  .union [uppercase, lowercase, anyCategory ["lt", "lm", "lo", "nl"], listed "otheralphabetic"]

/-- The characters that extend the one before them. -/
def graphemeExtend : Ranges := .union [anyCategory ["me", "mn"], listed "othergraphemeextend"]

/-- The format characters that can be ignored where they cannot be shown. -/
def defaultIgnorable : Ranges :=
  let candidates :=
    union [listed "otherdefaultignorablecodepoint", category "cf", listed "variationselector"]
  let shown := union [blankRanges, [(0xFFF9, 0xFFFB)], [(0x13430, 0x13440)],
    listed "prependedconcatenationmark"]
  candidates.difference shown

/-- The characters of the syntax of patterns. -/
def patternCharacters : Ranges := .union [listed "patternsyntax", listed "patternwhitespace"]

def identifierStart : Ranges :=
  difference (.union [anyCategory ["lu", "ll", "lt", "lm", "lo", "nl"], listed "otheridstart"])
    patternCharacters

def identifierContinue : Ranges :=
  difference
    (.union [identifierStart, anyCategory ["mn", "mc", "nd", "pc"], listed "otheridcontinue"])
    patternCharacters

/-- Characters of identifiers whose compatibility forms do not all belong in identifiers. -/
def unstableIdentifiers : Ranges := [
  (0x37A, 0x37A), (0x309B, 0x309C), (0xFC5E, 0xFC63), (0xFDFA, 0xFDFB), (0xFE70, 0xFE70),
  (0xFE72, 0xFE72), (0xFE74, 0xFE74), (0xFE76, 0xFE76), (0xFE78, 0xFE78), (0xFE7A, 0xFE7A),
  (0xFE7C, 0xFE7C), (0xFE7E, 0xFE7E)]

/-- Characters whose compatibility forms can stand in an identifier, but not begin one. -/
def unstableStarts : Ranges := [
  (0xE33, 0xE33), (0xEB3, 0xEB3), (0xFF9E, 0xFF9F)]

/-- The characters in the middle of a word, between letters or between letters and digits. -/
def midWord : Ranges := [
  (0x27, 0x27), (0x2E, 0x2E), (0x3A, 0x3A), (0xB7, 0xB7), (0x387, 0x387), (0x55F, 0x55F),
  (0x5F4, 0x5F4), (0x2018, 0x2019), (0x2024, 0x2024), (0x2027, 0x2027), (0xFE13, 0xFE13),
  (0xFE52, 0xFE52), (0xFE55, 0xFE55), (0xFF07, 0xFF07), (0xFF0E, 0xFF0E), (0xFF1A, 0xFF1A)]

/-- The code points that are set aside for ever: two at the end of each plane, and some more. -/
def noncharacters : Ranges :=
  (0xFDD0, 0xFDEF) :: (List.range 17).map fun plane =>
    (0x10000 * plane + 0xFFFE, 0x10000 * plane + 0xFFFF)

/-- Each property that follows from others: its names and its characters. -/
def derivedProperties : List (List String × (Unit → Ranges)) := [
  (["alphabetic", "alpha"], fun _ => alphabetic),
  (["caseignorable", "ci"], fun _ => .union [anyCategory ["mn", "me", "cf", "lm", "sk"], midWord]),
  (["cased"], fun _ => .union [uppercase, lowercase, category "lt"]),
  (["changeswhencasemapped", "cwcm"], fun _ =>
    .union [listed "changeswhenlowercased", listed "changeswhentitlecased",
      listed "changeswhenuppercased"]),
  (["defaultignorablecodepoint", "di"], fun _ => defaultIgnorable),
  (["graphemebase", "grbase"], fun _ =>
    difference assigned (.union [anyCategory ["cc", "cf", "co", "zl", "zp"], graphemeExtend])),
  (["graphemeextend", "grext"], fun _ => graphemeExtend),
  (["hexdigit", "hex"], fun _ =>
    let ascii := listed "asciihexdigit"
    .union [ascii, ascii.map fun r => (r.1 + 0xFEE0, r.2 + 0xFEE0)]),
  (["idcontinue", "idc"], fun _ => identifierContinue),
  (["idstart", "ids"], fun _ => identifierStart),
  (["lowercase", "lower"], fun _ => lowercase),
  (["math"], fun _ => .union [category "sm", listed "othermath"]),
  (["noncharactercodepoint", "nchar"], fun _ => noncharacters),
  (["uppercase", "upper"], fun _ => uppercase),
  (["whitespace", "space", "wspace"], fun _ => blankRanges),
  (["xidcontinue", "xidc"], fun _ => identifierContinue.difference unstableIdentifiers),
  (["xidstart", "xids"], fun _ =>
    identifierStart.difference (.union [unstableIdentifiers, unstableStarts]))]

/-- The characters of a property that a character has or lacks. -/
def property? (name : Text) : Option Ranges :=
  ((named? properties name).map .ofText).or ((named? derivedProperties name).map (· ()))

end DialectBridge.Unicode
