import DialectBridge.Unicode.Derived
import DialectBridge.Unicode.Script
/-!
# Classes of characters for finding boundaries

A text is cut into user-perceived characters, words and sentences by classes of characters
(Unicode 16). Most of a class follows from categories and properties; the rest is a short list.
-/
namespace DialectBridge.Unicode
open Ranges

def script (name : String) : Ranges := entry scripts name

/-- A class for finding boundaries: its names, and its characters. -/
abbrev BreakClass := List String × (Unit → Ranges)

def breakClass? (classes : List BreakClass) (name : Text) : Option Ranges :=
  (named? classes name).map (· ())

/-- A single character as a class. -/
def just (n : Nat) : Unit → Ranges := fun _ => [(n, n)]

/-- The zero-width joiner and the zero-width non-joiner. -/
def joiners : Ranges := [(0x200C, 0x200D)]

/-- The format characters that are no joiners, stand before nothing and extend nothing. -/
def plainFormats : Ranges :=
  difference (category "cf")
    (.union [joiners, listed "prependedconcatenationmark", graphemeExtend])

def numericMarks : Ranges := [
  (0x600, 0x605), (0x66B, 0x66B), (0x6DD, 0x6DD), (0x890, 0x891), (0x8E2, 0x8E2),
  (0x19DA, 0x19DA), (0x110BD, 0x110BD), (0x110CD, 0x110CD)]

/-! ## User-perceived characters -/

/-- The marks that extend the character before them. -/
def graphemeExtenders : Ranges :=
  difference (.union [graphemeExtend, listed "emojimodifier"]) [(0x200D, 0x200D)]

def graphemeControls : Ranges :=
  let controls :=
    union [anyCategory ["zl", "zp", "cc", "cf"], unassigned.intersection defaultIgnorable]
  controls.difference (.union [[(0xA, 0xA), (0xD, 0xD)], joiners,
    listed "prependedconcatenationmark", graphemeExtend])

/-- The spacing marks that begin a character of their own. -/
def looseMarks : Ranges := [
  (0x102B, 0x102C), (0x1038, 0x1038), (0x1062, 0x1064), (0x1067, 0x106D), (0x1083, 0x1083),
  (0x1087, 0x108C), (0x108F, 0x108F), (0x109A, 0x109C), (0x1A61, 0x1A61), (0x1A63, 0x1A64),
  (0xAA7B, 0xAA7B), (0xAA7D, 0xAA7D), (0x11720, 0x11721)]

/-- The Hangul syllables that end in a vowel. Each is followed by 27 that end in a consonant. -/
def openSyllables : Ranges :=
  (List.range 399).map fun k => (0xAC00 + 28 * k, 0xAC00 + 28 * k)

def graphemeClasses : List BreakClass := [
  (["cr"], just 0xD),
  (["control", "cn"], fun _ => graphemeControls),
  (["extend", "ex"], fun _ => graphemeExtenders),
  (["l"], fun _ => [(0x1100, 0x115F), (0xA960, 0xA97C)]),
  (["lf"], just 0xA),
  (["lv"], fun _ => openSyllables),
  (["lvt"], fun _ => openSyllables.map fun r => (r.1 + 1, r.1 + 27)),
  (["prepend", "pp"], fun _ =>
    .union [listed "prependedconcatenationmark", [
      (0xD4E, 0xD4E), (0x111C2, 0x111C3), (0x113D1, 0x113D1), (0x1193F, 0x1193F),
      (0x11941, 0x11941), (0x11A3A, 0x11A3A), (0x11A84, 0x11A89), (0x11D46, 0x11D46),
      (0x11F02, 0x11F02)]]),
  (["regionalindicator", "ri"], fun _ => listed "regionalindicator"),
  (["spacingmark", "sm"], fun _ =>
    difference (.union [category "mc", [(0xE33, 0xE33), (0xEB3, 0xEB3)]])
      (.union [graphemeExtenders, looseMarks])),
  (["t"], fun _ => [(0x11A8, 0x11FF), (0xD7CB, 0xD7FB)]),
  (["v"], fun _ =>
    [(0x1160, 0x11A7), (0xD7B0, 0xD7C6), (0x16D63, 0x16D63), (0x16D67, 0x16D6A)]),
  (["zwj"], just 0x200D)]

/-! ## Words -/

def hebrewLetters : Ranges := intersection (script "hebr") (category "lo")

def katakana : Ranges :=
  .union [script "kana", [(0x3031, 0x3035), (0x309B, 0x309C), (0x30A0, 0x30A0),
    (0x30FC, 0x30FC), (0xFF70, 0xFF70)]]

def wordExtenders : Ranges :=
  difference (.union [graphemeExtend, category "mc", listed "emojimodifier"]) [(0x200D, 0x200D)]

/-- The letters of scripts that have spaces between words, with the symbols that go with them. -/
def spacedLetters : Ranges :=
  let unspaced := ["hira", "thai", "laoo", "mymr", "khmr", "tale", "talu", "lana", "tavt", "ahom"]
  let others := union
    ([listed "ideographic", katakana, wordExtenders, hebrewLetters] ++ unspaced.map script)
  .union [alphabetic.difference others, [
    (0x2C2, 0x2C5), (0x2D2, 0x2D7), (0x2DE, 0x2DF), (0x2E5, 0x2EB), (0x2ED, 0x2ED),
    (0x2EF, 0x2FF), (0x55A, 0x55C), (0x55E, 0x55E), (0x58A, 0x58A), (0x5F3, 0x5F3),
    (0x70F, 0x70F), (0xA708, 0xA716), (0xA720, 0xA721), (0xA789, 0xA78A), (0xAB5B, 0xAB5B)]]

def wordClasses : List BreakClass := [
  (["aletter", "le"], fun _ => spacedLetters),
  (["cr"], just 0xD),
  (["doublequote", "dq"], just 0x22),
  (["extend"], fun _ => wordExtenders),
  (["extendnumlet", "ex"], fun _ => .union [category "pc", [(0x202F, 0x202F)]]),
  (["format", "fo"], fun _ => plainFormats.difference [(0x200B, 0x200B)]),
  (["hebrewletter", "hl"], fun _ => hebrewLetters),
  (["katakana", "ka"], fun _ => katakana),
  (["lf"], just 0xA),
  (["midletter", "ml"], fun _ => [
    (0x3A, 0x3A), (0xB7, 0xB7), (0x387, 0x387), (0x55F, 0x55F), (0x5F4, 0x5F4),
    (0x2027, 0x2027), (0xFE13, 0xFE13), (0xFE55, 0xFE55), (0xFF1A, 0xFF1A)]),
  (["midnum", "mn"], fun _ => [
    (0x2C, 0x2C), (0x3B, 0x3B), (0x37E, 0x37E), (0x589, 0x589), (0x60C, 0x60D), (0x66C, 0x66C),
    (0x7F8, 0x7F8), (0x2044, 0x2044), (0xFE50, 0xFE50), (0xFE54, 0xFE54), (0xFF0C, 0xFF0C),
    (0xFF1B, 0xFF1B)]),
  (["midnumlet", "mb"], fun _ => [
    (0x2E, 0x2E), (0x2018, 0x2019), (0x2024, 0x2024), (0xFE52, 0xFE52), (0xFF07, 0xFF07),
    (0xFF0E, 0xFF0E)]),
  (["newline", "nl"], fun _ => [(0xB, 0xC), (0x85, 0x85), (0x2028, 0x2029)]),
  (["numeric", "nu"], fun _ => .union [category "nd", numericMarks]),
  (["regionalindicator", "ri"], fun _ => listed "regionalindicator"),
  (["singlequote", "sq"], just 0x27),
  (["wsegspace"], fun _ =>
    difference (category "zs") [(0xA0, 0xA0), (0x2007, 0x2007), (0x202F, 0x202F)]),
  (["zwj"], just 0x200D)]

/-! ## Sentences -/

def sentenceExtenders : Ranges := .union [graphemeExtend, category "mc", [(0x200D, 0x200D)]]

/-- The lowercase characters that can go on with a sentence. -/
def sentenceLower : Ranges :=
  lowercase.difference (.union [graphemeExtend, [(0x10D0, 0x10FA), (0x10FD, 0x10FF)]])

/-- The characters that can begin a sentence. -/
def sentenceUpper : Ranges :=
  difference (.union [category "lt", uppercase]) [(0x1C90, 0x1CBA), (0x1CBD, 0x1CBF)]

/-- The full stops that may also end an abbreviation. -/
def fullStops : Ranges :=
  [(0x2E, 0x2E), (0x2024, 0x2024), (0xFE52, 0xFE52), (0xFF0E, 0xFF0E)]

def paragraphSeparators : Ranges := [(0x85, 0x85), (0x2028, 0x2029)]

def sentenceClasses : List BreakClass := [
  (["aterm", "at"], fun _ => fullStops),
  (["cr"], just 0xD),
  (["close", "cl"], fun _ =>
    .union [anyCategory ["ps", "pe", "pi", "pf"], [
      (0x22, 0x22), (0x27, 0x27), (0x275B, 0x2760), (0x2E00, 0x2E01), (0x2E06, 0x2E08),
      (0x2E0B, 0x2E0B), (0x1F676, 0x1F678)]]),
  (["extend", "ex"], fun _ => sentenceExtenders),
  (["format", "fo"], fun _ => .union [plainFormats, [(0x70F, 0x70F)]]),
  (["lf"], just 0xA),
  (["lower", "lo"], fun _ => sentenceLower),
  (["numeric", "nu"], fun _ => .union [category "nd", numericMarks, [(0x66C, 0x66C)]]),
  (["oletter", "le"], fun _ =>
    difference (.union [alphabetic, [(0x5F3, 0x5F3)]])
      (.union [sentenceLower, sentenceUpper, sentenceExtenders])),
  (["scontinue", "sc"], fun _ => [
    (0x2C, 0x2D), (0x3A, 0x3B), (0x37E, 0x37E), (0x55D, 0x55D), (0x60C, 0x60D), (0x7F8, 0x7F8),
    (0x1802, 0x1802), (0x1808, 0x1808), (0x2013, 0x2014), (0x3001, 0x3001), (0xFE10, 0xFE11),
    (0xFE13, 0xFE14), (0xFE31, 0xFE32), (0xFE50, 0xFE51), (0xFE54, 0xFE55), (0xFE58, 0xFE58),
    (0xFE63, 0xFE63), (0xFF0C, 0xFF0D), (0xFF1A, 0xFF1B), (0xFF64, 0xFF64)]),
  (["sterm", "st"], fun _ => (listed "sentenceterminal").difference fullStops),
  (["sep", "se"], fun _ => paragraphSeparators),
  (["sp"], fun _ =>
    blankRanges.difference (.union [paragraphSeparators, [(0xA, 0xA), (0xD, 0xD)]])),
  (["upper", "up"], fun _ => sentenceUpper)]

end DialectBridge.Unicode
