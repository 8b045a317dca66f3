import DialectBridge.Unicode.Derived
/-!
# Letters and numbers

The alphabetic characters and the numbers as the newest Unicode (17) has them. It only adds to
the characters of Unicode 16, from which the tables of the properties are.
-/
namespace DialectBridge.Unicode
open Ranges

/-- The alphabetic characters that are new. -/
def newLetters : Ranges := .ofText "88F C5C CDC A7CE-A7CF A7D2 A7D4 A7F1 10940-10959 10EC5-10EC7
  10EFA-10EFB 11B60-11B67 11DB0-11DDB 16EA0-16EB8 16EBB-16ED3 16FF2-16FF6 187F8-187FF
  18D09-18D1E 18D80-18DF2 1E6C0-1E6DE 1E6E0-1E6F5 1E6FE-1E6FF 2B73A-2B73F 2CEA2-2CEAD
  323B0-33479"

def newNumbers : Ranges := [(0x11DE0, 0x11DE9), (0x16FF4, 0x16FF6)]

def isAlphabetic (c : Char) : Bool :=
  if c.toNat < 128 then c.isAlpha else alphabetic.contain c || newLetters.contain c

/-- Whether `c` is a number of some kind. -/
def isNumeric (c : Char) : Bool :=
  (anyCategory ["nd", "nl", "no"]).contain c || newNumbers.contain c

def isAlphanumeric (c : Char) : Bool :=
  if c.toNat < 128 then c.isAlphanum else isAlphabetic c || isNumeric c

end DialectBridge.Unicode
