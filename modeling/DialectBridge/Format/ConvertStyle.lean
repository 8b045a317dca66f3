import DialectBridge.Unicode.Blank
/-!
# Styles of CONVERT

SQL Server numbers some date formats; each number stands for an Oracle mask.
-/
namespace DialectBridge.ConvertStyle

/-- Oracle masks and the numbers of their styles. -/
def styles : List (String × Nat) := [
  ("MM/DD/YYYY", 101), ("YYYY.MM.DD", 102), ("DD/MM/YYYY", 103), ("DD.MM.YYYY", 104),
  ("DD-MM-YYYY", 105), ("DD MON YYYY", 106), ("MON DD, YYYY", 107), ("HH24:MI:SS", 108),
  ("MM-DD-YYYY", 110), ("YYYY/MM/DD", 111), ("YYYYMMDD", 112), ("YYYY-MM-DD HH24:MI:SS", 120),
  ("YYYY-MM-DD", 23)]

/-- The style of an Oracle mask, in either case and trimmed. -/
def ofMask? (mask : Text) : Option Nat :=
  (styles.find? fun s => Text.sameLetters s.1 (Text.trim mask)).map Prod.snd

def mask? (style : Nat) : Option String := (styles.find? fun s => s.2 == style).map Prod.fst

/-- The number of a style as written in a query: a numeral below 2^16. -/
def readStyle? (t : Text) : Option Nat := Text.readNat? 10 (Nat.pow 2 16) t

end DialectBridge.ConvertStyle
