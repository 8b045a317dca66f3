import DialectBridge.Unicode.Ranges
/-!
# White space

The characters with the property White_Space, and the trimming of texts.
-/
namespace DialectBridge.Unicode

def blankRanges : Ranges := [
  (0x9, 0xD), (0x20, 0x20), (0x85, 0x85), (0xA0, 0xA0), (0x1680, 0x1680), (0x2000, 0x200A),
  (0x2028, 0x2029), (0x202F, 0x202F), (0x205F, 0x205F), (0x3000, 0x3000)]

def isBlank (c : Char) : Bool := blankRanges.contain c

end DialectBridge.Unicode

namespace DialectBridge.Text
open Unicode

def trimStart (t : Text) : Text := t.dropWhile isBlank

def trimEnd (t : Text) : Text := dropTrailing isBlank t

/-- `t` without the white space at its two ends. -/
def trim (t : Text) : Text := trimEnd (trimStart t)

end DialectBridge.Text
