import DialectBridge.Unicode.Ranges
/-!
# Characters as sequences of bytes

In UTF-8 a character takes one to four bytes. A range of characters is a union of byte
sequences: in each of them every byte runs over a range of its own. `ByteSequence.ofRange` finds
these sequences, in the order of their characters.
-/
namespace DialectBridge.Regex
open Unicode

/-- Ranges of bytes, one for each byte of a character. -/
abbrev ByteSequence := List (Nat × Nat)

namespace ByteSequence

/-- The bytes of the character with code point `n`. -/
def encode (n : Nat) : List Nat :=
  if n < 0x80 then [n]
  else if n < 0x800 then [0xC0 + n / 0x40, 0x80 + n % 0x40]
  else if n < 0x10000 then [0xE0 + n / 0x1000, 0x80 + n / 0x40 % 0x40, 0x80 + n % 0x40]
  else
    [0xF0 + n / 0x40000, 0x80 + n / 0x1000 % 0x40, 0x80 + n / 0x40 % 0x40, 0x80 + n % 0x40]

/-- Where the last bytes, `m` of their code points, do not run over all their values, a range has
to be cut: behind the first part if it begins in the middle, before the last one if it ends
there. -/
def cutAt? (lo hi m : Nat) : Option Nat :=
  if lo / m = hi / m then none
  else if lo % m ≠ 0 then some (lo / m * m + (m - 1))
  else if hi % m ≠ m - 1 then some (hi / m * m - 1)
  else none

/-- The last code point before the place at which a range has to be cut, if it is not one
sequence. -/
def cut? (lo hi : Nat) : Option Nat :=
  if lo < 0xE000 ∧ 0xD7FF < hi then some 0xD7FF
  else
    match [0x7F, 0x7FF, 0xFFFF].find? fun m => lo ≤ m && m < hi with
    | some m => some m
    | none => if hi < 0x80 then none else [0x40, 0x1000, 0x40000].findSome? (cutAt? lo hi)

/-- The sequences of the characters from `lo` to `hi`. -/
def ofRange (lo hi : Nat) : List ByteSequence :=
  match cut? lo hi with
  | none => [(encode lo).zip (encode hi)]
  | some c =>
    if _h : lo ≤ c ∧ c < hi then ofRange lo c ++ ofRange (Ranges.next c) hi else []
termination_by hi - lo
decreasing_by
  · omega
  · have : c < Ranges.next c := by unfold Ranges.next; split <;> omega
    omega

def ofRanges (r : Ranges) : List ByteSequence := r.flatMap fun s => ofRange s.1 s.2

end ByteSequence
end DialectBridge.Regex
