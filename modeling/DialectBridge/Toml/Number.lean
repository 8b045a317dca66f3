import DialectBridge.Text.Number
/-!
# Numbers in a TOML document

Whole numbers are written in the bases 10, 16, 8 and 2, other numbers with a point or an
exponent; digits may have underscores between them. Whole numbers have at most 128 bits, and
other numbers must not exceed the largest number of double precision.
-/
namespace DialectBridge.Toml.Number

/-- The digits of the given base in a text that holds nothing else but underscores, each of them
between two digits. `afterDigit` says that a digit stands in front. -/
def digits? (base : Nat) : (afterDigit : Bool) → Text → Option Text
  | afterDigit, [] => if afterDigit then some [] else none
  | afterDigit, c :: t =>
    if c = '_' then if afterDigit then digits? base false t else none
    else if (Text.digitValue? base c).isSome then (digits? base true t).map (c :: ·)
    else none

/-- The decimal digits in a text, which must not begin with a zero unless this is all. -/
def plain? (t : Text) : Option Text := do
  let ds ← digits? 10 false t
  match ds with
  | '0' :: _ :: _ => none
  | _ => return ds

/-- A text without its sign, and whether it is negative. -/
def unsigned : Text → Bool × Text
  | '+' :: t => (false, t)
  | '-' :: t => (true, t)
  | t => (false, t)

/-- Whether a text is a whole number in the base 10. -/
def isDecimal (t : Text) : Bool :=
  let (negative, body) := unsigned t
  match (plain? body).bind (Text.readDigits 10 0) with
  | none => false
  | some n => if negative then n ≤ Nat.pow 2 127 else n < Nat.pow 2 128

/-- Whether a text is a whole number in another base. -/
def isBased (t : Text) : Bool :=
  let fits (base : Nat) (t : Text) : Bool :=
    ((digits? base false t).bind (Text.readDigits base 0)).any (· < Nat.pow 2 128)
  match t with
  | '0' :: 'x' :: t => fits 16 t
  | '0' :: 'o' :: t => fits 8 t
  | '0' :: 'b' :: t => fits 2 t
  | _ => false

/-- Whether `n` times ten to the power of `e` rounds to a finite number of double precision. -/
def isFinite (n : Nat) (e : Int) : Bool :=
  let size := (Nat.toDigits 10 n).length
  if n = 0 ∨ size + e < 300 then true
  else if 320 < size + e then false
  else
    let limit := Nat.pow 2 1024 - Nat.pow 2 970
    if 0 ≤ e then n * Nat.pow 10 e.toNat < limit else n < limit * Nat.pow 10 e.natAbs

def isFraction (t : Text) : Bool :=
  let (_, body) := unsigned t
  let isExponent (c : Char) : Bool := c == 'e' || c == 'E'
  let mantissa := body.takeWhile fun c => !isExponent c
  let power := body.drop (mantissa.length + 1)
  let whole := mantissa.takeWhile (· != '.')
  let part := mantissa.drop (whole.length + 1)
  let hasPart := whole.length < mantissa.length
  let hasPower := mantissa.length < body.length
  let (negative, power) := unsigned power
  let read : Option Bool := do
    let wholeDigits ← plain? whole
    let partDigits ← if hasPart then digits? 10 false part else some []
    let powerDigits ← if hasPower then digits? 10 false power else some []
    let n ← Text.readDigits 10 0 (wholeDigits ++ partDigits)
    let p ← Text.readDigits 10 0 powerDigits
    return isFinite n ((if negative then -(p : Int) else p) - partDigits.length)
  (hasPart || hasPower) && read.getD false

/-- Whether a text is an infinity or no number. -/
def isSpecial (t : Text) : Bool :=
  let (_, body) := unsigned t
  body == "inf".toList || body == "nan".toList

def isNumber (t : Text) : Bool := isDecimal t || isBased t || isFraction t || isSpecial t

end DialectBridge.Toml.Number
