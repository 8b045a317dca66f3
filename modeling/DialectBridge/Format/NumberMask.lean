import DialectBridge.Text.Basic
/-!
# Number masks

A number mask is made of placeholders for digits, group and decimal marks. Oracle writes `9`
for an optional digit where .NET writes `#`; `FM` in front drops the padding.
-/
namespace DialectBridge.NumberMask

/-- The mask without `FM` or `fm` in front. -/
def withoutFillMode (t : Text) : Text :=
  match t with
  | 'F' :: 'M' :: rest => rest
  | 'f' :: 'm' :: rest => rest
  | _ => t

/-- Whether `c` can stand in an Oracle number mask. -/
def isOracleChar (c : Char) : Bool := c == '9' || c == '0' || c == ',' || c == '.' || c == '$'

def isNetChar (c : Char) : Bool := c == '#' || c == '0' || c == ',' || c == '.'

/-- Whether an Oracle mask is a number mask: placeholders only, one of them a digit. -/
def isOracle (t : Text) : Bool :=
  let body := withoutFillMode t
  body.any (fun c => c == '9' || c == '0') && body.all isOracleChar

/-- Whether a .NET mask is a number mask: placeholders only, one of them a digit. -/
def isNet (t : Text) : Bool := t.any (fun c => c == '#' || c == '0') && t.all isNetChar

def toNet (t : Text) : Text := (withoutFillMode t).map fun c => if c = '9' then '#' else c

def toOracle (t : Text) : Text := "FM" ++ t.map fun c => if c = '#' then '9' else c

end DialectBridge.NumberMask
