import DialectBridge.Text.Number
/-!
# Dates and times in a TOML document

A date `1979-05-27`, a time `07:32:00.5`, or both with a `T` or a blank between them and perhaps
an offset from universal time behind. The seconds may be left out.
-/
namespace DialectBridge.Toml.DateTime

/-- Two digits at the front that make a number between `least` and `most`, and the text after
them. -/
def pair? (least most : Nat) : Text → Option (Nat × Text)
  | a :: b :: t => do
    let n ← Text.readDigits 10 0 [a, b]
    if least ≤ n ∧ n ≤ most then some (n, t) else none
  | _ => none

def pass? (c : Char) : Text → Option Text
  | d :: t => if c = d then some t else none
  | [] => none

def monthDays (year month : Nat) : Nat :=
  if month = 2 then
    if year % 4 = 0 ∧ (year % 100 ≠ 0 ∨ year % 400 = 0) then 29 else 28
  else if month = 4 ∨ month = 6 ∨ month = 9 ∨ month = 11 then 30
  else 31

def passDate? (t : Text) : Option Text := do
  let (century, t) ← pair? 0 99 t
  let (year, t) ← pair? 0 99 t
  let (month, t) ← pair? 1 12 (← pass? '-' t)
  let (_, t) ← pair? 1 (monthDays (100 * century + year) month) (← pass? '-' t)
  return t

/-- Passes a time of day. A minute may have a leap second. -/
def passTime? (t : Text) : Option Text := do
  let (_, t) ← pair? 0 23 t
  let (_, t) ← pair? 0 59 (← pass? ':' t)
  match t with
  | ':' :: t =>
    let (_, t) ← pair? 0 60 t
    match t with
    | '.' :: t =>
      let digits := t.takeWhile Char.isDigit
      if digits.isEmpty then none else some (t.drop digits.length)
    | _ => return t
  | _ => return t

def passOffset? : Text → Option Text
  | [] => some []
  | c :: t =>
    if c = 'Z' ∨ c = 'z' then some t
    else if c = '+' ∨ c = '-' then do
      let (_, t) ← pair? 0 23 t
      let (_, t) ← pair? 0 59 (← pass? ':' t)
      return t
    else none

/-- Whether a text is a date, a time or both. -/
def isDateTime (t : Text) : Bool :=
  match passDate? t with
  | none => passTime? t == some []
  | some [] => true
  | some (c :: t) =>
    (c == 'T' || c == 't' || c == ' ') && ((passTime? t).bind passOffset?) == some []

/-- Whether a text has the form of a date, so that a time may follow after a blank. -/
def looksLikeDate (t : Text) : Bool :=
  t.map (fun c => if c.isDigit then '0' else c) == "0000-00-00".toList

end DialectBridge.Toml.DateTime
