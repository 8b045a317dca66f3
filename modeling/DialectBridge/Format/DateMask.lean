import DialectBridge.Text.Search
/-!
# Date masks

The two dialects spell date masks with different tokens: `YYYY-MM-DD HH24:MI` on one side and
`yyyy-MM-dd HH:mm` on the other. A mask is read from the left; at each place the first token
of the table that fits is spelled anew, and a character that starts no token is kept.
-/
namespace DialectBridge.DateMask

/-- Oracle tokens and .NET tokens. A longer token stands before one that begins it. -/
def oracleTokens : List (String × String) := [
  ("YYYY", "yyyy"), ("MONTH", "MMMM"), ("HH24", "HH"), ("HH12", "hh"), ("YYY", "yyy"),
  ("MON", "MMM"), ("DAY", "dddd"), ("FF3", "fff"), ("YY", "yy"), ("MM", "MM"), ("DY", "ddd"),
  ("DD", "dd"), ("HH", "hh"), ("MI", "mm"), ("SS", "ss"), ("FF", "fffffff"), ("AM", "tt"),
  ("PM", "tt"), ("FM", "")]

/-- .NET tokens and Oracle tokens. Here `MM` is the month and `mm` the minute. -/
def netTokens : List (String × String) := [
  ("yyyy", "YYYY"), ("MMMM", "MONTH"), ("dddd", "DAY"), ("fffffff", "FF"), ("yyy", "YYY"),
  ("MMM", "MON"), ("ddd", "DY"), ("fff", "FF3"), ("yy", "YY"), ("MM", "MM"), ("dd", "DD"),
  ("HH", "HH24"), ("hh", "HH12"), ("mm", "MI"), ("ss", "SS"), ("tt", "AM")]

/-- Whether `t` begins with `token`, up to the case of letters if `fold`. -/
def begins (fold : Bool) (token t : Text) : Bool :=
  let head := t.take token.length
  if fold then Text.sameLetters token head else token == head

/-- Spells the tokens of a mask anew; `skip` characters belong to a token already read. -/
def respellFrom (tokens : List (String × String)) (fold : Bool) : Nat → Text → Text
  | _, [] => []
  | skip + 1, _ :: t => respellFrom tokens fold skip t
  | 0, c :: t =>
    match tokens.find? fun token => begins fold token.1 (c :: t) with
    | some (token, new) => new ++ respellFrom tokens fold (token.length - 1) t
    | none => c :: respellFrom tokens fold 0 t

/-- The .NET mask for an Oracle mask, whose tokens may be written in either case. -/
def toNet (t : Text) : Text := respellFrom oracleTokens true 0 t

def toOracle (t : Text) : Text := respellFrom netTokens false 0 t

end DialectBridge.DateMask
