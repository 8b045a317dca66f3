import DialectBridge.Text.Basic
/-!
# Texts without the control sequences of a terminal

A control sequence begins with an escape character and tells a terminal how to show what follows.
Output that does not go to a terminal leaves these sequences out, and also the other control
characters but line ends, tabs and form feeds. `plain_of_all_isPlain` says that nothing else is
left out.
-/
namespace DialectBridge.Terminal

/-- Where in a control sequence a text stands. -/
inductive Mode where
  /-- In none. -/
  | outside
  /-- After an escape character. -/
  | escape
  /-- After an escape character and some blanks or signs. -/
  | escapeSigns
  /-- In a sequence of parameters, which the first letter ends. -/
  | parameters
  /-- In the head of a string for a device, before, in and after its parameters. -/
  | device
  | deviceParameters
  | deviceSigns
  /-- In a string for a device, which the byte `9C` ends. -/
  | string
  /-- In a command to the system, which a bell ends. -/
  | command
  deriving DecidableEq, Repr

/-- Whether `c` ends a line or moves to the right or to a new page. -/
def isSpacing (c : Char) : Bool := c == '\t' || c == '\n' || c == '\x0C' || c == '\r'

/-- Whether `c` is shown wherever it does not belong to a control sequence. -/
def isPlain (c : Char) : Bool := isSpacing c || (' ' ≤ c && c != '\x7F')

/-- Whether one of the bytes of `c` after the first one is `9C`. -/
def hasEndByte (c : Char) : Bool := (String.utf8EncodeChar c).tail.contains 0x9C

namespace Mode

def after (m : Mode) (c : Char) : Mode :=
  if c = '\x1B' then escape
  else if c = '\x18' ∨ c = '\x1A' then outside
  else if c < ' ' then if m = command ∧ c = '\x07' then outside else m
  else if c = '\x7F' then m
  else if '\x7F' < c then if m = string ∧ hasEndByte c then outside else m
  else
    match m with
    | outside => outside
    | escape =>
      if c < '0' then escapeSigns
      else match c with
        | '[' => parameters
        | ']' => command
        | 'P' => device
        | 'X' | '^' | '_' => string
        | _ => outside
    | escapeSigns => if c < '0' then escapeSigns else outside
    | parameters => if c < '@' then parameters else outside
    | device | deviceParameters =>
      if c < '0' then deviceSigns
      else if c < '@' then if m = deviceParameters ∧ '<' ≤ c then string else deviceParameters
      else string
    | deviceSigns => if c < '0' then deviceSigns else string
    | string => string
    | command => command

/-- Whether the character `c` is shown. Some spacing is shown in the middle of a sequence. -/
def shows (m : Mode) (c : Char) : Bool :=
  match m with
  | outside => isPlain c
  | escape | escapeSigns | parameters => isSpacing c
  | _ => false

end Mode

/-- The characters of a text that are shown, in a control sequence or none. After a character
that is shown (`showing`) all is, up to the next control character; what that is depends on the
sequence that has not come to its end before. -/
def plainFrom : (showing : Bool) → Mode → Text → Text
  | _, _, [] => []
  | showing, m, c :: t =>
    if showing && isPlain c || m.shows c then
      c :: plainFrom true (if '\x7F' < c then .outside else m) t
    else plainFrom false (m.after c) t

def plain (t : Text) : Text := plainFrom false .outside t

theorem plain_of_all_isPlain {t : Text} (h : t.all isPlain = true) : plain t = t := by
  have key : ∀ showing, plainFrom showing .outside t = t := by
    induction t with
    | nil => intro _; rfl
    | cons c t ih =>
      intro showing
      simp only [List.all_cons, Bool.and_eq_true] at h
      simp [plainFrom, Mode.shows, h.1, ih h.2]
  exact key false

end DialectBridge.Terminal
