import DialectBridge.Text.Plain
/-!
# Texts in bold and in color

A control sequence in front of a text switches its style on, and another one behind it switches
every style off. An output that shows no styles leaves out these sequences; of a text without
control characters it then shows just the text (`plain_paint`).
-/
namespace DialectBridge.Terminal

inductive Color where
  | red
  | green
  | yellow
  | blue
  | cyan
  | gray
  deriving DecidableEq, Repr

/-- The control sequence that switches a color on. -/
def Color.sequence : Color → Text
  | red => "\x1b[31m"
  | green => "\x1b[32m"
  | yellow => "\x1b[33m"
  | blue => "\x1b[34m"
  | cyan => "\x1b[36m"
  | gray => "\x1b[90m"

structure Style where
  bold : Bool
  color : Option Color
  deriving DecidableEq, Repr

namespace Style

def colored (c : Color) : Style := ⟨false, some c⟩

def strong (c : Color) : Style := ⟨true, some c⟩

/-- Bold in the usual color. -/
def bolder : Style := ⟨true, none⟩

/-- The control sequences that switch a style on. -/
def sequences (s : Style) : Text :=
  (if s.bold then "\x1b[1m".toList else []) ++ (s.color.map Color.sequence).getD []

end Style

def paint (s : Style) (t : Text) : Text := s.sequences ++ t ++ "\x1b[0m"

/-- A text as an output shows it that shows styles or does not. -/
def display (styled : Bool) (t : Text) : Text := if styled then t else plain t

/-- Whether an output that is no terminal shows styles. The variable that forbids colors goes
before the one that forces them; each counts when it is not empty. -/
def isStyled (forbid force : Option Text) : Bool :=
  (forbid.getD []).isEmpty && !(force.getD []).isEmpty

theorem plain_sequences_append (s : Style) (t : Text) : plain (s.sequences ++ t) = plain t := by
  obtain ⟨bold, color⟩ := s
  cases bold <;> rcases color with _ | color <;> try cases color
  all_goals rfl

theorem plainFrom_append_sequence {t : Text} (h : t.all isPlain = true) (showing : Bool) :
    plainFrom showing .outside (t ++ "\x1b[0m") = t := by
  induction t generalizing showing with
  | nil => cases showing <;> rfl
  | cons c t ih =>
    simp only [List.all_cons, Bool.and_eq_true] at h
    simpa [plainFrom, Mode.shows, h.1] using ih h.2 true

/-- Where no styles are shown, a painted text is the text. -/
theorem plain_paint (s : Style) {t : Text} (h : t.all isPlain = true) :
    plain (paint s t) = t := by
  rw [paint, List.append_assoc, plain_sequences_append]
  exact plainFrom_append_sequence h false

end DialectBridge.Terminal
