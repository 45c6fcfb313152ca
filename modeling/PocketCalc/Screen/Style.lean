import PocketCalc.Text.Basic

/-!
# Styles and cells

A cell of the screen holds one character in one look. A style says which attributes of a look
change and leaves the others as they are.
-/

namespace PocketCalc.Screen

/-- A terminal colour; `reset` is the terminal's own. -/
inductive Color where
  | reset
  | black
  | red
  | green
  | yellow
  | cyan
  | gray
  | darkGray
  | lightGreen
  | lightMagenta
  | white
deriving DecidableEq, Repr

structure Look where
  foreground : Color := .reset
  background : Color := .reset
  bold : Bool := false
  underlined : Bool := false
deriving DecidableEq, Repr

/-- A change of look. -/
structure Style where
  foreground : Option Color := none
  background : Option Color := none
  bold : Bool := false
  underlined : Bool := false
deriving DecidableEq, Repr

def Style.apply (s : Style) (l : Look) : Look where
  foreground := s.foreground.getD l.foreground
  background := s.background.getD l.background
  bold := s.bold || l.bold
  underlined := s.underlined || l.underlined

def Style.plain : Style :=
  {}

def Style.colored (c : Color) : Style :=
  { foreground := some c }

/-- The style that sets a foreground colour and bold. -/
def Style.strong (c : Color) : Style :=
  { foreground := some c, bold := true }

@[simp] theorem Style.apply_plain (l : Look) : Style.plain.apply l = l := by
  cases l
  simp [Style.apply, Style.plain]

structure Cell where
  char : Char := ' '
  look : Look := {}
deriving DecidableEq, Repr

/-- A row of cells. -/
abbrev Row := List Cell

def Row.text (r : Row) : Text :=
  r.map Cell.char

def Row.blank (look : Look) (n : Nat) : Row :=
  List.replicate n ⟨' ', look⟩

/-- A piece of text in one style. -/
structure Span where
  text : Text
  style : Style
deriving DecidableEq, Repr

abbrev StyledChar := Char × Style

def Span.chars (s : Span) : List StyledChar :=
  s.text.map fun c => (c, s.style)

abbrev Line := List Span

def Line.chars (l : Line) : List StyledChar :=
  l.flatMap Span.chars

end PocketCalc.Screen
