import PocketCalc.Screen.Style

/-!
# Highlighting an expression

An expression is shown as spans: numbers in one style, operators in another, the equals sign in a
third, spaces plain, and every other character in the style of its surroundings.
-/

namespace PocketCalc.Panel

open Screen

/-- A part of an expression: a whole run of digits and points, or one other character. -/
inductive Piece where
  | number (digits : Text)
  | symbol (c : Char)
deriving DecidableEq, Repr

/-- Whether a character belongs to a number. -/
def isNumeric (c : Char) : Bool :=
  c.isDigit || c == '.'

/-- The parts of an expression, in order. -/
def pieces : Text → List Piece
  | [] => []
  | c :: rest =>
    if isNumeric c then
      match pieces rest with
      | .number digits :: more => .number (c :: digits) :: more
      | more => .number [c] :: more
    else
      .symbol c :: pieces rest

def numberStyle : Style :=
  .colored .lightGreen

def operatorStyle : Style :=
  .strong .yellow

def equalsStyle : Style :=
  .colored .gray

/-- The style of a character outside numbers, within surroundings of the given style. -/
def symbolStyle (base : Style) (c : Char) : Style :=
  if c = '+' ∨ c = '-' ∨ c = '*' ∨ c = '/' then operatorStyle
  else if c = '=' then equalsStyle
  else if c = ' ' then .plain
  else base

def Piece.span (base : Style) : Piece → Span
  | .number digits => ⟨digits, numberStyle⟩
  | .symbol c => ⟨[c], symbolStyle base c⟩

/-- The spans of an expression, within surroundings of the given style (`highlight_expression`). -/
def highlight (base : Style) (expression : Text) : Line :=
  (pieces expression).map (Piece.span base)

end PocketCalc.Panel
