import PocketCalc.Screen.Style

/-!
# Rows as terminal output

The control sequences that draw rows of cells on a terminal from its upper left corner.
-/

namespace PocketCalc.Screen

/-- The number of a foreground colour in a control sequence; a background has ten more. -/
def Color.code : Color → Nat
  | .reset => 39
  | .black => 30
  | .red => 31
  | .green => 32
  | .yellow => 33
  | .cyan => 36
  | .gray => 37
  | .darkGray => 90
  | .lightGreen => 92
  | .lightMagenta => 95
  | .white => 97

def Look.sequence (l : Look) : Text :=
  let numbers := [0, l.foreground.code, l.background.code + 10] ++
    (if l.bold then [1] else []) ++ (if l.underlined then [4] else [])
  ['\x1b', '['] ++ Text.join [';'] (numbers.map Text.ofNat) ++ ['m']

/-- A row, with a control sequence wherever the look changes. -/
def Row.output (current : Look) : Row → Text
  | [] => []
  | c :: rest =>
    (if c.look = current then [] else c.look.sequence) ++ c.char :: Row.output c.look rest

/-- The control sequence that empties the screen and returns to its upper left corner. -/
def clearScreen : Text :=
  ['\x1b', '[', '2', 'J', '\x1b', '[', 'H']

def draw (rows : List Row) : Text :=
  clearScreen ++ Text.join ['\r', '\n'] (rows.map fun r => Row.output {} r ++ Look.sequence {})

end PocketCalc.Screen
