import PocketCalc.Screen.Style

/-!
# Frames

A frame is a border of line-drawing characters around rows of cells, with a title centred on its
upper edge. Where a frame has a single row or column, the corners of the upper and left edges take
precedence.
-/

namespace PocketCalc.Screen

structure Border where
  topLeft : Char
  topRight : Char
  bottomLeft : Char
  bottomRight : Char
  horizontal : Char
  vertical : Char
deriving DecidableEq, Repr

def Border.single : Border :=
  ⟨'┌', '┐', '└', '┘', '─', '│'⟩

def Border.double : Border :=
  ⟨'╔', '╗', '╚', '╝', '═', '║'⟩

/-- A horizontal edge of the given width between two corners. -/
def edge (left middle right : Char) (columns : Nat) : Text :=
  match columns with
  | 0 => []
  | 1 => [left]
  | n + 2 => left :: List.replicate n middle ++ [right]

/-- The upper edge with a title over its middle. The title has as much room as the edge has between
its corners. -/
def titledEdge (b : Border) (title : Text) (columns : Nat) : Text :=
  let shown := title.take (columns - 2)
  let offset := (columns - title.length) / 2
  let plain := edge b.topLeft b.horizontal b.topRight columns
  plain.take offset ++ shown ++ plain.drop (offset + shown.length)

/-- A row of the frame: a row of the inside between two sides. -/
def side (b : Border) (look : Look) (columns : Nat) (inside : Row) : Row :=
  match columns with
  | 0 => []
  | 1 => [⟨b.vertical, look⟩]
  | _ => ⟨b.vertical, look⟩ :: inside ++ [⟨b.vertical, look⟩]

/-- The frame of the given size around rows that are two cells narrower, two rows fewer. -/
def frame (b : Border) (look : Look) (title : Text) (columns rows : Nat) (inside : List Row) :
    List Row :=
  let top := (titledEdge b title columns).map fun c => ⟨c, look⟩
  let bottom := (edge b.bottomLeft b.horizontal b.bottomRight columns).map fun c => ⟨c, look⟩
  match rows with
  | 0 => []
  | 1 => [top]
  | _ => top :: inside.map (side b look columns) ++ [bottom]

end PocketCalc.Screen
