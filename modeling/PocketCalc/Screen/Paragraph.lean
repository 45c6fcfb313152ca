import PocketCalc.Screen.Style

/-!
# Lines on rows

A line is laid on a row of cells: cut at the row's width, moved to its place by the alignment, and
written over the look that the row already has. `length_lay` says that the row stays full. Lines can
be scrolled away above the area, as far as the rows down to its lower end can be counted in 16 bits.
-/

namespace PocketCalc.Screen

/-- Where on its row a line is written. -/
inductive Alignment where
  | left
  | center
  | right
deriving DecidableEq, Repr

/-- The columns left free in front of a line of the given length. The two halves of a centred line
are rounded down separately. -/
def Alignment.offset (a : Alignment) (columns length : Nat) : Nat :=
  match a with
  | .left => 0
  | .center => columns / 2 - length / 2
  | .right => columns - length

/-- The row of the given width that shows a line on a ground. -/
def lay (ground : Look) (columns : Nat) (a : Alignment) (line : List StyledChar) : Row :=
  let shown := (line.take columns).map fun (c, style) => (⟨c, style.apply ground⟩ : Cell)
  let offset := a.offset columns shown.length
  Row.blank ground offset ++ shown ++ Row.blank ground (columns - offset - shown.length)

/-- The rows of a paragraph in the given area: one line to a row from the top, empty rows below. -/
def paragraph (ground : Look) (columns rows : Nat) (a : Alignment)
    (lines : List (List StyledChar)) : List Row :=
  let shown := (lines.take rows).map (lay ground columns a)
  shown ++ List.replicate (rows - shown.length) (Row.blank ground columns)

/-- Whether the count of the rows down to the lower end of an area overflows, the rows scrolled away
above it included. They are counted as soon as a line is written, and an empty area has room for
none. -/
def rowsOverflow (columns rows scrolled : Nat) : Bool :=
  0 < columns && 0 < rows && UInt16.size ≤ scrolled + rows

/-- The rows of a paragraph whose first lines are scrolled away (`render_text`). The overflow of the
count aborts the drawing. -/
def scrolledParagraph (ground : Look) (columns rows scrolled : Nat) (a : Alignment)
    (lines : List (List StyledChar)) : Option (List Row) :=
  if rowsOverflow columns rows scrolled then none
  else some (paragraph ground columns rows a (lines.drop scrolled))

theorem length_lay (ground : Look) (columns : Nat) (a : Alignment) (line : List StyledChar) :
    (lay ground columns a line).length = columns := by
  simp only [lay, Row.blank, List.length_append, List.length_replicate, List.length_map,
    List.length_take]
  cases a <;> simp only [Alignment.offset] <;> omega

theorem length_paragraph (ground : Look) (columns rows : Nat) (a : Alignment)
    (lines : List (List StyledChar)) : (paragraph ground columns rows a lines).length = rows := by
  simp only [paragraph, List.length_append, List.length_map, List.length_take,
    List.length_replicate]
  omega

end PocketCalc.Screen
