/-!
# Wrapping a line at its spaces

A line that is too long for its area is broken between words; a word longer than a row is broken
where the row ends. Spaces at the beginning of a row are dropped. When a row is full, the spaces
waiting behind it are dropped as far as they would have fitted on it, and one more.

Filling a row keeps three runs apart: what is on the row already, the gap of spaces behind it, and
the word that is growing behind the gap.
-/

namespace PocketCalc.Screen

/-- The rows finished so far and the one being filled. -/
structure Filling (β : Type) where
  finished : List (List β)
  row : List β
  gap : List β
  word : List β
  /-- Whether the latest character belongs to a word. -/
  inWord : Bool

namespace Filling

variable {β : Type} (isSpace : β → Bool) (columns : Nat)

def empty : Filling β :=
  ⟨[], [], [], [], false⟩

/-- The columns that the row, the gap and the word take together. -/
def length (f : Filling β) : Nat :=
  f.row.length + f.gap.length + f.word.length

/-- The gap and the word put on the row. The gap is dropped at the beginning of a row. -/
def place (f : Filling β) : Filling β :=
  { f with
    row := (if f.row.isEmpty then [] else f.row ++ f.gap) ++ f.word
    gap := []
    word := [] }

/-- The gap and the word put on the row if the word has ended, or if either of them fills a row
by itself. -/
def placeIfDue (f : Filling β) (c : β) : Filling β :=
  if (f.inWord && isSpace c) ||
      (f.row.isEmpty && (columns ≤ f.word.length || columns ≤ f.gap.length)) then
    f.place
  else
    f

def push (f : Filling β) (c : β) : Filling β :=
  if isSpace c then { f with gap := f.gap ++ [c], inWord := false }
  else { f with word := f.word ++ [c], inWord := true }

/-- The filling after one more character. When no column is left, the row is finished; a space
that falls on the break is dropped with a gap that had room on the finished row. -/
def step (f : Filling β) (c : β) : Filling β :=
  let f := f.placeIfDue isSpace columns c
  if columns ≤ f.length then
    let room := columns - f.row.length
    let next : Filling β :=
      { f with finished := f.finished ++ [f.row], row := [], gap := f.gap.drop (room + 1) }
    if isSpace c && f.gap.length ≤ room then next else next.push isSpace c
  else
    f.push isSpace c

/-- All rows, at least one. A gap alone makes an empty row. -/
def rows (f : Filling β) : List (List β) :=
  let last := (if f.row.isEmpty then [] else f.row ++ f.gap) ++ f.word
  let blank := f.row.isEmpty && f.word.isEmpty && !f.gap.isEmpty
  let all := f.finished ++ (if blank then [[]] else if last.isEmpty then [] else [last])
  if all.isEmpty then [[]] else all

end Filling

/-- The rows that a line takes when it is wrapped at the given width. -/
def wrap {β : Type} (isSpace : β → Bool) (columns : Nat) (line : List β) : List (List β) :=
  (line.foldl (Filling.step isSpace columns) Filling.empty).rows

end PocketCalc.Screen
