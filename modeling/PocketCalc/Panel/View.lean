import PocketCalc.Panel.Highlight
import PocketCalc.Panel.State
import PocketCalc.Screen.Frame
import PocketCalc.Screen.Paragraph
import PocketCalc.Screen.Wrap
import PocketCalc.Text.Clip

/-!
# The main screen

From the top: the memory on one row, the display in a frame of four rows, the history in a frame
that takes the room in between, with the steps of the last calculation beside it on request, and a
row that explains the keys.
-/

namespace PocketCalc.Panel

open Screen

structure Size where
  columns : Nat
  rows : Nat
deriving DecidableEq, Repr

/-- The size in words: columns by rows. -/
def Size.text (size : Size) : Text :=
  Text.ofNat size.columns ++ 'x' :: Text.ofNat size.rows

/-- The smallest size that the main screen fits on. -/
def minimumSize : Size :=
  ⟨40, 12⟩

/-- Whether the main screen does not fit. -/
def Size.tooSmall (size : Size) : Bool :=
  size.columns < minimumSize.columns || size.rows < minimumSize.rows

/-- The rows that lines take when they are wrapped at the given width, one line after another. -/
def wrapLines (columns : Nat) (lines : List Line) : List (List StyledChar) :=
  lines.flatMap fun line => wrap (fun c => c.1 == ' ') columns line.chars

def plainLine (t : Text) (style : Style) : Line :=
  [⟨t, style⟩]

def frameLook : Look :=
  (Style.colored .darkGray).apply {}

/-- The memory register, at the right edge, conspicuous when it is in use (`render_memory`). -/
def memoryRow (s : Session) (columns : Nat) : Row :=
  let style := if s.memory.isZero then Style.colored .darkGray else .strong .lightMagenta
  lay (style.apply {}) columns .right (plainLine s.memoryText .plain).chars

/-- The style of the entry: markers of a fault stand out. -/
def entryStyle (entry : Text) : Style :=
  if entry = divisionMarker ∨ entry = errorMarker then .strong .red else .strong .white

/-- The pending expression above the entry, each clipped so that one column is left free. -/
def displayLines (s : Session) (columns : Nat) : List Line :=
  [highlight (.colored .gray) (Text.clip (columns - 1) s.pendingText),
   plainLine (Text.clip (columns - 1) s.entry) (entryStyle s.entry)]

/-- The display in its frame, four rows high (`render_display`). -/
def displayRows (s : Session) (columns : Nat) : List Row :=
  frame .single frameLook " Display ".toList columns 4
    (paragraph {} (columns - 2) 2 .right ((displayLines s (columns - 2)).map Line.chars))

/-- The mark in front of a record; the latest one is pointed at. -/
def recordMark (position : Nat) : Span :=
  ⟨if position = 0 then ['>', ' '] else [' ', ' '], .colored .green⟩

def recordLine (columns : Nat) (r : Record) (position : Nat) : Line :=
  recordMark position :: highlight (.colored .cyan) (Text.clip (columns - 2) r.text)

def noRecords : Text :=
  "No calculations yet.".toList

/-- The history inside its frame, the latest record first. -/
def historyInside (s : Session) (columns rows : Nat) : List Row :=
  if s.history.isEmpty then
    paragraph ((Style.colored .darkGray).apply {}) columns rows .center
      [(plainLine noRecords .plain).chars]
  else
    paragraph {} columns rows .left
      ((s.history.reverse.zipIdx.map fun (r, i) => recordLine columns r i).map Line.chars)

/-- The history in its frame (`render_history`). -/
def historyRows (s : Session) (columns rows : Nat) : List Row :=
  frame .single frameLook " History ".toList columns rows
    (historyInside s (columns - 2) (rows - 2))

/-- A step of the last calculation, numbered from one. -/
def stepText (step : Step Binary64) (position : Nat) : Text :=
  Text.ofNat (position + 1) ++ ": ".toList ++ step.operation ++ " = ".toList ++ step.result.text

/-- The steps of the last calculation in their frame, wrapped (`render_details`). -/
def stepRows (s : Session) (columns rows : Nat) : List Row :=
  let lines := s.lastSteps.zipIdx.map fun (step, i) =>
    plainLine (stepText step i) (.colored .darkGray)
  frame .single frameLook " Steps ".toList columns rows
    (paragraph {} (columns - 2) (rows - 2) .left (wrapLines (columns - 2) lines))

/-- The columns of the history when the steps are shown: three fifths, to the nearest column. -/
def historyColumns (columns : Nat) : Nat :=
  (6 * columns + 5) / 10

def keyHints : List (Text × Text) :=
  [("Enter".toList, "Equals".toList), ("Del".toList, "CE".toList), ("Esc".toList, "C".toList),
   ("F5-F8".toList, "MC MR M+ M-".toList), ("F1".toList, "Help".toList),
   ("q".toList, "Quit".toList)]

/-- The row at the bottom (`render_status`). -/
def hintRow (columns : Nat) : Row :=
  let line : Line := keyHints.flatMap fun (key, meaning) =>
    [⟨key, .strong .yellow⟩, ⟨' ' :: meaning ++ [' '], .colored .darkGray⟩]
  lay {} columns .left line.chars

/-- The main screen, on a size that it fits on (`ui`). -/
def mainScreen (p : Panel) (size : Size) : List Row :=
  let middle := size.rows - 6
  let history :=
    if p.detailsOpen then
      let columns := historyColumns size.columns
      List.zipWith (· ++ ·) (historyRows p.session columns middle)
        (stepRows p.session (size.columns - columns) middle)
    else
      historyRows p.session size.columns middle
  [memoryRow p.session size.columns] ++ displayRows p.session size.columns ++ history ++
    [hintRow size.columns]

def resizeLines (size : Size) : List Line :=
  [plainLine ("Terminal too small! Min size: ".toList ++ minimumSize.text ++
      ". Current: ".toList ++ size.text) (.strong .red),
   [],
   plainLine "Please resize your terminal window".toList (.colored .yellow)]

/-- The screen that is shown where the main screen does not fit (`render_resize_message`). -/
def resizeScreen (size : Size) : List Row :=
  frame .single ((Style.colored .red).apply {}) " Resize Required ".toList size.columns size.rows
    (paragraph {} (size.columns - 2) (size.rows - 2) .center
      (wrapLines (size.columns - 2) (resizeLines size)))

end PocketCalc.Panel
