import PocketCalc.Panel.View

/-!
# The help screen

The help fills the whole screen, whatever its size. Its lines are wrapped and scrolled; the offset
that is drawn is the scroll position modulo `2 ^ 16`. Close to the end of these offsets the rows on
the screen cannot be counted any more, and there the drawing is aborted.
-/

namespace PocketCalc.Panel

open Screen

def heading (t : String) : Line :=
  plainLine t.toList { foreground := some .cyan, underlined := true }

def helpLine (t : String) : Line :=
  plainLine t.toList .plain

def helpLines : List Line :=
  [plainLine "keycalc - Keypad Calculator".toList (.strong .green),
   helpLine "",
   heading "Entry:",
   helpLine "  0-9 .    : Type the current number (one decimal point at most)",
   helpLine "  + - * /  : Commit the number and the operator",
   helpLine "  Enter, = : Evaluate the whole expression",
   helpLine "  Backspace: Delete the last digit",
   helpLine "  Delete   : Clear entry (CE)",
   helpLine "  Esc      : Clear all (C)",
   helpLine "",
   heading "Precedence:",
   helpLine "  * and / bind tighter than + and -",
   helpLine "  Equal precedence runs left to right: 8 - 3 - 2 = 3",
   helpLine "",
   heading "Memory:",
   helpLine "  F5 : MC  clear memory",
   helpLine "  F6 : MR  recall memory into the entry",
   helpLine "  F7 : M+  add the entry to memory",
   helpLine "  F8 : M-  subtract the entry from memory",
   helpLine "",
   heading "Other:",
   helpLine "  F1     : Toggle this help",
   helpLine "  F2     : Show the steps of the last calculation",
   helpLine "  q      : Quit",
   helpLine "  ↑ ↓ PgUp PgDn : Scroll this help",
   helpLine "",
   heading "History:",
   helpLine "  The most recent calculations are listed newest first.",
   helpLine "  Failed calculations are not recorded."]

def helpGround : Look :=
  { background := .black }

/-- The number of scroll positions that are drawn differently. -/
def scrollPeriod : Nat :=
  UInt16.size

/-- How many rows of the help lie above the screen. -/
def helpOffset (p : Panel) : Nat :=
  p.helpScroll % scrollPeriod

/-- The help screen (`render_help`), unless the drawing is aborted. -/
def helpScreen (p : Panel) (size : Size) : Option (List Row) :=
  let columns := size.columns - 2
  (scrolledParagraph helpGround columns (size.rows - 2) (helpOffset p) .left
    (wrapLines columns helpLines)).map
      (frame .double ((Style.colored .yellow).apply helpGround) " keycalc Help ".toList
        size.columns size.rows)

/-- What the panel shows on a screen of the given size, unless the drawing is aborted. -/
def picture (p : Panel) (size : Size) : Option (List Row) :=
  if p.helpOpen then helpScreen p size
  else if size.tooSmall then some (resizeScreen size)
  else some (mainScreen p size)

/-- Whether the drawing is aborted, told without drawing. -/
def overflows (p : Panel) (size : Size) : Bool :=
  p.helpOpen && rowsOverflow (size.columns - 2) (size.rows - 2) (helpOffset p)

theorem isSome_picture {p : Panel} {size : Size} :
    (p.picture size).isSome = !p.overflows size := by
  by_cases hopen : p.helpOpen = true
  · cases hrows : rowsOverflow (size.columns - 2) (size.rows - 2) p.helpOffset <;>
      simp [picture, overflows, hopen, helpScreen, scrolledParagraph, hrows]
  · by_cases hsmall : size.tooSmall = true <;> simp [picture, overflows, hopen, hsmall]

end PocketCalc.Panel
