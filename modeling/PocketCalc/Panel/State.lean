import PocketCalc.Keyboard.Key
import PocketCalc.Session.Basic

/-!
# The full-screen panel

The panel shows a session, the steps of the last calculation on request, or the help. While the
help is open it takes every key; otherwise a key that stands for an action goes to the session and
the remaining keys control the panel.
-/

namespace PocketCalc

/-- The state of the full-screen front end. -/
structure Panel where
  session : Session
  quitting : Bool := false
  helpOpen : Bool := false
  /-- How far the help has been scrolled down. -/
  helpScroll : Nat := 0
  detailsOpen : Bool := false
  /-- Whether the screen was too small when the session was last drawn. -/
  tooSmall : Bool := false
deriving DecidableEq

namespace Panel

/-- A panel that has just been opened. -/
def start (historyLimit : Nat) : Panel where
  session := .start historyLimit

/-- The farthest that the help can be scrolled, the largest number of 64 bits. -/
def scrollLimit : Nat :=
  UInt64.size - 1

def scrollPage : Nat :=
  10

def scrollDown (position lines : Nat) : Nat :=
  min (position + lines) scrollLimit

def scrollUp (position lines : Nat) : Nat :=
  position - lines

/-- The action that a key stands for (`key_to_action`). A character with Control or Alt stands for
none. -/
def action? (k : Key) : Option Action :=
  match k.code with
  | .char c => if k.control ∨ k.alt then none else Action.ofChar? c
  | .enter => some .equals
  | code => code.editing?

/-- A key pressed while the help is open: the first match of `handle_key`. -/
def pressInHelp (p : Panel) (k : Key) : Panel :=
  match k.code with
  | .down => { p with helpScroll := scrollDown p.helpScroll 1 }
  | .up => { p with helpScroll := scrollUp p.helpScroll 1 }
  | .pageDown => { p with helpScroll := scrollDown p.helpScroll scrollPage }
  | .pageUp => { p with helpScroll := scrollUp p.helpScroll scrollPage }
  | .escape | .function 1 => { p with helpOpen := false, helpScroll := 0 }
  | _ => p

/-- A key that controls the panel: the second match of `handle_key`. -/
def control (p : Panel) (k : Key) : Panel :=
  match k.code with
  | .char 'c' => if k.control then { p with quitting := true } else p
  | .char 'q' | .char 'Q' => { p with quitting := true }
  | .function 1 => { p with helpOpen := true, helpScroll := 0 }
  | .function 2 => { p with detailsOpen := !p.detailsOpen }
  | _ => p

/-- The panel after a key (`handle_key`). -/
def press (p : Panel) (k : Key) : Panel :=
  if p.helpOpen then p.pressInHelp k
  else
    match action? k with
    | some a => { p with session := p.session.press a }
    | none => p.control k

end Panel

end PocketCalc
