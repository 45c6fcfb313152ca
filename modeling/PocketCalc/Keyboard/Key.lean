import PocketCalc.Session.Action

/-!
# Keys

A key press as a terminal reports it: a character or a named key, with the modifiers held down.
Both front ends give the editing and memory keys the same meaning, `Key.editing?`.
-/

namespace PocketCalc

inductive KeyCode where
  | char (c : Char)
  | enter
  | backspace
  | delete
  | escape
  | up
  | down
  | left
  | right
  | pageUp
  | pageDown
  | home
  | lineEnd
  | tab
  | insert
  | function (n : Nat)
deriving DecidableEq, Repr

structure Key where
  code : KeyCode
  control : Bool := false
  alt : Bool := false
  shift : Bool := false
deriving DecidableEq, Repr

/-- The action of an editing or memory key, whatever the modifiers. -/
def KeyCode.editing? : KeyCode → Option Action
  | .backspace => some .backspace
  | .delete => some .clearEntry
  | .escape => some .clearAll
  | .function 5 => some .memoryClear
  | .function 6 => some .memoryRecall
  | .function 7 => some .memoryAdd
  | .function 8 => some .memorySubtract
  | _ => none

end PocketCalc
