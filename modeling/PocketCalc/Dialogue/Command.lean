import PocketCalc.Keyboard.Key

/-!
# Keys in a dialogue

On a line terminal a key is an action, asks for the history, quits, or is ignored. Such a terminal
reports Enter as a line feed and Tab as a tab character, and a character with Control or Alt as a
key of its own.
-/

namespace PocketCalc.Dialogue

inductive Command where
  | action (a : Action)
  | showHistory
  | quit
  | ignore
deriving DecidableEq, Repr

def Command.ofChar (c : Char) : Command :=
  if c = 'q' then .quit
  else if c = 'h' then .showHistory
  else
    match Action.ofChar? c with
    | some a => .action a
    | none => .ignore

/-- What a key asks for (`map_key`). -/
def Command.ofKey (k : Key) : Command :=
  match k.code with
  | .char c =>
    if k.control then (if c = 'c' then .quit else .ignore)
    else if k.alt then .ignore
    else .ofChar c
  | .enter => .ofChar '\n'
  | .tab => .ofChar '\t'
  | code =>
    match code.editing? with
    | some a => .action a
    | none => .ignore

end PocketCalc.Dialogue
