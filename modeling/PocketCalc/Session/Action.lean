import PocketCalc.Expression.Operator

/-!
# Actions

What can be done with a calculator, whatever device it comes from. The characters that every front
end shares stand for actions here; special keys are given a meaning by the front ends.
-/

namespace PocketCalc

inductive Action where
  /-- A character is typed into the entry. -/
  | digit (c : Char)
  | operator (o : Operator)
  | equals
  | clearAll
  | clearEntry
  | backspace
  | memoryClear
  | memoryRecall
  | memoryAdd
  | memorySubtract
deriving DecidableEq, Repr

/-- The action that a typed character stands for (`from_char`). -/
def Action.ofChar? (c : Char) : Option Action :=
  if c.isDigit ∨ c = '.' then some (.digit c)
  else if c = '=' ∨ c = '\n' ∨ c = '\r' then some .equals
  else (Operator.ofChar? c).map .operator

end PocketCalc
