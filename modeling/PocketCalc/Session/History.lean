import PocketCalc.Text.Basic

/-!
# The history of calculations

A record is an expression and the text of its result. The history lists records, the oldest first,
and keeps only the latest ones.
-/

namespace PocketCalc

/-- A finished calculation. -/
structure Record where
  expression : Text
  result : Text
deriving DecidableEq, Repr

def Record.text (r : Record) : Text :=
  r.expression ++ " = ".toList ++ r.result

def keepLast {α : Type} (count : Nat) (xs : List α) : List α :=
  xs.drop (xs.length - count)

theorem length_keepLast {α : Type} (count : Nat) (xs : List α) :
    (keepLast count xs).length = min count xs.length := by
  simp [keepLast]
  omega

/-- The capacity of a history unless another is asked for. -/
def defaultCapacity : Nat :=
  5

/-- What stands between two records when a history is written on one line. -/
def historySeparator : Text :=
  "  •  ".toList

/-- The history on one line, the latest record first. -/
def historyText (history : List Record) : Text :=
  Text.join historySeparator (history.reverse.map Record.text)

end PocketCalc
