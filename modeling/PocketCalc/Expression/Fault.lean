import PocketCalc.Decimal.Display
import PocketCalc.Expression.Operator

/-!
# Why a calculation fails

A fault says what went wrong. Its message names the cause in words; its marker is what the
display shows in place of a result.
-/

namespace PocketCalc

/-- Why a sequence of tokens is no expression. -/
inductive Malformation where
  /-- An operator found fewer than two values. -/
  | missingOperand (operator : Operator)
  /-- There was nothing to evaluate. -/
  | empty
  /-- More than one value was left at the end. -/
  | leftover (count : Nat)
deriving DecidableEq, Repr

/-- Why a calculation has no result. -/
inductive Fault (α : Type) where
  | divisionByZero
  | malformed (cause : Malformation)
  | nonFinite (value : α)
deriving DecidableEq, Repr

def Malformation.reason : Malformation → Text
  | .missingOperand o => "missing operand for '".toList ++ [o.symbol, '\'']
  | .empty => "empty expression".toList
  | .leftover k => Text.ofNat k ++ " values left without an operator".toList

/-- The message for an expression malformed for the given reason (`malformed`). -/
def malformedMessage (reason : Text) : Text :=
  "Malformed expression: ".toList ++ reason

/-- What the display shows after a division by zero. -/
def divisionMarker : Text :=
  "Error (div by 0)".toList

/-- What the display shows after every other failure. -/
def errorMarker : Text :=
  "Error".toList

namespace Fault

def message : Fault Binary64 → Text
  | .divisionByZero => "Division by zero".toList
  | .malformed cause => malformedMessage cause.reason
  | .nonFinite x => "Result is not a finite number: ".toList ++ x.text

/-- What the display shows for the fault. -/
def marker {α : Type} : Fault α → Text
  | .divisionByZero => divisionMarker
  | .malformed _ => errorMarker
  | .nonFinite _ => errorMarker

end Fault

end PocketCalc
