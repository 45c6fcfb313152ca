import PocketCalc.Text.Basic

/-!
# Operators

The four binary operators, their symbols and how tightly they bind.
-/

namespace PocketCalc

inductive Operator where
  | add
  | sub
  | mul
  | div
deriving DecidableEq, Repr

namespace Operator

def symbol : Operator → Char
  | .add => '+'
  | .sub => '-'
  | .mul => '*'
  | .div => '/'

/-- The operator that a character writes (`from_char`). -/
def ofChar? : Char → Option Operator
  | '+' => some .add
  | '-' => some .sub
  | '*' => some .mul
  | '/' => some .div
  | _ => none

/-- The operator that a text of exactly one character writes (`from_symbol`). -/
def ofText? : Text → Option Operator
  | [c] => ofChar? c
  | _ => none

/-- Multiplication and division bind more tightly than addition and subtraction. -/
def precedence : Operator → Nat
  | .add | .sub => 1
  | .mul | .div => 2

@[simp] theorem ofChar?_symbol (o : Operator) : ofChar? o.symbol = some o := by
  cases o <;> rfl

theorem ofChar?_eq_some_iff {c : Char} {o : Operator} : ofChar? c = some o ↔ c = o.symbol := by
  constructor
  · intro h
    unfold ofChar? at h
    split at h <;> cases h <;> rfl
  · rintro rfl
    exact ofChar?_symbol o

theorem symbol_inj {o p : Operator} (h : o.symbol = p.symbol) : o = p := by
  simpa using congrArg ofChar? h

end Operator

end PocketCalc
