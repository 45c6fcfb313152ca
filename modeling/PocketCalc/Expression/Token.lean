import PocketCalc.Decimal.Display
import PocketCalc.Expression.Fault

/-!
# Tokens

An expression is keyed in as a list of entries, each an operand or an operator symbol. Evaluation
works for any numbers that can be read, written, calculated with and tested as `Operand` asks;
`Binary64` is the instance that the calculator uses.
-/

namespace PocketCalc

/-- The numbers that expressions are evaluated over. -/
class Operand (α : Type) extends Add α, Sub α, Mul α, Div α where
  /-- The number that an operand's text spells. -/
  ofText : Text → α
  /-- The text of a number. -/
  text : α → Text
  /-- Whether a number may not be divided by. -/
  isZero : α → Bool
  /-- Whether a number may stand as a result. -/
  isFinite : α → Bool

instance : Operand Binary64 where
  ofText := Binary64.ofText
  text := Binary64.text
  isZero := Binary64.isZero
  isFinite := Binary64.isFinite

inductive Token (α : Type) where
  | number (value : α)
  | op (operator : Operator)
deriving DecidableEq, Repr

variable {α : Type} [Operand α]

/-- The operator applied to two numbers; only a division by zero fails. -/
def Operator.apply (o : Operator) (a b : α) : Except (Fault α) α :=
  match o with
  | .add => .ok (a + b)
  | .sub => .ok (a - b)
  | .mul => .ok (a * b)
  | .div => if Operand.isZero b then .error .divisionByZero else .ok (a / b)

/-- An entry that is exactly one operator symbol is that operator; every other entry is an
operand. -/
def Token.ofEntry (entry : Text) : Token α :=
  match Operator.ofText? entry with
  | some o => .op o
  | none => .number (Operand.ofText entry)

theorem Token.ofEntry_eq_op {x : Text} {o : Operator} :
    (Token.ofEntry x : Token α) = .op o ↔ Operator.ofText? x = some o := by
  cases h : Operator.ofText? x <;> simp [Token.ofEntry, h]

theorem Token.ofEntry_symbol (o : Operator) : (Token.ofEntry [o.symbol] : Token α) = .op o := by
  rw [Token.ofEntry_eq_op, Operator.ofText?, Operator.ofChar?_symbol]

theorem Token.ofEntry_operand {x : Text} (hx : Operator.ofText? x = none) :
    (Token.ofEntry x : Token α) = .number (Operand.ofText x) := by
  simp [Token.ofEntry, hx]

/-- The tokens of the entries, in order. -/
def tokenize (entries : List Text) : List (Token α) :=
  entries.map Token.ofEntry

end PocketCalc
