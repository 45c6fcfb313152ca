import PocketCalc.Expression.Postfix

/-!
# Evaluation

Tokens in postfix order are reduced from left to right on a stack of values. An evaluation keeps
the outcome together with the reductions made on the way, those before a fault included.
-/

namespace PocketCalc

/-- One reduction: an operator applied to two values. -/
structure Step (α : Type) where
  left : α
  operator : Operator
  right : α
  result : α
deriving DecidableEq, Repr

/-- An outcome and the reductions that led to it. -/
structure Evaluation (α : Type) where
  outcome : Except (Fault α) α
  steps : List (Step α)

variable {α : Type} [Operand α]

/-- The operation of a step in words: both operands and the operator between them. -/
def Step.operation (s : Step α) : Text :=
  Operand.text s.left ++ [' ', s.operator.symbol, ' '] ++ Operand.text s.right

namespace Evaluation

def fail (fault : Fault α) : Evaluation α :=
  ⟨.error fault, []⟩

def after (step : Step α) (e : Evaluation α) : Evaluation α :=
  ⟨e.outcome, step :: e.steps⟩

/-- The evaluation without its steps unless they are asked for. -/
def detail (detailed : Bool) (e : Evaluation α) : Evaluation α :=
  ⟨e.outcome, if detailed then e.steps else []⟩

/-- The evaluation in which a value that may not stand as a result is a fault. -/
def requireFinite (e : Evaluation α) : Evaluation α :=
  match e.outcome with
  | .ok v => if Operand.isFinite v then e else ⟨.error (.nonFinite v), e.steps⟩
  | .error _ => e

end Evaluation

/-- Reduces tokens in postfix order, with the values so far on a stack, the latest first. -/
def reduce : List α → List (Token α) → Evaluation α
  | [v], [] => ⟨.ok v, []⟩
  | [], [] => .fail (.malformed .empty)
  | stack, [] => .fail (.malformed (.leftover stack.length))
  | stack, .number x :: rest => reduce (x :: stack) rest
  | b :: a :: stack, .op o :: rest =>
    match o.apply a b with
    | .ok v => (reduce (v :: stack) rest).after ⟨a, o, b, v⟩
    | .error fault => .fail fault
  | _, .op o :: _ => .fail (.malformed (.missingOperand o))

/-- The value of tokens in postfix order (`eval_rpn`), which need not be finite. -/
def evaluatePostfix (tokens : List (Token α)) : Evaluation α :=
  reduce [] tokens

/-- The value of an expression given by its entries. -/
def evaluate (entries : List Text) : Evaluation α :=
  (evaluatePostfix (toPostfix (tokenize entries))).requireFinite

end PocketCalc
