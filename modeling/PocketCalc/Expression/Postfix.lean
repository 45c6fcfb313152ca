import PocketCalc.Expression.Token

/-!
# Postfix order

Tokens are brought into postfix order one at a time. Numbers go to the output at once; an operator
waits until one that does not bind more tightly arrives, or until the tokens end. Operators of
equal precedence leave in the order in which they came, which makes them associate to the left.
-/

namespace PocketCalc

/-- The state between two tokens: what has been put out, and the waiting operators, the latest
first. -/
structure Yard (α : Type) where
  output : List (Token α)
  waiting : List Operator
deriving DecidableEq, Repr

variable {α : Type}

namespace Yard

def empty : Yard α :=
  ⟨[], []⟩

/-- The state after one more token: a turn of the loop of `to_rpn`. An operator first releases those
waiting operators, latest first, that bind at least as tightly. -/
def shift (y : Yard α) : Token α → Yard α
  | .number x => ⟨y.output ++ [.number x], y.waiting⟩
  | .op o =>
    let binds (p : Operator) : Bool := o.precedence ≤ p.precedence
    ⟨y.output ++ (y.waiting.takeWhile binds).map .op, o :: y.waiting.dropWhile binds⟩

/-- The output once all waiting operators are released. -/
def flush (y : Yard α) : List (Token α) :=
  y.output ++ y.waiting.map .op

end Yard

/-- The tokens in postfix order (`to_rpn`). -/
def toPostfix (tokens : List (Token α)) : List (Token α) :=
  (tokens.foldl Yard.shift Yard.empty).flush

end PocketCalc
