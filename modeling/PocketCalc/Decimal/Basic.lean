import PocketCalc.Binary64.Basic
import PocketCalc.Text.Basic

/-!
# Decimals

A nonnegative decimal is a coefficient times a power of ten. `Decimal.text` writes it positionally,
never with an exponent; `Binary64.ofDecimal` is the binary64 number nearest to it.
-/

namespace PocketCalc

/-- The number `coefficient * 10 ^ exponent`. -/
structure Decimal where
  coefficient : Nat
  exponent : Int
deriving DecidableEq, Repr

namespace Decimal

/-- The decimal in positional notation: all digits before the point, and after it exactly the
places that a negative exponent asks for. -/
def text : Decimal → Text
  | ⟨c, .ofNat e⟩ => Text.ofNat (c * Nat.pow 10 e)
  | ⟨c, .negSucc k⟩ =>
    Text.ofNat (c / Nat.pow 10 (k + 1)) ++
      '.' :: (Text.ofNat (c % Nat.pow 10 (k + 1))).leftpad (k + 1) '0'

end Decimal

namespace Binary64

/-- The number with the given sign nearest to a decimal. Decimals of `10 ^ 400` or more are
infinite and those below `10 ^ -400` zero whatever their digits, so that no power larger than the
coefficient warrants is ever formed. -/
def ofDecimal (negative : Bool) (d : Decimal) : Binary64 :=
  if d.coefficient = 0 then nearest negative 0 1
  else if 400 < d.exponent then .infinite negative
  else if d.exponent < -(400 + d.coefficient.log2 : Nat) then nearest negative 0 1
  else
    match d.exponent with
    | .ofNat e => nearest negative (d.coefficient * Nat.pow 10 e * one) 1
    | .negSucc k => nearest negative (d.coefficient * one) (Nat.pow 10 (k + 1))

/-- The finite number rounded to `places` decimal places, ties to an even last digit, and brought
back to the grid. Numbers that are not finite have no places and are left alone. -/
def roundToPlaces (places : Nat) : Binary64 → Binary64
  | .finite s m => ofDecimal s ⟨divNearest (m.units * Nat.pow 10 places) one, -places⟩
  | x => x

end Binary64

end PocketCalc
