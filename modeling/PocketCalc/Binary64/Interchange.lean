import PocketCalc.Binary64.Basic

/-!
# The binary64 interchange encoding

A word of 64 bits is a sign bit, a biased exponent of 11 bits and a fraction of 52 bits. Words are
used only where numbers enter or leave the program; the calculator itself works on `Binary64`.
-/

namespace PocketCalc.Binary64

def fractionCount : Nat :=
  Nat.pow 2 52

/-- The exponent field of the infinities and of `nan`. -/
def specialExponent : Nat :=
  2047

def signBit (negative : Bool) : Nat :=
  if negative then Nat.pow 2 63 else 0

/-- The word of a magnitude, without a sign: the spacing's exponent in the exponent field, with
the leading bit of the significand carried into it. -/
def Magnitude.toWord (m : Magnitude) : Nat :=
  (m.units.log2 - 52) * fractionCount + m.units / spacing m.units

/-- The word of a number. All `nan` have the same word, quiet and positive. -/
def toWord : Binary64 → UInt64
  | .nan => .ofNat (specialExponent * fractionCount + fractionCount / 2)
  | .infinite s => .ofNat (signBit s + specialExponent * fractionCount)
  | .finite s m => .ofNat (signBit s + m.toWord)

def ofWord (word : UInt64) : Binary64 :=
  let negative := decide (signBit true ≤ word.toNat)
  let exponent := word.toNat / fractionCount % (specialExponent + 1)
  let fraction := word.toNat % fractionCount
  if exponent = specialExponent then
    if fraction = 0 then .infinite negative else .nan
  else if exponent = 0 then
    nearest negative fraction 1
  else
    nearest negative ((fractionCount + fraction) * Nat.pow 2 (exponent - 1)) 1

end PocketCalc.Binary64
