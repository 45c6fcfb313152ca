import PocketCalc.Decimal.Basic
import PocketCalc.Text.Blank

/-!
# Numerals

The grammar of an operand as it is typed or shown: an optional sign, then `inf`, `infinity` or
`nan` in letters of either case, or decimal digits with at most one point and at least one digit,
and an optional exponent. Digits are the ASCII digits. `Numeral.ofText?` reads a whole text, blanks
not allowed; `Binary64.ofText` trims first and gives `nan` for a text that is no numeral.
-/

namespace PocketCalc

inductive Numeral where
  | nan
  | infinity (negative : Bool)
  | decimal (negative : Bool) (value : Decimal)
deriving DecidableEq, Repr

namespace Numeral

/-- The sign in front of a text, `true` for a minus, and the rest. -/
def splitSign : Text → Bool × Text
  | '-' :: rest => (true, rest)
  | '+' :: rest => (false, rest)
  | t => (false, t)

/-- The longest run of digits in front of a text, and the rest. -/
def splitDigits (t : Text) : Text × Text :=
  (t.takeWhile Char.isDigit, t.dropWhile Char.isDigit)

/-- The fraction in front of a text: the digits after a point, none if there is no point. -/
def splitFraction : Text → Text × Text
  | '.' :: rest => splitDigits rest
  | t => ([], t)

def digitsValue (digits : Text) : Nat :=
  Nat.ofDigitChars 10 digits 0

/-- An integer: an optional sign and at least one digit. -/
def integer? (t : Text) : Option Int :=
  match splitSign t with
  | (_, []) => none
  | (negative, digits) =>
    if digits.all Char.isDigit then
      some (if negative then -digitsValue digits else digitsValue digits)
    else
      none

/-- The exponent that ends a numeral: nothing, or the letter `e` in either case and an integer. -/
def exponent? : Text → Option Int
  | [] => some 0
  | c :: rest => if c = 'e' ∨ c = 'E' then integer? rest else none

/-- A numeral without a sign that is made of digits. -/
def decimal? (t : Text) : Option Decimal :=
  let (whole, afterWhole) := splitDigits t
  let (fraction, afterFraction) := splitFraction afterWhole
  if whole ++ fraction = [] then none
  else
    (exponent? afterFraction).map fun e =>
      ⟨digitsValue (whole ++ fraction), e - fraction.length⟩

def infinityNames : List Text :=
  ["inf".toList, "infinity".toList]

def nanName : Text :=
  "nan".toList

/-- The numeral that a text spells. -/
def ofText? (t : Text) : Option Numeral :=
  let (negative, body) := splitSign t
  let name := body.map Char.toLower
  if name ∈ infinityNames then some (.infinity negative)
  else if name = nanName then some .nan
  else (decimal? body).map (.decimal negative)

end Numeral

namespace Binary64

def ofNumeral : Numeral → Binary64
  | .nan => .nan
  | .infinity negative => .infinite negative
  | .decimal negative d => ofDecimal negative d

/-- The number that a text spells between its blanks, `nan` if it spells none (`parse_operand`). -/
def ofText (t : Text) : Binary64 :=
  ((Numeral.ofText? (Text.trim t)).map ofNumeral).getD .nan

end Binary64

end PocketCalc
