import PocketCalc.Decimal.Numeral
import PocketCalc.Decimal.Shortest

/-!
# Numbers as text

`Binary64.text` writes a number as the shortest decimal that reads back, in positional notation.
The calculator shows a number by `Binary64.shown`, which drops the sign of zero, and a result by
`Binary64.shownResult`, which rounds to `displayPlaces` decimal places first, so that the noise of
binary arithmetic does not show.
-/

namespace PocketCalc

/-- The decimal places that a shown result has at most. -/
def displayPlaces : Nat :=
  12

namespace Binary64

def signText (negative : Bool) : Text :=
  if negative then ['-'] else []

def text : Binary64 → Text
  | .nan => "NaN".toList
  | .infinite s => signText s ++ "inf".toList
  | .finite s m => signText s ++ (if m.units = 0 then ['0'] else m.shortest.text)

/-- The text of a number on the display (`format_number`): both zeros are `0`. -/
def shown (x : Binary64) : Text :=
  if x.isZero then ['0'] else x.text

/-- The number rounded as results are (`round_to_precision`). -/
def roundResult (x : Binary64) : Binary64 :=
  x.roundToPlaces displayPlaces

/-- The text of a result on the display (`format_result`). -/
def shownResult (x : Binary64) : Text :=
  x.roundResult.shown

end Binary64

end PocketCalc
