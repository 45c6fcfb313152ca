import PocketCalc.Text.Wide
import PocketCalc.Text.ZeroWidth

/-!
# The width of a character

How many columns of a terminal a character takes when it is placed by itself: two for wide
characters, none for invisible ones and for marks on their neighbours, one for the rest. A control
character has no place of its own.
-/

namespace PocketCalc.Text

def isControl (c : Char) : Bool :=
  c.toNat < 0x20 || (0x7F ≤ c.toNat && c.toNat < 0xA0)

/-- The Khmer sign BEYYAL, written as three letters. -/
def beyyal : Nat :=
  0x17D8

/-- The columns that a character takes when it is placed by itself. -/
def charWidth (c : Char) : Nat :=
  if isControl c then 0
  else if c.toNat < 0xA0 then 1
  else if isZeroWidth c then 0
  else if c.toNat = beyyal then 3
  else if isWide c then 2
  else 1

/-- The columns that the characters of a text take together when they are placed one by one. -/
def placedWidth : Text → Nat
  | [] => 0
  | c :: rest => charWidth c + placedWidth rest

theorem charWidth_le (c : Char) : charWidth c ≤ 3 := by
  unfold charWidth
  repeat' split
  all_goals decide

/-- The printable characters of ASCII take one column each. -/
theorem charWidth_of_printable {c : Char} (low : 0x20 ≤ c.toNat) (high : c.toNat < 0x7F) :
    charWidth c = 1 := by
  have control : isControl c = false := by
    simp only [isControl, Bool.or_eq_false_iff, Bool.and_eq_false_iff, decide_eq_false_iff_not]
    omega
  have below : c.toNat < 0xA0 := by omega
  simp [charWidth, control, below]

end PocketCalc.Text
