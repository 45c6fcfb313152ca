/-!
# Texts

A text is the list of its characters (Unicode scalar values). Entries, messages and screen rows
are built as texts, so that each operation on them is an operation on lists; strings appear only
where text enters or leaves the program.
-/

namespace PocketCalc

/-- A text, as the list of its characters. -/
abbrev Text := List Char

namespace Text

def join (separator : Text) (pieces : List Text) : Text :=
  separator.intercalate pieces

/-- The pieces in order, one space between neighbours. -/
def unwords (pieces : List Text) : Text :=
  join [' '] pieces

/-- The decimal digits of a natural number, without leading zeros. -/
def ofNat (n : Nat) : Text :=
  Nat.toDigits 10 n

/-- Whether a number lies in one of the ranges, each given by its first and last number. -/
def inRanges (ranges : List (Nat × Nat)) (n : Nat) : Bool :=
  ranges.any fun r => r.1 ≤ n && n ≤ r.2

end Text

end PocketCalc
