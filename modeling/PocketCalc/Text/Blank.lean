import PocketCalc.Text.Basic

/-!
# Blank characters

The characters with the Unicode property `White_Space`, and the text without the blanks at its
two ends. `trim_eq_self` says when there is nothing to cut.
-/

namespace PocketCalc.Text

/-- The ranges of code points with the property `White_Space`. -/
def blankRanges : List (Nat × Nat) :=
  [(0x0009, 0x000D), (0x0020, 0x0020), (0x0085, 0x0085), (0x00A0, 0x00A0), (0x1680, 0x1680),
   (0x2000, 0x200A), (0x2028, 0x2029), (0x202F, 0x202F), (0x205F, 0x205F), (0x3000, 0x3000)]

/-- Whether a character has the property `White_Space`. -/
def isBlank (c : Char) : Bool :=
  inRanges blankRanges c.toNat

def trimEnd (t : Text) : Text :=
  (t.reverse.dropWhile isBlank).reverse

def trim (t : Text) : Text :=
  trimEnd (t.dropWhile isBlank)

theorem dropWhile_eq_self {t : Text} (h : ∀ c, t.head? = some c → isBlank c = false) :
    t.dropWhile isBlank = t := by
  cases t with
  | nil => rfl
  | cons c r => rw [List.dropWhile_cons_of_neg]; simp [h c rfl]

theorem trimEnd_eq_self {t : Text} (h : ∀ c, t.getLast? = some c → isBlank c = false) :
    trimEnd t = t := by
  rw [trimEnd, dropWhile_eq_self (by simpa [List.head?_reverse] using h), List.reverse_reverse]

/-- A text that neither begins nor ends with a blank is left as it is. -/
theorem trim_eq_self {t : Text} (first : ∀ c, t.head? = some c → isBlank c = false)
    (last : ∀ c, t.getLast? = some c → isBlank c = false) : trim t = t := by
  rw [trim, dropWhile_eq_self first, trimEnd_eq_self last]

end PocketCalc.Text
