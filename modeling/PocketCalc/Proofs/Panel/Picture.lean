import PocketCalc.Panel.Help
import PocketCalc.Proofs.Panel.Presses

/-!
# Whether the panel can be drawn

Only the help can fail to be drawn, where its offset and the rows inside its frame add up to more
than 16 bits hold: `picture_eq_none_iff`. What is drawn is spoken of row by row.
-/

namespace PocketCalc.Panel

open Screen

variable {p : Panel} {size : Size}

/-- A row of the picture, counted from 0 at the top; `none` below the last row, and if the drawing
is aborted. -/
def row? (p : Panel) (size : Size) (i : Nat) : Option Row :=
  (p.picture size).bind (·[i]?)

theorem picture_eq_none_iff_overflows : p.picture size = none ↔ p.overflows size = true := by
  rw [← Option.not_isSome_iff_eq_none, isSome_picture]
  simp

/-- **When the drawing is aborted**: the help is open, there is room inside its frame, and the
offset and this room do not add up to a number of 16 bits. -/
theorem picture_eq_none_iff :
    p.picture size = none ↔ p.helpOpen = true ∧ 2 < size.columns ∧ 2 < size.rows ∧
      65535 < p.helpScroll % 65536 + (size.rows - 2) := by
  rw [picture_eq_none_iff_overflows, overflows, rowsOverflow, helpOffset, scrollPeriod,
    UInt16.size]
  simp only [Bool.and_eq_true, decide_eq_true_eq, and_assoc]
  exact and_congr Iff.rfl (by omega)

theorem picture_ne_none_of_closed (h : p.helpOpen = false) : p.picture size ≠ none := by
  rw [ne_eq, picture_eq_none_iff, h]
  simp

theorem picture_unsized (p : Panel) (size : Size) : p.unsized.picture size = p.picture size := rfl

/-- The note about the size of the screen is not drawn. -/
theorem picture_congr {q : Panel} (h : p.unsized = q.unsized) (size : Size) :
    p.picture size = q.picture size := by
  rw [← picture_unsized, h, picture_unsized]

end PocketCalc.Panel
