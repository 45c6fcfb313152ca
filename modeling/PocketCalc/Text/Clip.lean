import PocketCalc.Text.Width

/-!
# Clipping to a width

A text that is too wide keeps its end, where the latest digits are, behind a mark that shows the
cut. `placedWidth_fitting_le` says that what is kept fits and
`fitting_isPrefix` that it is part of the text.
-/

namespace PocketCalc.Text

/-- The longest beginning of a text whose characters fit in `budget` columns. -/
def fitting (budget : Nat) : Text → Text
  | [] => []
  | c :: rest => if charWidth c ≤ budget then c :: fitting (budget - charWidth c) rest else []

/-- The longest end of a text whose characters fit in `budget` columns. -/
def fittingEnd (budget : Nat) (t : Text) : Text :=
  (fitting budget t.reverse).reverse

def cutMark : Char :=
  '<'

/-- The text if it takes at most `columns` columns, else the mark and as much of its end as fits
beside it; nothing if there is no room for the mark (`clip_to_width`). -/
def clip (columns : Nat) (t : Text) : Text :=
  if width t ≤ columns then t
  else if columns = 0 then []
  else cutMark :: fittingEnd (columns - 1) t

theorem fitting_isPrefix (budget : Nat) (t : Text) : fitting budget t <+: t := by
  induction t generalizing budget with
  | nil => exact List.prefix_rfl
  | cons c rest ih =>
    rw [fitting]
    split
    · exact List.cons_prefix_cons.2 ⟨rfl, ih _⟩
    · exact List.nil_prefix

theorem placedWidth_fitting_le (budget : Nat) (t : Text) :
    placedWidth (fitting budget t) ≤ budget := by
  induction t generalizing budget with
  | nil => simp [fitting, placedWidth]
  | cons c rest ih =>
    rw [fitting]
    split
    · have := ih (budget - charWidth c)
      rw [placedWidth]
      omega
    · simp [placedWidth]

end PocketCalc.Text
