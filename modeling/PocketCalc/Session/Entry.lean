import PocketCalc.Decimal.Display

/-!
# The entry being typed

The entry is the text on the display. It starts as `0`; digits and at most one point are appended
to it, and it is never empty. A result, a recalled number or a marker can take its place, and
typing then goes on behind it.
-/

namespace PocketCalc.Entry

/-- The entry before anything is typed. -/
def start : Text :=
  ['0']

/-- The entry after a character is typed: a digit takes the place of a lone `0`, a second point
and any character other than a digit or a point change nothing. -/
def append (entry : Text) (c : Char) : Text :=
  if c.isDigit then
    if entry = start then [c] else entry ++ [c]
  else if c = '.' ∧ '.' ∉ entry then entry ++ [c]
  else entry

/-- The entry without its last character, `0` in place of nothing. -/
def backspace (entry : Text) : Text :=
  if entry.length ≤ 1 then start else entry.dropLast

/-- The number that the memory keys take the entry for (`entry_value`): zero if it spells none. -/
def value (entry : Text) : Binary64 :=
  let x := Binary64.ofText entry
  if x.isNan then .zero else x

theorem append_ne_nil {entry : Text} (h : entry ≠ []) (c : Char) : append entry c ≠ [] := by
  unfold append
  split
  · split <;> simp
  · split
    · simp
    · exact h

theorem backspace_ne_nil (entry : Text) : backspace entry ≠ [] := by
  unfold backspace
  split
  · simp [start]
  · intro h
    have := congrArg List.length h
    simp at this
    omega

end PocketCalc.Entry
