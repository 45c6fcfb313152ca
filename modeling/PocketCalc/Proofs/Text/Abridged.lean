import PocketCalc.Proofs.Text.Splitting
import PocketCalc.Proofs.Text.Unwords
import PocketCalc.Session.History
import PocketCalc.Text.Clip

/-!
# Clipping printable text

A printable character takes one column, so that clipping a printable text counts its characters:
it keeps the last of them behind the mark (`IsPrintable.clip_eq_abridged`).
-/

namespace PocketCalc.Text

/-! ## Printable texts -/

/-- A text of printable ASCII characters. -/
def IsPrintable (t : Text) : Prop :=
  ∀ c ∈ t, 0x20 ≤ c.toNat ∧ c.toNat < 0x7F

instance (t : Text) : Decidable (IsPrintable t) :=
  List.decidableBAll _ t

theorem IsPrintable.append {t u : Text} (ht : IsPrintable t) (hu : IsPrintable u) :
    IsPrintable (t ++ u) := by
  intro c hc
  exact (List.mem_append.1 hc).elim (ht c) (hu c)

theorem isPrintable_of_digit {c : Char} (h : c.isDigit ∨ c = '.') :
    0x20 ≤ c.toNat ∧ c.toNat < 0x7F := by
  rcases h with hdigit | rfl
  · have hrange := toNat_of_isDigit hdigit
    omega
  · decide

theorem isPrintable_unwords {ws : List Text} (h : ∀ w ∈ ws, IsPrintable w) :
    IsPrintable (unwords ws) := by
  have hspace : IsPrintable [' '] := by decide
  intro c hc
  rcases of_mem_join hc with hc | ⟨w, hw, hc⟩
  · exact hspace c hc
  · exact h w hw c hc

/-! ## Clipping -/

/-- The text if it has at most `count` characters, else the mark and its last `count - 1`. -/
def abridged (count : Nat) (t : Text) : Text :=
  if t.length ≤ count then t else cutMark :: keepLast (count - 1) t

theorem length_abridged_le {count : Nat} (h : 0 < count) (t : Text) :
    (abridged count t).length ≤ count := by
  unfold abridged
  split
  · assumption
  · rw [List.length_cons, length_keepLast]
    omega

theorem IsPrintable.fitting_eq_take {t : Text} (h : IsPrintable t) (budget : Nat) :
    fitting budget t = t.take budget := by
  induction t generalizing budget with
  | nil => simp [fitting]
  | cons c rest ih =>
    obtain ⟨low, high⟩ := h c List.mem_cons_self
    have hrest : IsPrintable rest := fun d hd => h d (List.mem_cons_of_mem c hd)
    rw [fitting, charWidth_of_printable low high]
    cases budget with
    | zero => rfl
    | succ n => rw [if_pos (Nat.le_add_left 1 n), Nat.add_sub_cancel, ih hrest, List.take_succ_cons]

theorem IsPrintable.fittingEnd_eq_keepLast {t : Text} (h : IsPrintable t) (budget : Nat) :
    fittingEnd budget t = keepLast budget t := by
  have hreverse : IsPrintable t.reverse := fun c hc => h c (List.mem_reverse.1 hc)
  rw [fittingEnd, hreverse.fitting_eq_take, List.take_reverse, List.reverse_reverse, keepLast]

/-- **Clipping a printable text keeps its last characters**, as many as there is room for. -/
theorem IsPrintable.clip_eq_abridged {t : Text} (h : IsPrintable t) {columns : Nat}
    (hcolumns : 0 < columns) : clip columns t = abridged columns t := by
  rw [clip, abridged, width_eq_length h, if_neg (Nat.ne_of_gt hcolumns), h.fittingEnd_eq_keepLast]

end PocketCalc.Text
