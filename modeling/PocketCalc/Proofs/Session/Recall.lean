import PocketCalc.Proofs.Binary64.Words
import PocketCalc.Proofs.Decimal.ReadBack
import PocketCalc.Session.Basic

/-!
# Recalling the memory

The memory is recalled as text, so putting it back or taking it away again depends on the text
being read as the very number that was shown. It is, but for the sign of a zero (`ofText_shown`),
and the register never holds a negative zero: a sum is one only if both operands are
(`add_ne_neg_zero`), and the register starts out positive. Hence recalling, clearing and adding
puts back what was there, down to the last bit (`recall_keeps_memory`).
-/

namespace PocketCalc

namespace Binary64

/-! ## The two zeros -/

theorem finite_true_eq_neg_zero {m : Magnitude} (h : m.units = 0) : finite true m = zero.neg :=
  congrArg (finite true) (Magnitude.ext h)

theorem eq_zero_or_eq_neg_zero {x : Binary64} (h : x.isZero = true) : x = zero ∨ x = zero.neg := by
  cases x with
  | nan | infinite => cases h
  | finite s m =>
    have hunits : m.units = 0 := by simpa [isZero] using h
    cases s with
    | false => exact .inl (congrArg (finite false) (Magnitude.ext hunits))
    | true => exact .inr (finite_true_eq_neg_zero hunits)

theorem zero_ne_neg_zero : zero ≠ zero.neg := by
  decide

/-- A number other than negative zero is what its text on the display is read as. -/
theorem ofText_shown_of_ne {x : Binary64} (h : x ≠ zero.neg) : ofText x.shown = x := by
  rw [ofText_shown]
  split
  · rename_i hzero
    exact ((eq_zero_or_eq_neg_zero hzero).resolve_right h).symm
  · rfl

/-- Bit for bit, the display loses nothing but the sign of negative zero. -/
theorem toWord_ofText_shown {w : UInt64} (h : ofWord w ≠ .nan) :
    (ofText (ofWord w).shown).toWord = if w = zero.neg.toWord then zero.toWord else w := by
  split
  · rename_i hw
    have hzero : (ofWord zero.neg.toWord).isZero = true := by decide +kernel
    rw [hw, ofText_shown, if_pos hzero]
  · rename_i hw
    have hne : ofWord w ≠ zero.neg := by
      intro heq
      exact hw (by rw [← toWord_ofWord h, heq])
    rw [ofText_shown_of_ne hne, toWord_ofWord h]

/-! ## Sums -/

theorem nearest_zero : nearest false 0 1 = zero :=
  nearest_units false ⟨0, rfl, limit_pos⟩

/-- A whole number of units is rounded to zero only if it is zero. -/
theorem eq_zero_of_roundToGrid {n : Nat} (h : roundToGrid n 1 = 0) : n = 0 := by
  by_contra hne
  have hone : roundToGrid 1 1 ≤ roundToGrid n 1 := roundToGrid_mono (Nat.pos_of_ne_zero hne)
  rw [roundToGrid_of_onGrid (by decide : OnGrid 1)] at hone
  omega

theorem eq_true_and_eq_zero_of_nearest {s : Bool} {n : Nat} (h : nearest s n 1 = zero.neg) :
    s = true ∧ n = 0 := by
  unfold nearest at h
  split at h
  · injection h with hsign hmagnitude
    exact ⟨hsign, eq_zero_of_roundToGrid (congrArg Magnitude.units hmagnitude)⟩
  · cases h

/-- Finite numbers are added by adding their integer numbers of units and rounding the sum. -/
theorem finite_add_finite (s t : Bool) (m n : Magnitude) :
    finite s m + finite t n =
      nearest
        (if signed s m + signed t n = 0 then s && t else decide (signed s m + signed t n < 0))
        (signed s m + signed t n).natAbs 1 :=
  rfl

/-- **A sum is negative zero only if its operands are**; the first one is enough here. -/
theorem add_ne_neg_zero {x y : Binary64} (h : x ≠ zero.neg) : x + y ≠ zero.neg := by
  intro hadd
  cases x with
  | nan =>
    rw [nan_add] at hadd
    cases hadd
  | infinite s =>
    cases y with
    | nan | finite => cases hadd
    | infinite t =>
      change (if s = t then infinite s else nan) = zero.neg at hadd
      split at hadd <;> cases hadd
  | finite s m =>
    cases y with
    | nan | infinite => cases hadd
    | finite t n =>
      rw [finite_add_finite] at hadd
      obtain ⟨hsign, habs⟩ := eq_true_and_eq_zero_of_nearest hadd
      have hsum : signed s m + signed t n = 0 := Int.natAbs_eq_zero.1 habs
      rw [if_pos hsum, Bool.and_eq_true] at hsign
      obtain ⟨rfl, rfl⟩ := hsign
      -- Two numbers that are not positive cancel out only if both are zero.
      have hunits : m.units = 0 := by
        rw [signed_true, signed_true] at hsum
        omega
      exact h (finite_true_eq_neg_zero hunits)

/-- The same of a difference, whatever is taken away. -/
theorem sub_ne_neg_zero {x y : Binary64} (h : x ≠ zero.neg) : x - y ≠ zero.neg :=
  add_ne_neg_zero h

/-- Positive zero is neutral for all numbers but negative zero. -/
theorem zero_add_of_ne {x : Binary64} (h : x ≠ zero.neg) : zero + x = x := by
  cases x with
  | nan | infinite => rfl
  | finite t n =>
    have hsum : signed false ⟨0, rfl, limit_pos⟩ + signed t n = signed t n := Int.zero_add _
    have hsign : (if signed t n = 0 then false && t else decide (signed t n < 0)) = t := by
      cases t with
      | false =>
        have hnonneg : ¬ (n.units : Int) < 0 := by omega
        simp [hnonneg]
      | true =>
        have hunits : n.units ≠ 0 := fun hzero => h (finite_true_eq_neg_zero hzero)
        have hpos : 0 < n.units := Nat.pos_of_ne_zero hunits
        simp [hunits, hpos]
    rw [zero, finite_add_finite, hsum, hsign, natAbs_signed, nearest_units]

/-- A finite number taken away from itself leaves positive zero. -/
theorem sub_self_of_isFinite {x : Binary64} (h : x.isFinite = true) : x - x = zero := by
  cases x with
  | nan | infinite => cases h
  | finite s m =>
    have hdifference : finite s m - finite s m = finite s m + finite (!s) m := rfl
    have hsum : signed s m + signed (!s) m = 0 := by
      cases s <;> simp
    rw [hdifference, finite_add_finite, if_pos hsum, hsum, Bool.and_not_self]
    exact nearest_zero

end Binary64

/-- The text of a number counts as the number when it stands in the entry. -/
theorem Entry.value_shown {x : Binary64} (hnan : x ≠ .nan) (hzero : x ≠ Binary64.zero.neg) :
    value x.shown = x := by
  rw [value, Binary64.ofText_shown_of_ne hzero]
  cases x with
  | nan => exact absurd rfl hnan
  | infinite | finite => rfl

namespace Session

variable {s : Session}

/-- No action makes the register a negative zero. -/
theorem memory_press_ne_neg_zero (h : s.memory ≠ Binary64.zero.neg) (a : Action) :
    (s.press a).memory ≠ Binary64.zero.neg := by
  cases a with
  | memoryAdd => exact Binary64.add_ne_neg_zero h
  | memorySubtract => exact Binary64.sub_ne_neg_zero h
  | memoryClear => exact Binary64.zero_ne_neg_zero
  | equals =>
    rcases s.calculate_cases with ⟨v, -, hcalc⟩ | ⟨fault, -, hcalc⟩
    · rw [press, hcalc]
      exact h
    · rw [press, hcalc]
      exact h
  | digit | operator | clearAll | clearEntry | backspace | memoryRecall => exact h

theorem run_memory_ne_neg_zero (limit : Nat) (actions : List Action) :
    ((start limit).run actions).memory ≠ Binary64.zero.neg :=
  run_induction (P := fun s => s.memory ≠ Binary64.zero.neg)
    (fun _ => Binary64.zero_ne_neg_zero) (fun _ a h => memory_press_ne_neg_zero h a) limit actions

/-- **The memory survives being recalled.** Every number but `nan` is read back from the display
bit for bit, negative zero as positive zero. So in every session recalling the memory, clearing it
and adding the entry leaves in it what was there, and recalling a finite memory and subtracting
the entry leaves zero. -/
theorem recall_keeps_memory :
    (∀ w : UInt64, Binary64.ofWord w ≠ .nan →
        (Binary64.ofText (Binary64.ofWord w).shown).toWord =
          if w = Binary64.zero.neg.toWord then Binary64.zero.toWord else w) ∧
      ∀ (limit : Nat) (actions : List Action),
        let s := (start limit).run actions
        s.memory ≠ .nan →
          (s.run [.memoryRecall, .memoryClear, .memoryAdd]).memory = s.memory ∧
            (s.memory.isFinite = true →
              (s.run [.memoryRecall, .memorySubtract]).memory = .zero) := by
  refine ⟨fun w hw => Binary64.toWord_ofText_shown hw, ?_⟩
  intro limit actions s hnan
  have hzero : s.memory ≠ Binary64.zero.neg := run_memory_ne_neg_zero limit actions
  have hvalue : Entry.value s.memory.shown = s.memory := Entry.value_shown hnan hzero
  constructor
  · change Binary64.zero + Entry.value s.memory.shown = s.memory
    rw [hvalue, Binary64.zero_add_of_ne hzero]
  · intro hfinite
    change s.memory - Entry.value s.memory.shown = .zero
    rw [hvalue, Binary64.sub_self_of_isFinite hfinite]

/-- The smallest subnormal number is read back from its 324 places; and `0.1` and `0.2` in the
memory, which come to `0.30000000000000004` there, are put back and taken away. -/
theorem recall_keeps_subnormal_and_noisy_sum :
    (Binary64.ofText (Binary64.ofWord 1).shown).toWord = 1 ∧
      let s := (start 5).run
        [.digit '.', .digit '1', .memoryAdd, .clearEntry, .digit '.', .digit '2', .memoryAdd]
      (s.run [.memoryRecall, .memoryClear, .memoryAdd]).memory = s.memory ∧
        (s.run [.memoryRecall, .memorySubtract]).memory = .zero := by
  have hword := recall_keeps_memory.1 1 (by decide +kernel)
  have hsession := recall_keeps_memory.2 5
    [.digit '.', .digit '1', .memoryAdd, .clearEntry, .digit '.', .digit '2', .memoryAdd]
    (by decide +kernel)
  exact ⟨hword, hsession.1, hsession.2 (by decide +kernel)⟩

end Session

end PocketCalc
