import Mathlib.Algebra.Order.Field.Rat
import Mathlib.Algebra.Order.Field.Basic
import Mathlib.Tactic.NormNum
import PocketCalc.Proofs.Decimal.Places

/-!
# How accurate a rounded result is

Finite numbers are compared by their exact values, which are rational (`Binary64.toRat`). Rounding
to twelve places moves a number by less than a last place although it goes by two grids, keeps the
order, and leaves numbers from `2 ^ 13` on alone: `roundResult_accurate`.
-/

namespace PocketCalc.Binary64

/-- The exact value of a finite number; `0` for the others. -/
def toRat : Binary64 → ℚ
  | .finite s m => (signed s m : ℚ) / one
  | _ => 0

theorem one_cast_pos : (0 : ℚ) < one :=
  Nat.cast_pos.2 one_pos

/-! ## Values and magnitudes -/

section

variable {s t : Bool} {m n : Magnitude}

theorem toRat_le_toRat :
    (finite s m).toRat ≤ (finite t n).toRat ↔ signed s m ≤ signed t n := by
  unfold toRat
  rw [div_le_div_iff_of_pos_right one_cast_pos, Int.cast_le]

theorem abs_toRat (s : Bool) (m : Magnitude) : |(finite s m).toRat| = (m.units : ℚ) / one := by
  unfold toRat
  rw [abs_div, abs_of_pos one_cast_pos, ← Int.cast_abs, Int.abs_eq_natAbs, natAbs_signed,
    Int.cast_natCast]

theorem abs_toRat_sub_lt (hlow : n.units * placeCount < m.units * placeCount + one)
    (hhigh : m.units * placeCount < n.units * placeCount + one) :
    |(finite s n).toRat - (finite s m).toRat| < 1 / 10 ^ 12 := by
  have hunits : |signed s n - signed s m| * 10 ^ 12 < one := by
    have hplaces : placeCount = 10 ^ 12 := rfl
    rw [hplaces] at hlow hhigh
    rw [Int.abs_eq_natAbs]
    cases s <;> simp only [signed_true, signed_false] <;> omega
  unfold toRat
  rw [← sub_div, abs_div, abs_of_pos one_cast_pos, div_lt_div_iff₀ one_cast_pos (by norm_num),
    one_mul]
  exact_mod_cast hunits

end

/-! ## Rounding -/

theorem roundedUnits_zero : roundedUnits 0 = 0 := by
  have hplaces : divNearest (0 * placeCount) one = 0 := by
    rw [Nat.zero_mul, divNearest_of_dvd (Nat.dvd_zero _) one_pos, Nat.zero_div]
  unfold roundedUnits
  rw [hplaces, Nat.zero_mul]
  exact roundToGrid_eq_zero placeCount_pos

/-- Rounding the magnitudes keeps the order of signed numbers: of negative ones it is turned round,
and between a positive and a negative one only two zeros leave something to show. -/
theorem signed_roundedUnits_mono {s t : Bool} {m n m' n' : Magnitude}
    (hm : m'.units = roundedUnits m.units) (hn : n'.units = roundedUnits n.units)
    (h : signed s m ≤ signed t n) : signed s m' ≤ signed t n' := by
  cases s with
  | false =>
    cases t with
    | false =>
      have hle : m.units ≤ n.units := by simpa using h
      simpa [hm, hn] using roundedUnits_mono hle
    | true =>
      simp only [signed_true, signed_false] at h ⊢
      -- Without a sign, a number is no larger than one with a sign only if both are zero.
      have hm0 : m.units = 0 := by omega
      have hn0 : n.units = 0 := by omega
      rw [hm, hn, hm0, hn0, roundedUnits_zero]
      decide
  | true =>
    cases t with
    | false =>
      simp only [signed_true, signed_false]
      omega
    | true =>
      have hle : n.units ≤ m.units := by simpa using h
      simpa [hm, hn] using roundedUnits_mono hle

/-- The magnitude from which on the grid is coarser than the places, as a value. -/
theorem coarse_le_of_le_toRat {s : Bool} {m : Magnitude} (h : 8192 ≤ |(finite s m).toRat|) :
    coarse ≤ m.units := by
  rw [abs_toRat, le_div_iff₀ one_cast_pos] at h
  rw [coarse_eq]
  exact_mod_cast h

/-- **How accurate rounding is.** A finite number is rounded to a finite one less than a last place
away, a larger number not to a smaller one, and a number of 8192 or more to itself. -/
theorem roundResult_accurate {x y : Binary64} (hx : x.isFinite = true) (hy : y.isFinite = true) :
    x.roundResult.isFinite = true ∧ |x.roundResult.toRat - x.toRat| < 1 / 10 ^ 12 ∧
      (x.toRat ≤ y.toRat → x.roundResult.toRat ≤ y.roundResult.toRat) ∧
      (8192 ≤ |x.toRat| → x.roundResult = x) := by
  cases x with
  | nan | infinite => cases hx
  | finite s m =>
    cases y with
    | nan | infinite => cases hy
    | finite t n =>
      obtain ⟨m', hm', hm⟩ := roundResult_finite s m
      obtain ⟨n', hn', hn⟩ := roundResult_finite t n
      rw [hm', hn']
      refine ⟨rfl, ?_, ?_, ?_⟩
      · have hclose := roundedUnits_close m.onGrid
        rw [← hm] at hclose
        exact abs_toRat_sub_lt hclose.1 hclose.2
      · intro h
        rw [toRat_le_toRat] at h ⊢
        exact signed_roundedUnits_mono hm hn h
      · intro h
        have hsame : m'.units = m.units := by
          rw [hm, roundedUnits_of_coarse_le m.onGrid (coarse_le_of_le_toRat h)]
        rw [Magnitude.ext hsame]

/-- The bound of 8192 is sharp: of the numbers below it the sixth is moved to the fifth. -/
theorem roundResult_accurate_below_8192 :
    let x := ofText "8191.9999999999945".toList
    let y := ofText "8192".toList
    x.isFinite = true ∧ y.isFinite = true ∧ x.roundResult = ofText "8191.999999999995".toList ∧
      x.roundResult ≠ x ∧ |x.roundResult.toRat - x.toRat| < 1 / 10 ^ 12 ∧
      x.roundResult.toRat ≤ y.roundResult.toRat ∧ y.roundResult = y := by
  intro x y
  have hx : x.isFinite = true := by decide +kernel
  have hy : y.isFinite = true := by decide +kernel
  have hround : x.roundResult = ofText "8191.999999999995".toList := by decide +kernel
  have hmoved : x.roundResult ≠ x := by decide +kernel
  have hle : x.toRat ≤ y.toRat := by decide +kernel
  have hlarge : 8192 ≤ |y.toRat| := by decide +kernel
  obtain ⟨-, hclose, hmono, -⟩ := roundResult_accurate hx hy
  obtain ⟨-, -, -, hsame⟩ := roundResult_accurate hy hx
  exact ⟨hx, hy, hround, hmoved, hclose, hmono hle, hsame hlarge⟩

end PocketCalc.Binary64
