/-!
# Rounding to the binary64 grid

Magnitudes are counted in units of `2 ^ -1074`, the smallest positive binary64 number: every
finite magnitude is a whole number of units. A number of units lies on the grid when it needs at
most 53 significant bits, that is, when it is a multiple of the spacing of its binade.

* `divNearest num den` is the integer nearest to `num / den`, ties to even.
* `roundToGrid num den` is the grid point nearest to `num / den` units, ties to an even
  significand, without a bound on the size. `onGrid_roundToGrid` says that it is a grid point and
  `roundToGrid_of_onGrid` that a grid point is left alone.

Both depend on the quotient only: `divNearest_mul_left`, `roundToGrid_mul_left`.
-/

namespace PocketCalc

/-- The integer nearest to `num / den`; of two equally near integers, the even one. -/
def divNearest (num den : Nat) : Nat :=
  let quotient := num / den
  let remainder := num % den
  if 2 * remainder < den then quotient
  else if den < 2 * remainder then quotient + 1
  else if quotient % 2 = 0 then quotient
  else quotient + 1

theorem div_le_divNearest (num den : Nat) : num / den ≤ divNearest num den := by
  unfold divNearest
  grind

theorem divNearest_le (num den : Nat) : divNearest num den ≤ num / den + 1 := by
  unfold divNearest
  grind

/-- An exact quotient is left alone. -/
theorem divNearest_of_dvd {num den : Nat} (h : den ∣ num) (hd : 0 < den) :
    divNearest num den = num / den := by
  simp [divNearest, Nat.mod_eq_zero_of_dvd h, hd]

/-- Only the quotient matters. -/
theorem divNearest_mul_left {k : Nat} (hk : 0 < k) (num den : Nat) :
    divNearest (k * num) (k * den) = divNearest num den := by
  have twice : 2 * (k * (num % den)) = k * (2 * (num % den)) := by
    rw [← Nat.mul_assoc, Nat.mul_comm 2 k, Nat.mul_assoc]
  simp only [divNearest, Nat.mul_div_mul_left _ _ hk, Nat.mul_mod_mul_left, twice,
    Nat.mul_lt_mul_left hk]

namespace Binary64

/-- The distance between neighbouring grid points in the binade of `n`, in units. -/
def spacing (n : Nat) : Nat :=
  Nat.pow 2 (n.log2 - 52)

/-- The number of units lies on the grid: it has at most 53 significant bits. -/
def OnGrid (n : Nat) : Prop :=
  n % spacing n = 0

instance (n : Nat) : Decidable (OnGrid n) :=
  inferInstanceAs (Decidable (_ = _))

/-- The grid point nearest to `num / den` units; of two equally near points, the one with the
even significand. -/
def roundToGrid (num den : Nat) : Nat :=
  divNearest num (den * spacing (num / den)) * spacing (num / den)

theorem spacing_pos (n : Nat) : 0 < spacing n :=
  Nat.two_pow_pos _

/-- A multiple of `2 ^ k` with a factor of at most `2 ^ 53` lies on the grid. -/
theorem onGrid_mul_pow {m k : Nat} (h : m ≤ Nat.pow 2 53) : OnGrid (m * Nat.pow 2 k) := by
  simp only [Nat.pow_eq] at h ⊢
  rcases Nat.eq_zero_or_pos m with rfl | hm
  · simp [OnGrid]
  have hne : m * 2 ^ k ≠ 0 := by
    have := Nat.two_pow_pos k
    exact Nat.mul_ne_zero (by omega) (by omega)
  refine Nat.mod_eq_zero_of_dvd ?_
  rw [spacing, Nat.pow_eq]
  rcases Nat.lt_or_eq_of_le h with hlt | rfl
  · have hlog : (m * 2 ^ k).log2 < 53 + k := by
      rw [Nat.log2_lt hne, Nat.pow_add]
      exact Nat.mul_lt_mul_of_pos_right hlt (Nat.two_pow_pos k)
    exact Nat.dvd_trans (Nat.pow_dvd_pow 2 (by omega)) (Nat.dvd_mul_left ..)
  · rw [← Nat.pow_add, Nat.log2_two_pow]
    exact Nat.pow_dvd_pow 2 (by omega)

theorem div_spacing_lt (n : Nat) : n / spacing n < Nat.pow 2 53 := by
  rw [Nat.div_lt_iff_lt_mul (spacing_pos n), spacing]
  simp only [Nat.pow_eq]
  rw [← Nat.pow_add]
  exact Nat.lt_of_lt_of_le Nat.lt_log2_self (Nat.pow_le_pow_right (by omega) (by omega))

theorem onGrid_roundToGrid (num den : Nat) : OnGrid (roundToGrid num den) := by
  refine onGrid_mul_pow ?_
  have h := divNearest_le num (den * spacing (num / den))
  rw [← Nat.div_div_eq_div_mul] at h
  have := div_spacing_lt (num / den)
  omega

theorem roundToGrid_of_onGrid {n : Nat} (h : OnGrid n) : roundToGrid n 1 = n := by
  have hdvd := Nat.dvd_of_mod_eq_zero h
  rw [roundToGrid, Nat.div_one, Nat.one_mul, divNearest_of_dvd hdvd (spacing_pos n),
    Nat.div_mul_cancel hdvd]

/-- Only the quotient matters. -/
theorem roundToGrid_mul_left {k : Nat} (hk : 0 < k) (num den : Nat) :
    roundToGrid (k * num) (k * den) = roundToGrid num den := by
  rw [roundToGrid, Nat.mul_div_mul_left _ _ hk, Nat.mul_assoc, divNearest_mul_left hk, roundToGrid]

end Binary64

end PocketCalc
