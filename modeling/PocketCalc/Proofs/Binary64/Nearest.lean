import Mathlib.Tactic.Ring
import PocketCalc.Binary64.Basic

/-!
# How near rounding comes

`divNearest` and `roundToGrid` move a quotient by half a step at most (`divNearest_close`,
`roundToGrid_close`), and whatever lies nearer to it than half a step is what it is rounded to
(`divNearest_eq_of_close`, `roundToGrid_eq_of_close`). Quotients are not divided out: distances are
compared after multiplying by twice the denominator.
-/

namespace PocketCalc

theorem divNearest_close (num : Nat) {den : Nat} (hden : 0 < den) :
    2 * (divNearest num den * den) ≤ 2 * num + den ∧
      2 * num ≤ 2 * (divNearest num den * den) + den := by
  have hdiv : num / den * den + num % den = num := Nat.div_add_mod' num den
  have hmod : num % den < den := Nat.mod_lt num hden
  have hsucc : (num / den + 1) * den = num / den * den + den := Nat.succ_mul _ _
  simp only [divNearest]
  split
  · omega
  · split
    · omega
    · split <;> omega

theorem divNearest_eq_of_close {num den k : Nat} (low : 2 * (k * den) < 2 * num + den)
    (high : 2 * num < 2 * (k * den) + den) : divNearest num den = k := by
  have hden : 0 < den := by omega
  obtain ⟨hle, hge⟩ := divNearest_close num hden
  have hlt : divNearest num den < k + 1 := by
    refine Nat.lt_of_mul_lt_mul_right (a := den) ?_
    rw [Nat.succ_mul]
    omega
  have hgt : k < divNearest num den + 1 := by
    refine Nat.lt_of_mul_lt_mul_right (a := den) ?_
    rw [Nat.succ_mul]
    omega
  omega

namespace Binary64

/-! ## Spacing -/

theorem spacing_le_of_lt {n k : Nat} (h : n < 2 ^ (k + 53)) : spacing n ≤ 2 ^ k := by
  rcases Nat.eq_zero_or_pos n with rfl | hpos
  · simpa [spacing] using Nat.one_le_two_pow
  · have hlog : n.log2 < k + 53 := (Nat.log2_lt (by omega)).2 h
    exact Nat.pow_le_pow_right (by omega) (by omega)

theorem le_spacing_of_le {n k : Nat} (h : 2 ^ (k + 52) ≤ n) : 2 ^ k ≤ spacing n := by
  have hpos : 0 < n := Nat.lt_of_lt_of_le (Nat.two_pow_pos _) h
  have hlog : k + 52 ≤ n.log2 := (Nat.le_log2 (by omega)).2 h
  exact Nat.pow_le_pow_right (by omega) (by omega)

theorem spacing_eq {n k : Nat} (low : 2 ^ (k + 52) ≤ n) (high : n < 2 ^ (k + 53)) :
    spacing n = 2 ^ k :=
  Nat.le_antisymm (spacing_le_of_lt high) (le_spacing_of_le low)

theorem spacing_le_self {n : Nat} (h : 0 < n) : spacing n ≤ n := by
  have hlog : 2 ^ n.log2 ≤ n := Nat.log2_self_le (by omega)
  have hle : spacing n ≤ 2 ^ n.log2 := Nat.pow_le_pow_right (by omega) (by omega)
  omega

/-- The powers of two from the next one on are whole numbers of steps. -/
theorem spacing_dvd_two_pow {n k : Nat} (h : n < 2 ^ k) : spacing n ∣ 2 ^ k := by
  have hle : n.log2 - 52 ≤ k := by
    rcases Nat.eq_zero_or_pos n with rfl | hpos
    · simp
    · have := (Nat.log2_lt (by omega)).2 h
      omega
  exact Nat.pow_dvd_pow 2 hle

/-- A grid point and the next power of two are at least one step apart. -/
theorem add_spacing_le {n k : Nat} (hgrid : OnGrid n) (h : n < 2 ^ (k + 53)) :
    n + spacing n ≤ 2 ^ (k + 53) := by
  have hdvd : spacing n ∣ 2 ^ (k + 53) - n :=
    Nat.dvd_sub (spacing_dvd_two_pow h) (Nat.dvd_of_mod_eq_zero hgrid)
  have := Nat.le_of_dvd (by omega) hdvd
  omega

/-! ## Rounding to the grid -/

theorem roundToGrid_close (num : Nat) {den : Nat} (hden : 0 < den) :
    2 * (roundToGrid num den * den) ≤ 2 * num + den * spacing (num / den) ∧
      2 * num ≤ 2 * (roundToGrid num den * den) + den * spacing (num / den) := by
  have hsteps : divNearest num (den * spacing (num / den)) * (den * spacing (num / den)) =
      roundToGrid num den * den := by
    rw [roundToGrid]
    ac_rfl
  have hclose := divNearest_close num (Nat.mul_pos hden (spacing_pos (num / den)))
  rwa [hsteps] at hclose

theorem roundToGrid_eq_of_close {num den n : Nat} (hgrid : spacing (num / den) ∣ n)
    (low : 2 * (n * den) < 2 * num + den * spacing (num / den))
    (high : 2 * num < 2 * (n * den) + den * spacing (num / den)) : roundToGrid num den = n := by
  obtain ⟨k, rfl⟩ := hgrid
  rw [Nat.mul_comm _ k, Nat.mul_assoc, Nat.mul_comm _ den] at low high
  rw [roundToGrid, divNearest_eq_of_close low high, Nat.mul_comm]

/-- Less than half the smallest number is rounded to zero. -/
theorem roundToGrid_eq_zero {num den : Nat} (h : 2 * num < den) : roundToGrid num den = 0 := by
  have hstep : den ≤ den * spacing (num / den) := Nat.le_mul_of_pos_right den (spacing_pos _)
  exact roundToGrid_eq_of_close (Nat.dvd_zero _) (by omega) (by omega)

/-- The rounding of a fraction whose denominator divides out. -/
theorem roundToGrid_mul_self {k : Nat} (hk : 0 < k) (n : Nat) :
    roundToGrid (k * n) k = roundToGrid n 1 := by
  have hround := roundToGrid_mul_left hk n 1
  rwa [Nat.mul_one] at hround

theorem nearest_congr (negative : Bool) {num den num' den' : Nat}
    (h : roundToGrid num den = roundToGrid num' den') :
    nearest negative num den = nearest negative num' den' := by
  simp only [nearest, h]

theorem nearest_of_lt (negative : Bool) {num den : Nat} (h : roundToGrid num den < limit) :
    nearest negative num den = .finite negative ⟨_, onGrid_roundToGrid num den, h⟩ :=
  dif_pos h

/-- Rounding that gives a magnitude gives the number. -/
theorem nearest_eq_finite (negative : Bool) {num den : Nat} {m : Magnitude}
    (h : roundToGrid num den = m.units) : nearest negative num den = .finite negative m := by
  have hlt : roundToGrid num den < limit := h ▸ m.small
  rw [nearest_of_lt negative hlt]
  exact congrArg (finite negative) (Magnitude.ext h)

end Binary64

end PocketCalc
