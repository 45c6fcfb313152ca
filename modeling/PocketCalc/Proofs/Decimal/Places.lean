import PocketCalc.Proofs.Binary64.Order
import PocketCalc.Proofs.Decimal.ReadBack

/-!
# Rounding to places

A result is rounded to twelve decimal places and brought back to the grid. From `2 ^ 13` on the
grid is coarser than the places, and nothing changes (`roundedUnits_of_coarse_le`); below, it is
finer (`roundedUnits_near`), so that a rounded number is rounded to the same places again
(`divNearest_roundedUnits`). So rounding twice is rounding once (`roundResult_roundResult`), and no
number is moved by a whole place (`roundedUnits_close`).
-/

namespace PocketCalc.Binary64

/-- The number of last places in one. -/
def placeCount : Nat :=
  Nat.pow 10 displayPlaces

/-- The magnitude, in units, from which on the grid is coarser than the places. -/
def coarse : Nat :=
  Nat.pow 2 (13 + unitExponent)

/-- What a magnitude is rounded to, both in units. -/
def roundedUnits (u : Nat) : Nat :=
  roundToGrid (divNearest (u * placeCount) one * one) placeCount

theorem placeCount_pos : 0 < placeCount := by
  decide

theorem coarse_eq : coarse = 2 ^ 13 * one :=
  Nat.pow_add 2 13 unitExponent

/-- From `coarse` on a place is less than a step of the grid. -/
theorem one_lt_place_mul {k : Nat} (hk : unitExponent ≤ k + 39) : one < placeCount * 2 ^ k := by
  have hplaces : 2 ^ 39 < placeCount := by decide
  calc one = 2 ^ unitExponent := rfl
    _ ≤ 2 ^ (39 + k) := Nat.pow_le_pow_right (by omega) (by omega)
    _ = 2 ^ 39 * 2 ^ k := Nat.pow_add 2 39 k
    _ < placeCount * 2 ^ k := Nat.mul_lt_mul_of_pos_right hplaces (Nat.two_pow_pos k)

/-- Below `coarse` a step of the grid is less than a place. -/
theorem place_mul_lt_one {n : Nat} (h : n < coarse) : placeCount * spacing n < one := by
  have hplaces : placeCount < 2 ^ 40 := by decide
  obtain ⟨k, hk⟩ : ∃ k, unitExponent = 40 + k := ⟨1034, by rw [unitExponent]⟩
  have hspacing : spacing n ≤ 2 ^ k := by
    refine spacing_le_of_lt ?_
    rwa [coarse, hk, ← Nat.add_assoc, Nat.add_comm] at h
  calc placeCount * spacing n ≤ placeCount * 2 ^ k := Nat.mul_le_mul_left _ hspacing
    _ < 2 ^ 40 * 2 ^ k := Nat.mul_lt_mul_of_pos_right hplaces (Nat.two_pow_pos k)
    _ = one := by rw [one, hk, Nat.pow_eq, Nat.pow_add]

/-- The places nearest to a grid point lie in its binade: powers of two are whole, so they are
places themselves, and a grid point below one is at least a step below. -/
theorem spacing_places {u k : Nat} (hgrid : OnGrid u) (hk : unitExponent ≤ k + 39)
    (low : 2 ^ (k + 52) ≤ u) (high : u < 2 ^ (k + 53)) :
    spacing (divNearest (u * placeCount) one * one / placeCount) = 2 ^ k := by
  refine spacing_eq ?_ ?_
  · obtain ⟨j, hj⟩ : ∃ j, k + 52 = j + unitExponent := ⟨k + 52 - unitExponent, by omega⟩
    have hpower : 2 ^ (k + 52) = 2 ^ j * one := by rw [hj, Nat.pow_add, one, Nat.pow_eq]
    have hquotient : 2 ^ j * placeCount ≤ u * placeCount / one := by
      rw [Nat.le_div_iff_mul_le one_pos, Nat.mul_right_comm, ← hpower]
      exact Nat.mul_le_mul_right _ low
    rw [Nat.le_div_iff_mul_le placeCount_pos, hpower, Nat.mul_right_comm]
    exact Nat.mul_le_mul_right _ (Nat.le_trans hquotient (div_le_divNearest _ _))
  · have hstep : one < placeCount * 2 ^ k := one_lt_place_mul hk
    have hle := (divNearest_close (u * placeCount) one_pos).1
    have hgap := Nat.mul_le_mul_right placeCount (add_spacing_le hgrid high)
    rw [spacing_eq low high, Nat.add_mul, Nat.mul_comm (2 ^ k)] at hgap
    rw [Nat.div_lt_iff_lt_mul placeCount_pos]
    omega

/-- **From `2 ^ 13` on rounding changes nothing**: the nearest places are nearer than half a step
of the grid. -/
theorem roundedUnits_of_coarse_le {u : Nat} (hgrid : OnGrid u) (h : coarse ≤ u) :
    roundedUnits u = u := by
  have hpos : u ≠ 0 := by
    have : 0 < coarse := Nat.two_pow_pos _
    omega
  have hlog : 13 + unitExponent ≤ u.log2 := (Nat.le_log2 hpos).2 h
  obtain ⟨k, hk⟩ : ∃ k, u.log2 = k + 52 := ⟨u.log2 - 52, by rw [unitExponent] at hlog; omega⟩
  have hlow : 2 ^ (k + 52) ≤ u := hk ▸ Nat.log2_self_le hpos
  have hhigh : u < 2 ^ (k + 53) := by
    have := Nat.lt_log2_self (n := u)
    rwa [hk] at this
  have hstep : one < placeCount * 2 ^ k := one_lt_place_mul (by omega)
  have hspacing := spacing_places hgrid (by omega) hlow hhigh
  obtain ⟨hle, hge⟩ := divNearest_close (u * placeCount) one_pos
  refine roundToGrid_eq_of_close ?_ ?_ ?_
  · rw [hspacing, ← spacing_eq hlow hhigh]
    exact Nat.dvd_of_mod_eq_zero hgrid
  · rw [hspacing]
    omega
  · rw [hspacing]
    omega

theorem onGrid_coarse : OnGrid coarse := by
  have := onGrid_mul_pow (m := 1) (k := 13 + unitExponent) (by decide)
  rwa [Nat.one_mul] at this

/-- Below `2 ^ 13` the grid point taken for the places is nearer to them than half a place; `2 ^ 13`
itself is a grid point. -/
theorem roundedUnits_near {u : Nat} (h : u < coarse) :
    2 * (roundedUnits u * placeCount) < 2 * (divNearest (u * placeCount) one * one) + one ∧
      2 * (divNearest (u * placeCount) one * one) < 2 * (roundedUnits u * placeCount) + one := by
  have hone := one_pos
  have hquotient : u * placeCount / one < 2 ^ 13 * placeCount := by
    rw [Nat.div_lt_iff_lt_mul one_pos, Nat.mul_right_comm, ← coarse_eq]
    exact Nat.mul_lt_mul_of_pos_right h placeCount_pos
  have hdivNearest := divNearest_le (u * placeCount) one
  have hcoarse : coarse * placeCount = 2 ^ 13 * placeCount * one := by
    rw [coarse_eq]
    ac_rfl
  rcases Nat.lt_or_ge (divNearest (u * placeCount) one) (2 ^ 13 * placeCount) with hlt | hge
  · have hbelow : divNearest (u * placeCount) one * one < coarse * placeCount := by
      rw [hcoarse]
      exact Nat.mul_lt_mul_of_pos_right hlt one_pos
    have hstep := place_mul_lt_one ((Nat.div_lt_iff_lt_mul placeCount_pos).2 hbelow)
    have hclose := roundToGrid_close (divNearest (u * placeCount) one * one) placeCount_pos
    rw [← roundedUnits] at hclose
    omega
  · -- The nearest places come to `2 ^ 13` itself, which lies on the grid.
    have heq : divNearest (u * placeCount) one = 2 ^ 13 * placeCount := by omega
    have hexact : roundedUnits u = coarse := by
      rw [roundedUnits, heq, ← hcoarse, Nat.mul_comm coarse, roundToGrid_mul_self placeCount_pos,
        roundToGrid_of_onGrid onGrid_coarse]
    rw [hexact, heq, hcoarse]
    omega

/-- **Below `2 ^ 13` a rounded number has the same places.** -/
theorem divNearest_roundedUnits {u : Nat} (h : u < coarse) :
    divNearest (roundedUnits u * placeCount) one = divNearest (u * placeCount) one := by
  have hnear := roundedUnits_near h
  exact divNearest_eq_of_close (by omega) (by omega)

theorem roundedUnits_roundedUnits {u : Nat} (hgrid : OnGrid u) :
    roundedUnits (roundedUnits u) = roundedUnits u := by
  rcases Nat.lt_or_ge u coarse with hlt | hge
  · rw [roundedUnits, divNearest_roundedUnits hlt, ← roundedUnits]
  · rw [roundedUnits_of_coarse_le hgrid hge, roundedUnits_of_coarse_le hgrid hge]

theorem roundedUnits_mono {u v : Nat} (h : u ≤ v) : roundedUnits u ≤ roundedUnits v :=
  roundToGrid_mono (Nat.mul_le_mul_right one (divNearest_mono (Nat.mul_le_mul_right placeCount h)))

/-- A number is moved by less than a place, half a place at most by either rounding. -/
theorem roundedUnits_close {u : Nat} (hgrid : OnGrid u) :
    roundedUnits u * placeCount < u * placeCount + one ∧
      u * placeCount < roundedUnits u * placeCount + one := by
  have hone := one_pos
  rcases Nat.lt_or_ge u coarse with hlt | hge
  · have hplaces := divNearest_close (u * placeCount) one_pos
    have hnear := roundedUnits_near hlt
    omega
  · rw [roundedUnits_of_coarse_le hgrid hge]
    omega

theorem roundedUnits_lt_limit {u : Nat} (hgrid : OnGrid u) (h : u < limit) :
    roundedUnits u < limit := by
  rcases Nat.lt_or_ge u coarse with hlt | hge
  · calc roundedUnits u ≤ roundedUnits coarse := roundedUnits_mono hlt.le
      _ = coarse := roundedUnits_of_coarse_le onGrid_coarse (Nat.le_refl _)
      _ < limit := Nat.pow_lt_pow_right (by omega) (by omega)
  · rwa [roundedUnits_of_coarse_le hgrid hge]

/-! ## Results -/

theorem roundResult_finite (s : Bool) (m : Magnitude) :
    ∃ n : Magnitude, (finite s m).roundResult = .finite s n ∧ n.units = roundedUnits m.units := by
  have hround : (finite s m).roundResult =
      nearest s (divNearest (m.units * placeCount) one * one) placeCount :=
    ofDecimal_places s _ 11
  have hlt : roundedUnits m.units < limit := roundedUnits_lt_limit m.onGrid m.small
  exact ⟨_, by rw [hround, nearest_of_lt s hlt], rfl⟩

/-- **Rounding twice is rounding once.** -/
theorem roundResult_roundResult (x : Binary64) : x.roundResult.roundResult = x.roundResult := by
  cases x with
  | nan | infinite => rfl
  | finite s m =>
    obtain ⟨n, hn, hunits⟩ := roundResult_finite s m
    obtain ⟨n', hn', hunits'⟩ := roundResult_finite s n
    have hsame : n' = n := by
      refine Magnitude.ext ?_
      rw [hunits', hunits, roundedUnits_roundedUnits m.onGrid]
    rw [hn, hn', hsame]

theorem isFinite_roundResult (x : Binary64) : x.roundResult.isFinite = x.isFinite := by
  cases x with
  | nan | infinite => rfl
  | finite s m =>
    obtain ⟨n, hn, -⟩ := roundResult_finite s m
    rw [hn]
    rfl

theorem shownResult_ofText_shownResult (x : Binary64) :
    (ofText x.shownResult).shownResult = x.shownResult := by
  by_cases hzero : x.roundResult.isZero = true
  · have htext : x.shownResult = ['0'] := by rw [shownResult, shown, if_pos hzero]
    rw [htext]
    decide +kernel
  · have hread : ofText x.shownResult = x.roundResult := by
      rw [shownResult, ofText_shown, if_neg hzero]
    rw [hread, shownResult, roundResult_roundResult, shownResult]

end PocketCalc.Binary64
