import PocketCalc.Proofs.Binary64.Nearest

/-!
# Rounding keeps the order

A larger quotient is not rounded to less (`divNearest_mono`, `roundToGrid_mono`): within a binade
both are rounded to the same steps, and between two binades lies a power of two, which is a whole
number of steps of either. What a quotient is rounded to is at most twice as large, and at least
half as large unless it is zero (`roundToGrid_mul_le`, `le_two_mul_roundToGrid`).
-/

namespace PocketCalc

theorem divNearest_mono {a b den : Nat} (h : a ≤ b) : divNearest a den ≤ divNearest b den := by
  rcases Nat.lt_or_eq_of_le (Nat.div_le_div_right (c := den) h) with hlt | heq
  · have hbelow := divNearest_le a den
    have habove := div_le_divNearest b den
    omega
  · have hremainder : a % den ≤ b % den := by
      have ha := Nat.div_add_mod a den
      have hb := Nat.div_add_mod b den
      rw [heq] at ha
      omega
    simp only [divNearest, heq]
    split_ifs <;> omega

theorem log2_mono {a b : Nat} (h : a ≤ b) : a.log2 ≤ b.log2 := by
  rcases Nat.eq_zero_or_pos a with rfl | hpos
  · simp
  · exact (Nat.le_log2 (by omega)).2 (Nat.le_trans (Nat.log2_self_le (by omega)) h)

namespace Binary64

section

variable {num den p : Nat}

/-- A whole number of steps up to the quotient is not passed by rounding. -/
theorem le_roundToGrid_of_dvd (hdvd : spacing (num / den) ∣ p) (h : p ≤ num / den) :
    p ≤ roundToGrid num den := by
  obtain ⟨k, rfl⟩ := hdvd
  have hspacing := spacing_pos (num / den)
  have hsteps : k ≤ num / den / spacing (num / den) := by
    rw [Nat.le_div_iff_mul_le hspacing, Nat.mul_comm]
    exact h
  rw [Nat.div_div_eq_div_mul] at hsteps
  rw [roundToGrid, Nat.mul_comm]
  exact Nat.mul_le_mul_right _ (Nat.le_trans hsteps (div_le_divNearest _ _))

/-- A whole number of steps beyond the quotient is not passed by rounding. -/
theorem roundToGrid_le_of_dvd (hdvd : spacing (num / den) ∣ p) (h : num / den < p) :
    roundToGrid num den ≤ p := by
  obtain ⟨k, rfl⟩ := hdvd
  have hsteps : num / den / spacing (num / den) < k := by
    rw [Nat.div_lt_iff_lt_mul (spacing_pos _), Nat.mul_comm]
    exact h
  rw [Nat.div_div_eq_div_mul] at hsteps
  rw [roundToGrid, Nat.mul_comm _ k]
  exact Nat.mul_le_mul_right _ (Nat.le_trans (divNearest_le _ _) hsteps)

/-- **Rounding keeps the order.** -/
theorem roundToGrid_mono {a b den : Nat} (h : a ≤ b) : roundToGrid a den ≤ roundToGrid b den := by
  have hquotient : a / den ≤ b / den := Nat.div_le_div_right h
  rcases Nat.lt_or_ge ((a / den).log2 - 52) ((b / den).log2 - 52) with hlt | hge
  · -- The power of two at which the binade of the larger quotient begins lies between them.
    have hbelow : a / den < 2 ^ (b / den).log2 := by
      rcases Nat.eq_zero_or_pos (a / den) with hzero | hpos
      · rw [hzero]
        exact Nat.two_pow_pos _
      · exact (Nat.log2_lt (by omega)).1 (by omega)
    have habove : 2 ^ (b / den).log2 ≤ b / den := by
      refine Nat.log2_self_le ?_
      intro hzero
      simp [hzero] at hlt
    exact Nat.le_trans (roundToGrid_le_of_dvd (spacing_dvd_two_pow hbelow) hbelow)
      (le_roundToGrid_of_dvd (Nat.pow_dvd_pow 2 (Nat.sub_le _ _)) habove)
  · have hspacing : spacing (a / den) = spacing (b / den) := by
      rw [spacing, spacing, Nat.le_antisymm hge (Nat.sub_le_sub_right (log2_mono hquotient) 52)]
    rw [roundToGrid, roundToGrid, hspacing]
    exact Nat.mul_le_mul_right _ (divNearest_mono h)

/-- From one unit on a step is no larger than the quotient. -/
theorem mul_spacing_le (hden : 0 < den) (h : den ≤ num) : den * spacing (num / den) ≤ num :=
  calc den * spacing (num / den) ≤ den * (num / den) :=
        Nat.mul_le_mul_left den (spacing_le_self (Nat.div_pos h hden))
    _ ≤ num := Nat.mul_div_le num den

theorem roundToGrid_mul_le (num : Nat) (hden : 0 < den) : roundToGrid num den * den ≤ 2 * num := by
  have hclose := (roundToGrid_close num hden).1
  rcases Nat.lt_or_ge num den with hlt | hge
  · rcases Nat.lt_or_ge (2 * num) den with hzero | hhalf
    · rw [roundToGrid_eq_zero hzero, Nat.zero_mul]
      exact Nat.zero_le _
    · have hone : spacing (num / den) = 1 := by rw [Nat.div_eq_of_lt hlt]; rfl
      rw [hone, Nat.mul_one] at hclose
      omega
  · have hstep := mul_spacing_le hden hge
    omega

theorem le_two_mul_roundToGrid (hden : 0 < den) (h : roundToGrid num den ≠ 0) :
    num ≤ 2 * (roundToGrid num den * den) := by
  have hclose := (roundToGrid_close num hden).2
  rcases Nat.lt_or_ge num den with hlt | hge
  · have : den ≤ roundToGrid num den * den := Nat.le_mul_of_pos_left den (Nat.pos_of_ne_zero h)
    omega
  · have hstep := mul_spacing_le hden hge
    omega

end

end Binary64

end PocketCalc
