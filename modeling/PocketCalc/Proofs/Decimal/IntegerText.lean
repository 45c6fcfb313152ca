import PocketCalc.Proofs.Binary64.Integers
import PocketCalc.Proofs.Decimal.FewestPlaces
import PocketCalc.Proofs.Decimal.Places

/-!
# The texts of integers

Of an integer the shortest decimal is found on a grid of whole numbers, and on those rounding has
no choice: the only whole number that reads back is the integer itself, since one beyond
`exactLimit` that would do is odd (`Magnitude.text_shortest`). Rounding to places leaves integers
alone, so what the display shows of one are its digits: `IsInteger.shownResult`.
-/

namespace PocketCalc

/-- The decimal digits of an integer, without leading zeros, after a minus sign if it is
negative. -/
def Text.ofInt (k : Int) : Text :=
  Binary64.signText (k < 0) ++ Text.ofNat k.natAbs

namespace Binary64

/-! ## The shortest decimal of an integer -/

namespace Magnitude

variable {m : Magnitude} {n : Nat}

theorem fine_of_units (h : m.units = n * one) : m.fine = n * Nat.pow 10 unitExponent := by
  rw [fine, h, ← fineness_mul_one]
  ac_rfl

/-- On the grid of the whole numbers an integer is its own neighbour. -/
theorem neighbour?_unitExponent (h : m.units = n * one) :
    m.neighbour? unitExponent = some n := by
  have hfine := fine_of_units h
  have hgap : 0 < Nat.pow 10 unitExponent := Nat.pow_pos (by decide)
  have hbelow : m.fine / Nat.pow 10 unitExponent = n := by
    rw [hfine, Nat.mul_div_cancel n hgap]
  have hreads : m.Reads (n * Nat.pow 10 unitExponent) := hfine ▸ m.reads_fine
  have hrest : ¬ Nat.pow 10 unitExponent ≤ 2 * (m.fine % Nat.pow 10 unitExponent) := by
    rw [hfine, Nat.mul_mod_left]
    omega
  simp only [neighbour?, hbelow, if_pos hreads]
  rw [if_neg (hrest ·.2)]

end Magnitude

/-- **Only the integer itself is rounded to it**, among even numbers at least: `2 ^ 53 + 1` is
rounded to `2 ^ 53`. -/
theorem eq_of_roundToGrid {k n : Nat} (h : roundToGrid (k * one) 1 = n * one)
    (hn : n ≤ exactLimit) (heven : 2 ∣ k) : k = n := by
  have hone := one_pos
  rcases Nat.lt_or_ge (2 * exactLimit) k with hlarge | hsmall
  · -- Rounding never halves a number, and `k` is more than twice `n`.
    have hclose := (roundToGrid_close (k * one) Nat.one_pos).2
    have hspacing : spacing (k * one / 1) ≤ k * one := by
      rw [Nat.div_one]
      exact spacing_le_self (Nat.mul_pos (by omega) hone)
    have hlt : 2 * n * one < k * one := Nat.mul_lt_mul_of_pos_right (by omega) hone
    rw [h] at hclose
    rw [Nat.mul_assoc] at hlt
    omega
  · obtain ⟨j, rfl⟩ := heven
    have hgrid : OnGrid (2 * j * one) := by
      have hpower : 2 * j * one = j * Nat.pow 2 (1 + unitExponent) := by
        rw [one, Nat.pow_eq, Nat.pow_eq, Nat.pow_add]
        ring
      rw [hpower]
      exact onGrid_mul_pow (Nat.le_of_mul_le_mul_left hsmall (by decide))
    rw [roundToGrid_of_onGrid hgrid] at h
    exact Nat.eq_of_mul_eq_mul_right hone h

/-- **The shortest decimal of an integer** is the integer, with its zeros written out. -/
theorem Magnitude.text_shortest {m : Magnitude} {n : Nat} (h : m.units = n * one) (hpos : 0 < n)
    (hn : n ≤ exactLimit) : m.shortest.text = Text.ofNat n := by
  have hunits : m.units ≠ 0 := by
    rw [h]
    exact Nat.mul_ne_zero (by omega) one_pos.ne'
  have hexponent : 0 < unitExponent := by rw [unitExponent]; decide
  have hreads : m.Reads (n * Nat.pow 10 unitExponent) := fine_of_units h ▸ m.reads_fine
  obtain ⟨c, g, hfound, hge⟩ := exists_coarsest_neighbour? hunits hexponent hreads
  obtain ⟨e, rfl⟩ : ∃ e, g = unitExponent + e := ⟨g - unitExponent, by omega⟩
  have hc := (coarsest_eq_some hfound).1
  -- The search may stop at a multiple of a power of ten, but only if it is the integer itself.
  have hvalue : c * Nat.pow 10 e = n := by
    cases e with
    | zero => simpa [neighbour?_unitExponent h] using hc.symm
    | succ e =>
      have hread := reads_whole.1 (reads_of_neighbour? hc)
      rw [h] at hread
      have heven : 2 ∣ Nat.pow 10 (e + 1) := (by decide : 2 ∣ 10).trans (Nat.dvd_mul_left 10 _)
      exact eq_of_roundToGrid hread hn (Nat.dvd_mul_left_of_dvd heven c)
  have hshortest : m.shortest = ⟨c, .ofNat e⟩ := by
    rw [shortest, hfound]
    simp
  rw [hshortest, Decimal.text, hvalue]

/-! ## Integers on the display -/

theorem roundedUnits_integer {n : Nat} (hn : n ≤ exactLimit) :
    roundedUnits (n * one) = n * one := by
  have hgrid : OnGrid (n * one) := onGrid_mul_pow hn
  have hplaces : divNearest (n * one * placeCount) one = n * placeCount := by
    rw [Nat.mul_right_comm, divNearest_of_dvd (Nat.dvd_mul_left _ _) one_pos,
      Nat.mul_div_cancel _ one_pos]
  have hscaled : n * placeCount * one = placeCount * (n * one) := by ac_rfl
  rw [roundedUnits, hplaces, hscaled, roundToGrid_mul_self placeCount_pos,
    roundToGrid_of_onGrid hgrid]

theorem IsInteger.roundResult {x : Binary64} {k : Int} (h : IsInteger x k)
    (hk : k.natAbs ≤ exactLimit) : x.roundResult = x := by
  obtain ⟨s, m, rfl, hm⟩ := h
  obtain ⟨n, hround, hn⟩ := roundResult_finite s m
  rw [(signed_eq_iff.1 hm).1, roundedUnits_integer hk, ← (signed_eq_iff.1 hm).1] at hn
  rw [hround, Magnitude.ext hn]

/-- **An integer is shown by its digits**, zero without a sign. -/
theorem IsInteger.shownResult {x : Binary64} {k : Int} (h : IsInteger x k)
    (hk : k.natAbs ≤ exactLimit) : x.shownResult = Text.ofInt k := by
  rw [Binary64.shownResult, h.roundResult hk, shown]
  by_cases hzero : k = 0
  · rw [if_pos (h.isZero_iff.2 hzero), hzero]
    rfl
  · rw [if_neg (mt h.isZero_iff.1 hzero)]
    obtain ⟨s, m, rfl, hm⟩ := h
    obtain ⟨hunits, hsign⟩ := signed_eq_iff.1 hm
    have hpos : 0 < k.natAbs := Int.natAbs_pos.2 hzero
    have hne : m.units ≠ 0 := by
      rw [hunits]
      exact Nat.mul_ne_zero hpos.ne' one_pos.ne'
    rw [text, if_neg hne, Magnitude.text_shortest hunits hpos hk, hsign hzero, Text.ofInt]

end Binary64

end PocketCalc
