import PocketCalc.Decimal.Shortest
import PocketCalc.Proofs.Binary64.Order

/-!
# The fewest places

The units that are rounded to a magnitude are those between two bounds (`Reads.between`). So if a
multiple of a power of ten reads back, so does the one next to the magnitude, and the search for the
shortest decimal stops there at the latest: no decimal that reads back has a last place further to
the left than the shortest one (`exponent_le_shortest`). In particular the shortest one does not end
in a zero (`not_ten_dvd_shortest`).
-/

namespace PocketCalc

/-- What is found is at least as coarse as anything there is to find. -/
theorem exists_coarsest {β : Type} {find? : Nat → Option β} {n k : Nat} {b : β}
    (hk : find? k = some b) (hpos : 0 < k) (hle : k ≤ n) :
    ∃ c g, coarsest find? n = some (c, g) ∧ k ≤ g := by
  induction n with
  | zero => omega
  | succ n ih =>
    rw [coarsest]
    cases hn : find? (n + 1) with
    | some c => exact ⟨c, n + 1, rfl, hle⟩
    | none =>
      have hne : k ≠ n + 1 := by
        rintro rfl
        simp [hk] at hn
      exact ih (by omega)

namespace Binary64

/-- A power of two lies below the power of ten of which the search for its decimal starts. -/
theorem two_pow_le_ten_pow (a : Nat) : 2 ^ a ≤ 10 ^ (a * 28 / 93 + 1) := by
  have hrest : ∀ r < 93, 2 ^ r ≤ 10 ^ (r * 28 / 93 + 1) := by decide
  have hexponent : a * 28 / 93 = 28 * (a / 93) + a % 93 * 28 / 93 := by omega
  calc 2 ^ a = (2 ^ 93) ^ (a / 93) * 2 ^ (a % 93) := by
        rw [← Nat.pow_mul, ← Nat.pow_add, Nat.div_add_mod]
    _ ≤ (10 ^ 28) ^ (a / 93) * 10 ^ (a % 93 * 28 / 93 + 1) :=
        Nat.mul_le_mul (Nat.pow_le_pow_left (by decide) _) (hrest _ (Nat.mod_lt _ (by decide)))
    _ = 10 ^ (a * 28 / 93 + 1) := by
        rw [← Nat.pow_mul, ← Nat.pow_add, hexponent, Nat.add_assoc]

namespace Magnitude

theorem fine_lt_topGrid (m : Magnitude) : m.fine < 10 ^ m.topGrid :=
  Nat.lt_of_lt_of_le Nat.lt_log2_self (two_pow_le_ten_pow _)

variable {m : Magnitude} {a b c n g : Nat}

theorem Reads.between (ha : m.Reads a) (hc : m.Reads c) (hab : a ≤ b) (hbc : b ≤ c) :
    m.Reads b := by
  refine Nat.le_antisymm ?_ ?_
  · exact (roundToGrid_mono hbc).trans_eq hc
  · exact ha.symm.trans_le (roundToGrid_mono hab)

theorem Reads.fine_le (h : m.Reads n) : m.fine ≤ 2 * n := by
  have hle := roundToGrid_mul_le n fineness_pos
  rwa [h] at hle

theorem Reads.le_fine (h : m.Reads n) (hm : m.units ≠ 0) : n ≤ 2 * m.fine := by
  have hle : n ≤ 2 * (roundToGrid n fineness * fineness) :=
    le_two_mul_roundToGrid fineness_pos (by rwa [h])
  rwa [h] at hle

theorem fine_pos (hm : m.units ≠ 0) : 0 < m.fine :=
  Nat.mul_pos (Nat.pos_of_ne_zero hm) fineness_pos

/-- **If a multiple of a power of ten reads back**, the one next to the magnitude does. -/
theorem exists_neighbour? (h : m.Reads (n * Nat.pow 10 g)) : ∃ c, m.neighbour? g = some c := by
  have hgap : 0 < Nat.pow 10 g := Nat.pow_pos (by decide)
  rcases Nat.lt_or_ge (m.fine / Nat.pow 10 g) n with hlt | hle
  · have hnext : m.fine < (m.fine / Nat.pow 10 g + 1) * Nat.pow 10 g :=
      (Nat.div_lt_iff_lt_mul hgap).1 (Nat.lt_succ_self _)
    have habove : m.Reads ((m.fine / Nat.pow 10 g + 1) * Nat.pow 10 g) :=
      m.reads_fine.between h hnext.le (Nat.mul_le_mul_right _ hlt)
    simp only [neighbour?, if_pos habove]
    split
    · split <;> simp
    · simp
  · have hbelow : m.Reads (m.fine / Nat.pow 10 g * Nat.pow 10 g) :=
      h.between m.reads_fine (Nat.mul_le_mul_right _ hle) (Nat.div_mul_le_self _ _)
    simp only [neighbour?, if_pos hbelow]
    split <;> simp

/-- Where a multiple of a power of ten reads back, the search stops at this power or before. -/
theorem exists_coarsest_neighbour? (hm : m.units ≠ 0) (hg : 0 < g)
    (h : m.Reads (n * Nat.pow 10 g)) :
    ∃ c g', coarsest m.neighbour? m.topGrid = some (c, g') ∧ g ≤ g' := by
  obtain ⟨c, hc⟩ := exists_neighbour? h
  refine exists_coarsest hc hg ?_
  have hfine := fine_pos hm
  have hn : 0 < n := by
    refine Nat.pos_of_ne_zero ?_
    rintro rfl
    have := h.fine_le
    omega
  -- Such a multiple is at most twice the magnitude, so the search begins at `g` or above.
  have hlt : 10 ^ g < 10 ^ (m.topGrid + 1) :=
    calc 10 ^ g ≤ n * 10 ^ g := Nat.le_mul_of_pos_left _ hn
      _ ≤ 2 * m.fine := h.le_fine hm
      _ < 10 * 10 ^ m.topGrid := by
        have := m.fine_lt_topGrid
        omega
      _ = 10 ^ (m.topGrid + 1) := by rw [Nat.pow_succ, Nat.mul_comm]
  exact Nat.lt_succ_iff.1 ((Nat.pow_lt_pow_iff_right (by decide)).1 hlt)

/-- **The shortest decimal has the fewest places**: of the multiples of powers of ten that read
back, none is a multiple of a higher power. -/
theorem exponent_le_shortest (hm : m.units ≠ 0) (h : m.Reads (n * Nat.pow 10 g)) :
    (g : Int) - unitExponent ≤ m.shortest.exponent := by
  rcases Nat.eq_zero_or_pos g with rfl | hg
  · obtain ⟨c, g', hshortest, -⟩ := m.reads_shortest
    rw [hshortest]
    change _ ≤ (g' : Int) - unitExponent
    omega
  · obtain ⟨c, g', hfound, hle⟩ := exists_coarsest_neighbour? hm hg h
    rw [shortest, hfound]
    change _ ≤ (g' : Int) - unitExponent
    omega

/-- The last digit of the shortest decimal is not zero: without it, the decimal would be a multiple
of the next power of ten. -/
theorem not_ten_dvd_shortest (hm : m.units ≠ 0) : ¬ 10 ∣ m.shortest.coefficient := by
  obtain ⟨c, g, hshortest, hreads⟩ := m.reads_shortest
  rw [hshortest]
  rintro ⟨k, rfl⟩
  have hshorter : m.Reads (k * Nat.pow 10 (g + 1)) := by
    have hpower : 10 * k * Nat.pow 10 g = k * Nat.pow 10 (g + 1) := by
      rw [Nat.pow_eq, Nat.pow_eq, Nat.pow_succ]
      ring
    rwa [← hpower]
  have hle := exponent_le_shortest hm hshorter
  rw [hshortest] at hle
  change ((g + 1 : Nat) : Int) - unitExponent ≤ (g : Int) - unitExponent at hle
  omega

end Magnitude

end Binary64

end PocketCalc
