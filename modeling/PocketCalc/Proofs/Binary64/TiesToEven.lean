import Mathlib.Algebra.Group.Nat.Even
import Mathlib.Data.Nat.Dist
import PocketCalc.Proofs.Binary64.Order

/-!
# Ties to even

What it means to round a quotient: of all the points of a grid take the nearest one, and of two
equally near ones the even one. `TiesToEven` says so for any grid, and there is at most one such
point if between any two even points lies another one (`TiesToEven.unique`).

`divNearest` rounds to the whole numbers in this sense (`tiesToEven_divNearest`), and `roundToGrid`
to the binary64 grid (`tiesToEven_roundToGrid`), where a point is even if its significand is.
-/

namespace PocketCalc

/-- `n` is the point of the grid nearest to `num / den`; if another one is as near, `n` is even.
Distances are compared after multiplying by `den`. -/
structure TiesToEven (grid even : Nat → Prop) (num den n : Nat) : Prop where
  mem : grid n
  nearest : ∀ k, grid k → Nat.dist (n * den) num ≤ Nat.dist (k * den) num
  even_of_tie : ∀ k, grid k → k ≠ n → Nat.dist (k * den) num = Nat.dist (n * den) num → even n

/-- Between any two even points of the grid lies another point. -/
def Alternating (grid even : Nat → Prop) : Prop :=
  ∀ a b, grid a → even a → grid b → even b → a < b → ∃ c, grid c ∧ a < c ∧ c < b

section

variable {grid even : Nat → Prop} {num den m n : Nat}

/-- Of two equally near points, both even, a point between them would be nearer than either. -/
theorem TiesToEven.not_lt (halt : Alternating grid even) (hden : 0 < den)
    (hm : TiesToEven grid even num den m) (hn : TiesToEven grid even num den n) : ¬ m < n := by
  intro hlt
  have htie : Nat.dist (m * den) num = Nat.dist (n * den) num :=
    Nat.le_antisymm (hm.nearest n hn.mem) (hn.nearest m hm.mem)
  have hevenm := hm.even_of_tie n hn.mem hlt.ne' htie.symm
  have hevenn := hn.even_of_tie m hm.mem hlt.ne htie
  obtain ⟨c, hc, hmc, hcn⟩ := halt m n hm.mem hevenm hn.mem hevenn hlt
  have hnear := hm.nearest c hc
  have hleft : m * den < c * den := Nat.mul_lt_mul_of_pos_right hmc hden
  have hright : c * den < n * den := Nat.mul_lt_mul_of_pos_right hcn hden
  unfold Nat.dist at htie hnear
  omega

/-- **There is only one way to round.** -/
theorem TiesToEven.unique (halt : Alternating grid even) (hden : 0 < den)
    (hm : TiesToEven grid even num den m) (hn : TiesToEven grid even num den n) : m = n :=
  Nat.le_antisymm (Nat.not_lt.1 (hn.not_lt halt hden hm)) (Nat.not_lt.1 (hm.not_lt halt hden hn))

end

/-! ## Whole numbers -/

section

variable {num den : Nat}

theorem two_mul_dist_divNearest_le (hden : 0 < den) :
    2 * Nat.dist (divNearest num den * den) num ≤ den := by
  obtain ⟨hle, hge⟩ := divNearest_close num hden
  unfold Nat.dist
  omega

/-- Two whole numbers are not both near to a quotient. -/
theorem le_dist_add_dist (num den : Nat) {j k : Nat} (h : j ≠ k) :
    den ≤ Nat.dist (j * den) num + Nat.dist (k * den) num := by
  have hapart : ∀ a b : Nat, a < b → a * den + den ≤ b * den := by
    intro a b hab
    rw [← Nat.succ_mul]
    exact Nat.mul_le_mul_right den hab
  unfold Nat.dist
  rcases Nat.lt_or_gt_of_ne h with hlt | hlt
  · have := hapart j k hlt
    omega
  · have := hapart k j hlt
    omega

/-- Half-way between two whole numbers the even one is taken. -/
theorem even_divNearest (hden : 0 < den)
    (h : 2 * Nat.dist (divNearest num den * den) num = den) : Even (divNearest num den) := by
  have hdiv : num / den * den + num % den = num := Nat.div_add_mod' num den
  have hmod : num % den < den := Nat.mod_lt num hden
  have hsucc : (num / den + 1) * den = num / den * den + den := Nat.succ_mul _ _
  rw [Nat.even_iff]
  unfold divNearest at h ⊢
  unfold Nat.dist at h
  simp only at h ⊢
  split_ifs at h ⊢ <;> omega

/-- **`divNearest` rounds to the nearest whole number**, ties to even. -/
theorem tiesToEven_divNearest (num : Nat) (hden : 0 < den) :
    TiesToEven (fun _ => True) Even num den (divNearest num den) := by
  have hnear : 2 * Nat.dist (divNearest num den * den) num ≤ den :=
    two_mul_dist_divNearest_le hden
  constructor
  · trivial
  · intro k _
    by_cases hk : k = divNearest num den
    · rw [hk]
    · have := le_dist_add_dist num den hk
      omega
  · intro k _ hk htie
    have := le_dist_add_dist num den hk
    exact even_divNearest hden (by omega)

theorem alternating_nat : Alternating (fun _ => True) Even := by
  intro a b _ ha _ hb hlt
  rw [Nat.even_iff] at ha hb
  exact ⟨a + 1, trivial, by omega, by omega⟩

end

namespace Binary64

/-! ## The grid -/

/-- The significand of a grid point: the number of steps of its binade. -/
def significand (n : Nat) : Nat :=
  n / spacing n

section

variable {a b d e n : Nat}

theorem spacing_dvd_of_le (hb : OnGrid b) (h : a ≤ b) : spacing a ∣ b :=
  (Nat.pow_dvd_pow 2 (Nat.sub_le_sub_right (log2_mono h) 52)).trans (Nat.dvd_of_mod_eq_zero hb)

theorem onGrid_add_spacing (ha : OnGrid a) : OnGrid (a + spacing a) := by
  have hsteps : a + spacing a = (a / spacing a + 1) * spacing a := by
    rw [Nat.succ_mul, Nat.div_mul_cancel (Nat.dvd_of_mod_eq_zero ha)]
  rw [hsteps]
  exact onGrid_mul_pow (div_spacing_lt a)

theorem add_spacing_le_of_lt (ha : OnGrid a) (hb : OnGrid b) (h : a < b) : a + spacing a ≤ b := by
  have hdvd : spacing a ∣ b - a :=
    Nat.dvd_sub (spacing_dvd_of_le hb h.le) (Nat.dvd_of_mod_eq_zero ha)
  have := Nat.le_of_dvd (by omega) hdvd
  omega

theorem significand_lt (n : Nat) : significand n < 2 ^ 53 :=
  div_spacing_lt n

theorem significand_mul_spacing (h : OnGrid n) : significand n * spacing n = n :=
  Nat.div_mul_cancel (Nat.dvd_of_mod_eq_zero h)

/-- From the second binade on a significand has 53 bits. -/
theorem le_significand (he : 0 < n.log2 - 52) : 2 ^ 52 ≤ significand n := by
  have hlow : 2 ^ n.log2 ≤ n := by
    refine Nat.log2_self_le ?_
    rintro rfl
    simp at he
  have hlog : 52 + (n.log2 - 52) = n.log2 := by omega
  unfold significand
  rw [Nat.le_div_iff_mul_le (spacing_pos n), spacing, Nat.pow_eq, ← Nat.pow_add, hlog]
  exact hlow

/-- Fewer than `2 ^ 53` steps of a binade, and not fewer than its first point has, stay in it. -/
theorem spacing_mul_pow (hd : d < 2 ^ 53) (hfirst : e = 0 ∨ 2 ^ 52 ≤ d) :
    spacing (d * 2 ^ e) = 2 ^ e := by
  have hhigh : d * 2 ^ e < 2 ^ (e + 53) := by
    rw [Nat.pow_add, Nat.mul_comm (2 ^ e)]
    exact Nat.mul_lt_mul_of_pos_right hd (Nat.two_pow_pos e)
  rcases hfirst with rfl | hlow
  · exact Nat.le_antisymm (spacing_le_of_lt hhigh) (spacing_pos _)
  · refine spacing_eq ?_ hhigh
    rw [Nat.pow_add, Nat.mul_comm (2 ^ e)]
    exact Nat.mul_le_mul_right _ hlow

/-- Such a number of steps is the significand; `2 ^ 53` steps are `2 ^ 52` steps of the next
binade. -/
theorem significand_mul_pow (hd : d ≤ 2 ^ 53) (hfirst : e = 0 ∨ 2 ^ 52 ≤ d) :
    significand (d * 2 ^ e) = d ∨ d = 2 ^ 53 ∧ significand (d * 2 ^ e) = 2 ^ 52 := by
  unfold significand
  rcases Nat.lt_or_eq_of_le hd with hlt | rfl
  · left
    rw [spacing_mul_pow hlt hfirst, Nat.mul_div_cancel _ (Nat.two_pow_pos e)]
  · right
    have hnext : 2 ^ 53 * 2 ^ e = 2 ^ 52 * 2 ^ (e + 1) := by
      rw [Nat.pow_succ 2 e]
      ring
    rw [hnext, spacing_mul_pow (by decide) (.inr (Nat.le_refl _)),
      Nat.mul_div_cancel _ (Nat.two_pow_pos _)]
    exact ⟨rfl, rfl⟩

/-- Neighbours on the grid do not both have an even significand. -/
theorem alternating_grid : Alternating OnGrid fun n => Even (significand n) := by
  intro a b ha hevena hb hevenb hlt
  refine ⟨a + spacing a, onGrid_add_spacing ha, ?_, ?_⟩
  · have := spacing_pos a
    omega
  · refine Nat.lt_of_le_of_ne (add_spacing_le_of_lt ha hb hlt) ?_
    rintro rfl
    -- The next point has one step more: its significand is odd, or a power of two after an odd one.
    have hnext : a + spacing a = (significand a + 1) * 2 ^ (a.log2 - 52) := by
      calc a + spacing a = significand a * spacing a + spacing a := by
            rw [significand_mul_spacing ha]
        _ = (significand a + 1) * spacing a := (Nat.succ_mul _ _).symm
    have hsteps : significand a + 1 ≤ 2 ^ 53 := significand_lt a
    have hfirst : a.log2 - 52 = 0 ∨ 2 ^ 52 ≤ significand a + 1 := by
      rcases Nat.eq_zero_or_pos (a.log2 - 52) with hzero | hpos
      · exact .inl hzero
      · exact .inr (Nat.le_succ_of_le (le_significand hpos))
    rw [hnext] at hevenb
    rw [Nat.even_iff] at hevena hevenb
    rcases significand_mul_pow hsteps hfirst with hsame | ⟨htop, -⟩
    · omega
    · omega

end

/-! ## Rounding to the grid -/

section

variable {num den k : Nat}

/-- A whole number of steps is as far from the quotient as the number of steps from the quotient in
steps. -/
theorem steps_mul (j : Nat) :
    j * spacing (num / den) * den = j * (den * spacing (num / den)) := by
  ac_rfl

/-- No whole number of steps of the quotient's binade is nearer than what it is rounded to. -/
theorem dist_roundToGrid_le (num : Nat) (hden : 0 < den) (j : Nat) :
    Nat.dist (roundToGrid num den * den) num ≤ Nat.dist (j * spacing (num / den) * den) num := by
  have hround := tiesToEven_divNearest num (Nat.mul_pos hden (spacing_pos (num / den)))
  rw [roundToGrid, steps_mul, steps_mul]
  exact hround.nearest j trivial

/-- A grid point that is no whole number of steps of the quotient's binade lies below the binade,
farther away than its first point. -/
theorem dist_lt_of_not_dvd (hden : 0 < den) (hk : OnGrid k) (hdvd : ¬ spacing (num / den) ∣ k) :
    Nat.dist (roundToGrid num den * den) num < Nat.dist (k * den) num := by
  have hk0 : k ≠ 0 := by
    rintro rfl
    exact hdvd (Nat.dvd_zero _)
  have hfiner : k.log2 - 52 < (num / den).log2 - 52 := by
    refine Nat.lt_of_not_le fun hle => hdvd ?_
    exact (Nat.pow_dvd_pow 2 hle).trans (Nat.dvd_of_mod_eq_zero hk)
  have hbelow : k < 2 ^ (num / den).log2 := (Nat.log2_lt hk0).1 (by omega)
  have hfirst : 2 ^ (num / den).log2 ≤ num / den := by
    refine Nat.log2_self_le ?_
    intro hzero
    simp [hzero] at hfiner
  have hsteps : 2 ^ (num / den).log2 = 2 ^ 52 * spacing (num / den) := by
    rw [spacing, Nat.pow_eq, ← Nat.pow_add]
    congr 1
    omega
  -- The first point of the binade lies between `k` and the quotient.
  have hnear := dist_roundToGrid_le num hden (2 ^ 52)
  rw [← hsteps] at hnear
  have hleft : k * den < 2 ^ (num / den).log2 * den := Nat.mul_lt_mul_of_pos_right hbelow hden
  have hright : 2 ^ (num / den).log2 * den ≤ num :=
    (Nat.mul_le_mul_right den hfirst).trans (Nat.div_mul_le_self num den)
  unfold Nat.dist at *
  omega

/-- The significand of what a quotient is rounded to is the number of steps, unless it is rounded up
to the next binade. -/
theorem significand_roundToGrid (num den : Nat) :
    significand (roundToGrid num den) = divNearest num (den * spacing (num / den)) ∨
      significand (roundToGrid num den) = 2 ^ 52 := by
  have hle : divNearest num (den * spacing (num / den)) ≤ 2 ^ 53 := by
    have hsteps := divNearest_le num (den * spacing (num / den))
    rw [← Nat.div_div_eq_div_mul] at hsteps
    have hlt : num / den / spacing (num / den) < 2 ^ 53 := div_spacing_lt (num / den)
    omega
  have hfirst : (num / den).log2 - 52 = 0 ∨
      2 ^ 52 ≤ divNearest num (den * spacing (num / den)) := by
    rcases Nat.eq_zero_or_pos ((num / den).log2 - 52) with hzero | hpos
    · exact .inl hzero
    · right
      calc 2 ^ 52 ≤ num / den / spacing (num / den) := le_significand hpos
        _ = num / (den * spacing (num / den)) := Nat.div_div_eq_div_mul _ _ _
        _ ≤ divNearest num (den * spacing (num / den)) := div_le_divNearest _ _
  exact (significand_mul_pow hle hfirst).imp id And.right

/-- **`roundToGrid` rounds to the nearest grid point**, ties to an even significand. -/
theorem tiesToEven_roundToGrid (num : Nat) (hden : 0 < den) :
    TiesToEven OnGrid (fun n => Even (significand n)) num den (roundToGrid num den) := by
  constructor
  · exact onGrid_roundToGrid num den
  · intro k hk
    by_cases hdvd : spacing (num / den) ∣ k
    · obtain ⟨j, rfl⟩ := hdvd
      rw [Nat.mul_comm (spacing _)]
      exact dist_roundToGrid_le num hden j
    · exact (dist_lt_of_not_dvd hden hk hdvd).le
  · intro k hk hne htie
    by_cases hdvd : spacing (num / den) ∣ k
    · obtain ⟨j, rfl⟩ := hdvd
      -- Another whole number of steps is as near, so the number of steps is even.
      have hround := tiesToEven_divNearest num (Nat.mul_pos hden (spacing_pos (num / den)))
      have hother : j ≠ divNearest num (den * spacing (num / den)) := by
        rintro rfl
        exact hne (Nat.mul_comm _ _)
      rw [Nat.mul_comm (spacing _), roundToGrid, steps_mul, steps_mul] at htie
      have heven := hround.even_of_tie j trivial hother htie
      rcases significand_roundToGrid num den with hsame | htop
      · rwa [hsame]
      · rw [htop]
        decide
    · exact absurd htie (dist_lt_of_not_dvd hden hk hdvd).ne'

end

end Binary64

end PocketCalc
