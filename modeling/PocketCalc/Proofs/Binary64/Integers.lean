import PocketCalc.Proofs.Binary64.Nearest

/-!
# Integers as binary64 numbers

An integer of at most `exactLimit` is a binary64 number (`isInteger_nearest`). Sums, differences,
products and exact quotients of such numbers are calculated without rounding, as long as they are
integers of at most `exactLimit` again: `IsInteger.add`, `IsInteger.sub`, `IsInteger.mul`,
`IsInteger.div`. A result of zero may have either sign.
-/

namespace PocketCalc.Binary64

/-- The magnitude up to which all integers are binary64 numbers. -/
def exactLimit : Nat :=
  Nat.pow 2 53

/-- The number is the integer `k`; both zeros are `0`. -/
def IsInteger (x : Binary64) (k : Int) : Prop :=
  ∃ s m, x = .finite s m ∧ signed s m = k * one

/-- A number is an integer if its magnitude and, unless it is zero, its sign are those of the
integer. -/
theorem signed_eq_iff {s : Bool} {m : Magnitude} {k : Int} :
    signed s m = k * one ↔ m.units = k.natAbs * one ∧ (k ≠ 0 → s = decide (k < 0)) := by
  obtain ⟨n, rfl | rfl⟩ := k.eq_nat_or_neg
  all_goals
    have hcast : (n : Int) * one = ((n * one : Nat) : Int) := (Int.natCast_mul n one).symm
    have hzero : n * one = 0 ↔ n = 0 := Nat.mul_eq_zero.trans (or_iff_left one_pos.ne')
    simp only [Int.neg_mul, Int.natAbs_neg, Int.natAbs_natCast, hcast]
    generalize n * one = w at hzero ⊢
    cases s <;> simp [signed] <;> omega

theorem sign_mul {a b : Int} (ha : a ≠ 0) (hb : b ≠ 0) :
    decide (a * b < 0) = (decide (a < 0) != decide (b < 0)) := by
  by_cases hna : a < 0 <;> by_cases hnb : b < 0 <;> simp [Int.mul_neg_iff, hna, hnb] <;> omega

theorem isInteger_nearest {s : Bool} {k : Int} (hk : k.natAbs ≤ exactLimit)
    (hs : k ≠ 0 → s = decide (k < 0)) : IsInteger (nearest s (k.natAbs * one) 1) k := by
  have hgrid : OnGrid (k.natAbs * one) := onGrid_mul_pow hk
  have hround := roundToGrid_of_onGrid hgrid
  have hlt : roundToGrid (k.natAbs * one) 1 < limit := by
    rw [hround]
    calc k.natAbs * one ≤ exactLimit * one := Nat.mul_le_mul_right _ hk
      _ = 2 ^ (53 + unitExponent) := (Nat.pow_add 2 53 unitExponent).symm
      _ < limit := Nat.pow_lt_pow_right (by omega) (by omega)
  exact ⟨s, _, nearest_of_lt s hlt, signed_eq_iff.2 ⟨hround, hs⟩⟩

namespace IsInteger

variable {x y : Binary64} {a b : Int}

theorem isFinite (hx : IsInteger x a) : x.isFinite = true := by
  obtain ⟨s, m, rfl, -⟩ := hx
  rfl

theorem isZero_iff (hx : IsInteger x a) : x.isZero = true ↔ a = 0 := by
  obtain ⟨s, m, rfl, h⟩ := hx
  have hunits := (signed_eq_iff.1 h).1
  have hone := one_pos
  simp [isZero, hunits]
  omega

theorem neg (hx : IsInteger x a) : IsInteger x.neg (-a) := by
  obtain ⟨s, m, rfl, h⟩ := hx
  refine ⟨!s, m, rfl, ?_⟩
  rw [Int.neg_mul, ← h]
  cases s <;> simp [signed]

theorem add (hx : IsInteger x a) (hy : IsInteger y b) (h : (a + b).natAbs ≤ exactLimit) :
    IsInteger (x + y) (a + b) := by
  obtain ⟨s, m, rfl, hm⟩ := hx
  obtain ⟨t, n, rfl, hn⟩ := hy
  have hsum : signed s m + signed t n = (a + b) * one := by rw [hm, hn, Int.add_mul]
  have hunits : (signed s m + signed t n).natAbs = (a + b).natAbs * one := by
    rw [hsum, Int.natAbs_mul, Int.natAbs_natCast]
  change IsInteger (nearest _ (signed s m + signed t n).natAbs 1) (a + b)
  rw [hunits]
  refine isInteger_nearest h fun hne => ?_
  have hpos : 0 < (one : Int) := Int.natCast_pos.2 one_pos
  have hsign : (a + b) * one < 0 ↔ a + b < 0 := by
    rw [Int.mul_neg_iff]
    omega
  rw [hsum, if_neg (Int.mul_ne_zero hne (Int.ne_of_gt hpos))]
  simp only [hsign]

theorem sub (hx : IsInteger x a) (hy : IsInteger y b) (h : (a - b).natAbs ≤ exactLimit) :
    IsInteger (x - y) (a - b) := by
  rw [Int.sub_eq_add_neg] at h ⊢
  exact hx.add hy.neg h

theorem mul (hx : IsInteger x a) (hy : IsInteger y b) (h : (a * b).natAbs ≤ exactLimit) :
    IsInteger (x * y) (a * b) := by
  obtain ⟨s, m, rfl, hm⟩ := hx
  obtain ⟨t, n, rfl, hn⟩ := hy
  obtain ⟨hm, hs⟩ := signed_eq_iff.1 hm
  obtain ⟨hn, ht⟩ := signed_eq_iff.1 hn
  have hunits : m.units * n.units = one * ((a * b).natAbs * one) := by
    rw [hm, hn, Int.natAbs_mul]
    ac_rfl
  have hround : roundToGrid (m.units * n.units) one = roundToGrid ((a * b).natAbs * one) 1 := by
    rw [hunits, roundToGrid_mul_self one_pos]
  change IsInteger (nearest (s != t) (m.units * n.units) one) (a * b)
  rw [nearest_congr _ hround]
  refine isInteger_nearest h fun hne => ?_
  obtain ⟨ha, hb⟩ := not_or.1 (mt Int.mul_eq_zero.2 hne)
  rw [sign_mul ha hb, hs ha, ht hb]

theorem div (hx : IsInteger x a) (hy : IsInteger y b) (hb : b ≠ 0) (hdvd : b ∣ a)
    (h : (a / b).natAbs ≤ exactLimit) : IsInteger (x / y) (a / b) := by
  obtain ⟨q, rfl⟩ := hdvd
  rw [Int.mul_ediv_cancel_left q hb] at h ⊢
  obtain ⟨s, m, rfl, hm⟩ := hx
  obtain ⟨t, n, rfl, hn⟩ := hy
  obtain ⟨hm, hs⟩ := signed_eq_iff.1 hm
  obtain ⟨hn, ht⟩ := signed_eq_iff.1 hn
  have hpos : 0 < n.units := by
    rw [hn]
    exact Nat.mul_pos (Int.natAbs_pos.2 hb) one_pos
  have hunits : m.units * one = n.units * (q.natAbs * one) := by
    rw [hm, hn, Int.natAbs_mul]
    ac_rfl
  have hround : roundToGrid (m.units * one) n.units = roundToGrid (q.natAbs * one) 1 := by
    rw [hunits, roundToGrid_mul_self hpos]
  have hquotient : finite s m / finite t n = nearest (s != t) (m.units * one) n.units :=
    if_neg hpos.ne'
  rw [hquotient, nearest_congr _ hround]
  refine isInteger_nearest h fun hq => ?_
  rw [hs (Int.mul_ne_zero hb hq), ht hb, sign_mul hb hq]
  cases decide (b < 0) <;> simp

end IsInteger

end PocketCalc.Binary64
