import PocketCalc.Binary64.Interchange
import PocketCalc.Proofs.Binary64.TiesToEven

/-!
# Words of 64 bits

Every word is the encoding of the number that it stands for, the many words for `nan` apart
(`toWord_ofWord`). So what holds of all numbers holds of all bit patterns.
-/

namespace PocketCalc.Binary64

/-- The word of a magnitude that is given by its significand and the exponent of its spacing. -/
theorem Magnitude.toWord_eq {m : Magnitude} {d e : Nat} (h : m.units = d * 2 ^ e)
    (hd : d < 2 ^ 53) (hfirst : e = 0 ∨ 2 ^ 52 ≤ d) : m.toWord = e * fractionCount + d := by
  have hspacing : spacing m.units = 2 ^ e := by rw [h, spacing_mul_pow hd hfirst]
  have hexponent : m.units.log2 - 52 = e := Nat.pow_right_injective (Nat.le_refl 2) hspacing
  have hsignificand : m.units / spacing m.units = d := by
    rw [hspacing, h, Nat.mul_div_cancel _ (Nat.two_pow_pos e)]
  rw [toWord, hexponent, hsignificand]

/-- A number on the grid that is not too large is not rounded. -/
theorem nearest_mul_pow (s : Bool) {d e : Nat} (hd : d < 2 ^ 53) (hfirst : e = 0 ∨ 2 ^ 52 ≤ d)
    (he : e ≤ 2045) :
    ∃ m : Magnitude, nearest s (d * 2 ^ e) 1 = .finite s m ∧ m.toWord = e * fractionCount + d := by
  have hgrid : OnGrid (d * 2 ^ e) := onGrid_mul_pow hd.le
  have hsmall : d * 2 ^ e < limit := by
    have hexponent : 53 + e ≤ 1024 + unitExponent := by
      rw [unitExponent]
      omega
    calc d * 2 ^ e < 2 ^ 53 * 2 ^ e := Nat.mul_lt_mul_of_pos_right hd (Nat.two_pow_pos e)
      _ = 2 ^ (53 + e) := (Nat.pow_add 2 53 e).symm
      _ ≤ limit := Nat.pow_le_pow_right (by decide) hexponent
  let m : Magnitude := ⟨d * 2 ^ e, hgrid, hsmall⟩
  exact ⟨m, nearest_units s m, m.toWord_eq rfl hd hfirst⟩

/-- The fields of a word, each in its place. -/
theorem fields (w : UInt64) :
    signBit (decide (signBit true ≤ w.toNat)) +
      (w.toNat / fractionCount % (specialExponent + 1) * fractionCount +
        w.toNat % fractionCount) = w.toNat := by
  have hlt : w.toNat < 18446744073709551616 := w.toNat_lt
  have hcount : fractionCount = 4503599627370496 := rfl
  have htrue : signBit true = 9223372036854775808 := rfl
  have hfalse : signBit false = 0 := rfl
  rw [specialExponent, hcount, htrue]
  by_cases hsign : 9223372036854775808 ≤ w.toNat
  · rw [decide_eq_true hsign, htrue]
    omega
  · rw [decide_eq_false hsign, hfalse]
    omega

/-- **Every word is the encoding of its number**, unless that is `nan`. -/
theorem toWord_ofWord {w : UInt64} (h : ofWord w ≠ .nan) : (ofWord w).toWord = w := by
  have hfields := fields w
  have hfraction : w.toNat % fractionCount < 2 ^ 52 := Nat.mod_lt _ (Nat.two_pow_pos 52)
  have hexponent : w.toNat / fractionCount % (specialExponent + 1) < specialExponent + 1 :=
    Nat.mod_lt _ (Nat.succ_pos _)
  simp only [ofWord] at h ⊢
  generalize decide (signBit true ≤ w.toNat) = negative at *
  generalize w.toNat / fractionCount % (specialExponent + 1) = exponent at *
  generalize w.toNat % fractionCount = fraction at *
  -- It is enough to find the fields again.
  have hword : ∀ m : Nat, m = exponent * fractionCount + fraction →
      UInt64.ofNat (signBit negative + m) = w := by
    rintro m rfl
    rw [hfields, UInt64.ofNat_toNat]
  split_ifs at h ⊢ with hspecial hinfinite hsubnormal
  · exact hword _ (by rw [hspecial, hinfinite, Nat.add_zero])
  · exact absurd rfl h
  · obtain ⟨m, hm, hencoded⟩ :=
      nearest_mul_pow negative (d := fraction) (by omega) (.inl rfl) (by omega)
    rw [Nat.pow_zero, Nat.mul_one] at hm
    rw [hm]
    exact hword _ (by rw [hencoded, hsubnormal])
  · have hcount : fractionCount = 2 ^ 52 := rfl
    have hleading : (exponent - 1) * fractionCount + (fractionCount + fraction) =
        exponent * fractionCount + fraction := by
      obtain ⟨e, rfl⟩ := Nat.exists_eq_succ_of_ne_zero hsubnormal
      rw [Nat.succ_sub_one, Nat.succ_mul, Nat.add_assoc]
    have hlargest : exponent - 1 ≤ 2045 := by
      rw [specialExponent] at hexponent hspecial
      omega
    obtain ⟨m, hm, hencoded⟩ :=
      nearest_mul_pow negative (d := fractionCount + fraction) (by omega) (.inr (by omega)) hlargest
    rw [Nat.pow_eq, hm]
    exact hword _ (by rw [hencoded, hleading])

end PocketCalc.Binary64
