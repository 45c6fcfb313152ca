import PocketCalc.Proofs.Decimal.Places

/-!
# The text of a result

A result is shown by the shortest decimal of the number it is rounded to, not by the twelve places
that it was rounded to. These read back as well, so the shortest decimal has no more places, and it
does not end in a zero: `shownResult_plain`.
-/

namespace PocketCalc

/-- A whole number, or a whole number with a point and one to twelve digits behind it, the last of
which is not a zero. -/
def IsPlainNumber (t : Text) : Prop :=
  ∃ w, IsWhole w ∧ (t = w ∨ ∃ f : Text, t = w ++ '.' :: f ∧ 1 ≤ f.length ∧ f.length ≤ 12 ∧
    (∀ c ∈ f, c.isDigit) ∧ f.getLast? ≠ some '0')

theorem IsPlainNumber.isPositional {t : Text} (h : IsPlainNumber t) : IsPositional t := by
  obtain ⟨w, hw, rfl | ⟨f, rfl, -, -, hf, -⟩⟩ := h
  · exact ⟨_, hw, .inl rfl⟩
  · exact ⟨w, hw, .inr ⟨f, hf, rfl⟩⟩

theorem IsPositional.no_exponent {t : Text} (ht : IsPositional t) {s : Bool} :
    ∀ c ∈ Binary64.signText s ++ t, c ≠ 'e' ∧ c ≠ 'E' := by
  intro c hc
  rcases List.mem_append.1 hc with hsign | hdigits
  · rw [eq_minus_of_mem_signText hsign]
    decide
  · constructor <;> rintro rfl <;> rcases mem_positional ht _ hdigits with hc | hc <;>
      exact absurd hc (by decide)

/-! ## Last digits -/

theorem getLast?_ofNat (n : Nat) : (Text.ofNat n).getLast? = some (n % 10).digitChar := by
  by_cases hn : n < 10
  · rw [Text.ofNat, Nat.toDigits_of_lt_base hn, Nat.mod_eq_of_lt hn]
    rfl
  · have hmore : Text.ofNat n = Text.ofNat (n / 10) ++ [(n % 10).digitChar] :=
      Nat.toDigits_of_base_le (by decide) (by omega)
    rw [hmore, List.getLast?_concat]

/-- The places of a decimal end in the last digit of its coefficient. -/
theorem getLast?_places (c k : Nat) :
    ((Text.ofNat (c % Nat.pow 10 (k + 1))).leftpad (k + 1) '0').getLast? =
      some (c % 10).digitChar := by
  have hdvd : 10 ∣ Nat.pow 10 (k + 1) := Nat.dvd_mul_left 10 _
  rw [List.leftpad, List.getLast?_append, getLast?_ofNat, Nat.mod_mod_of_dvd c hdvd]
  rfl

namespace Decimal

/-- Without a zero at its end and with twelve places at most, a decimal is written plainly. -/
theorem isPlainNumber_text {d : Decimal} (hlast : ¬ 10 ∣ d.coefficient)
    (hplaces : -12 ≤ d.exponent) : IsPlainNumber d.text := by
  obtain ⟨c, e⟩ := d
  cases e with
  | ofNat e => exact ⟨_, isWhole_ofNat _, .inl rfl⟩
  | negSucc k =>
    have hpow : 0 < Nat.pow 10 (k + 1) := Nat.pow_pos (by decide)
    have hlength := (Numeral.length_and_digitsValue_leftpad (Nat.mod_lt c hpow)).1
    have hk : k + 1 ≤ 12 := by
      simp only at hplaces
      omega
    refine ⟨_, isWhole_ofNat _, .inr ⟨_, rfl, ?_, ?_, Numeral.isDigit_of_mem_leftpad, ?_⟩⟩
    · omega
    · omega
    · rw [getLast?_places]
      -- The last place is the last digit of the coefficient.
      intro hzero
      have hdigit : 0 < c % 10 := Nat.pos_of_ne_zero fun h => hlast (Nat.dvd_of_mod_eq_zero h)
      exact digitChar_ne_zero (c % 10) (Nat.mod_lt c (by decide)) hdigit (Option.some.inj hzero)

end Decimal

namespace Binary64

theorem shown_ne_negative_zero (x : Binary64) : x.shown ≠ "-0".toList := by
  intro h
  by_cases hzero : x.isZero = true
  · rw [shown, if_pos hzero] at h
    cases h
  · have hread : ofText "-0".toList = x := by rw [← h, ofText_shown, if_neg hzero]
    rw [← hread] at hzero
    exact hzero (by decide +kernel)

/-- Of a rounded number the shortest decimal has no more places than it was rounded to. -/
theorem Magnitude.exponent_shortest_of_rounded {m : Magnitude} {u : Nat} (hm : m.units ≠ 0)
    (h : m.units = roundedUnits u) : -12 ≤ m.shortest.exponent :=
  neg_le_exponent_shortest (k := 12) hm (by rw [unitExponent]; decide) h.symm

theorem isPlainNumber_shown (s : Bool) {m : Magnitude} {u : Nat} (h : m.units = roundedUnits u) :
    ∃ s' t, (finite s m).shown = signText s' ++ t ∧ IsPlainNumber t := by
  by_cases hm : m.units = 0
  · refine ⟨false, ['0'], ?_, _, isWhole_ofNat 0, .inl rfl⟩
    simp [shown, isZero, signText, hm]
  · refine ⟨s, m.shortest.text, shown_finite hm, ?_⟩
    exact Decimal.isPlainNumber_text (Magnitude.not_ten_dvd_shortest hm)
      (Magnitude.exponent_shortest_of_rounded hm h)

/-- **What a result looks like**: an optional minus sign and a plain number, never a negative zero
and never an exponent; and it reads as the rounded value. -/
theorem shownResult_plain {x : Binary64} (hx : x.isFinite = true) :
    (∃ (s : Bool) (t : Text), x.shownResult = signText s ++ t ∧ IsPlainNumber t) ∧
      x.shownResult ≠ "-0".toList ∧ (∀ c ∈ x.shownResult, c ≠ 'e' ∧ c ≠ 'E') ∧
      SameValue (ofText x.shownResult) x.roundResult := by
  cases x with
  | nan | infinite => cases hx
  | finite s m =>
    obtain ⟨n, hround, hunits⟩ := roundResult_finite s m
    have hsame : SameValue (ofText (finite s m).shownResult) (finite s m).roundResult := by
      refine sameValue_ofText_shown ?_
      rw [hround]
      exact Binary64.noConfusion
    obtain ⟨s', t, hshown, ht⟩ := isPlainNumber_shown s hunits
    have htext : (finite s m).shownResult = signText s' ++ t := by
      rw [shownResult, hround, hshown]
    refine ⟨⟨s', t, htext, ht⟩, shown_ne_negative_zero _, ?_, hsame⟩
    rw [htext]
    exact ht.isPositional.no_exponent

/-- `-100000.1 * 3`: at this magnitude the noise is larger than a last place and is shown. -/
theorem shownResult_plain_noise :
    let x := ofText "-100000.1".toList * ofText "3".toList
    x.isFinite = true ∧ x.shownResult = "-300000.30000000005".toList ∧
      (∃ (s : Bool) (t : Text), x.shownResult = signText s ++ t ∧ IsPlainNumber t) ∧
      x.shownResult ≠ "-0".toList ∧ (∀ c ∈ x.shownResult, c ≠ 'e' ∧ c ≠ 'E') ∧
      SameValue (ofText x.shownResult) x.roundResult := by
  intro x
  have hx : x.isFinite = true := by decide +kernel
  have htext : x.shownResult = "-300000.30000000005".toList := by decide +kernel
  exact ⟨hx, htext, shownResult_plain hx⟩

end Binary64

end PocketCalc
