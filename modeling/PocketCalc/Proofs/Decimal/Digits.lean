import Mathlib.Algebra.Ring.Nat
import PocketCalc.Decimal.Numeral

/-!
# Digits and what they are worth

A natural number is worth what its digits are worth, and zeros in front make no difference. Other
ways to write a number with digits there are none: `exists_zeros_append`.
-/

namespace PocketCalc

theorem isDigit_of_mem_ofNat {n : Nat} {x : Char} (hx : x ∈ Text.ofNat n) : x.isDigit :=
  Nat.isDigit_of_mem_toDigits (by decide) (by decide) hx

theorem ofNat_ne_nil (n : Nat) : Text.ofNat n ≠ [] :=
  Nat.toDigits_ne_nil

theorem isDigit_of_mem_zeros_append {zeros n : Nat} {x : Char}
    (hx : x ∈ List.replicate zeros '0' ++ Text.ofNat n) : x.isDigit := by
  rcases List.mem_append.1 hx with hzero | hdigit
  · rw [List.eq_of_mem_replicate hzero]
    decide
  · exact isDigit_of_mem_ofNat hdigit

namespace Numeral

/-! ## The value of digits -/

theorem digitsValue_ofNat (n : Nat) : digitsValue (Text.ofNat n) = n :=
  Nat.ofDigitChars_ten_toDigits

/-- Digits in front count by the number of digits behind them. -/
theorem digitsValue_append (w f : Text) :
    digitsValue (w ++ f) = 10 ^ f.length * digitsValue w + digitsValue f := by
  rw [digitsValue, Nat.ofDigitChars_append, Nat.ofDigitChars_eq_ofDigitChars_zero]
  rfl

theorem digitsValue_replicate_zero (n : Nat) : digitsValue (List.replicate n '0') = 0 := by
  rw [digitsValue, Nat.ofDigitChars_replicate_zero, Nat.mul_zero]

theorem digitsValue_zeros_append (zeros n : Nat) :
    digitsValue (List.replicate zeros '0' ++ Text.ofNat n) = n := by
  rw [digitsValue_append, digitsValue_replicate_zero, Nat.mul_zero, Nat.zero_add,
    digitsValue_ofNat]

/-- The places of a decimal: exactly as many digits, worth the remainder. -/
theorem length_and_digitsValue_leftpad {n k : Nat} (h : n < Nat.pow 10 (k + 1)) :
    ((Text.ofNat n).leftpad (k + 1) '0').length = k + 1 ∧
      digitsValue ((Text.ofNat n).leftpad (k + 1) '0') = n := by
  have hlen : (Text.ofNat n).length ≤ k + 1 :=
    (Nat.length_toDigits_le_iff (by decide) (Nat.succ_pos k)).2 h
  constructor
  · rw [List.length_leftpad, Nat.max_eq_left hlen]
  · exact digitsValue_zeros_append _ n

theorem isDigit_of_mem_leftpad {n k : Nat} :
    ∀ x ∈ (Text.ofNat n).leftpad k '0', x.isDigit :=
  fun _ => isDigit_of_mem_zeros_append

/-! ## Digits of a given value -/

theorem exists_digitChar {c : Char} (hc : c.isDigit) : ∃ d < 10, c = d.digitChar := by
  simp only [Char.isDigit, Bool.and_eq_true, decide_eq_true_eq, UInt32.le_iff_toNat_le] at hc
  have hlow : 48 ≤ c.toNat := hc.1
  have hhigh : c.toNat ≤ 57 := hc.2
  refine ⟨c.toNat - 48, by omega, Char.toNat_inj.1 ?_⟩
  rw [Nat.toNat_digitChar_of_lt_ten (by omega)]
  omega

/-- Digits behind a number that is not zero make a longer number. -/
theorem toDigits_append_digits {k : Nat} (hk : 0 < k) {ds : Text} (hds : ∀ c ∈ ds, c.isDigit) :
    Nat.toDigits 10 k ++ ds = Nat.toDigits 10 (Nat.ofDigitChars 10 ds k) := by
  induction ds generalizing k with
  | nil => simp
  | cons c ds ih =>
    obtain ⟨hc, hrest⟩ := List.forall_mem_cons.1 hds
    obtain ⟨d, hd, rfl⟩ := exists_digitChar hc
    have hmore : Nat.toDigits 10 (10 * k + d) = Nat.toDigits 10 k ++ [d.digitChar] := by
      rw [← Nat.toDigits_append_toDigits (by decide) hk hd, Nat.toDigits_of_lt_base hd]
    rw [Nat.ofDigitChars_cons_digitChar_of_lt_ten hd, ← ih (by omega) hrest, hmore,
      List.append_assoc, List.singleton_append]

/-- **Digits are zeros and the number that they are worth**, unless they are worth nothing. -/
theorem exists_zeros_append {ds : Text} (hds : ∀ c ∈ ds, c.isDigit) (hpos : 1 ≤ digitsValue ds) :
    ∃ zeros, ds = List.replicate zeros '0' ++ Text.ofNat (digitsValue ds) := by
  induction ds with
  | nil => exact absurd hpos (by decide)
  | cons c ds ih =>
    obtain ⟨hc, hrest⟩ := List.forall_mem_cons.1 hds
    obtain ⟨d, hd, rfl⟩ := exists_digitChar hc
    have hvalue : digitsValue (d.digitChar :: ds) = Nat.ofDigitChars 10 ds d := by
      rw [digitsValue, Nat.ofDigitChars_cons_digitChar_of_lt_ten hd, Nat.mul_zero, Nat.zero_add]
    rcases Nat.eq_zero_or_pos d with rfl | hnonzero
    · obtain ⟨zeros, hzeros⟩ := ih hrest (hvalue ▸ hpos)
      exact ⟨zeros + 1, congrArg ('0' :: ·) hzeros⟩
    · have hdigits := toDigits_append_digits hnonzero hrest
      rw [← hvalue, Nat.toDigits_of_lt_base hd] at hdigits
      exact ⟨0, hdigits⟩

end Numeral

end PocketCalc
