import PocketCalc.Decimal.Display
import PocketCalc.Proofs.Decimal.Digits

/-!
# The texts of numbers

Numbers are written positionally, without a redundant zero in front: `isPositional_text` for
decimals, and from it `text_finite` for finite numbers. In the other direction, a text that begins
with `E` reads as `nan`, whatever follows (`ofText_E`).
-/

namespace PocketCalc

/-! ## Digits -/

/-- Digits without a redundant zero in front. -/
def IsWhole (w : Text) : Prop :=
  ∃ c r, w = c :: r ∧ (∀ x ∈ w, x.isDigit) ∧ (c = '0' → r = [])

theorem digitChar_ne_zero : ∀ n < 10, 0 < n → n.digitChar ≠ '0' := by
  decide

theorem head_ofNat {n : Nat} (hpos : 0 < n) : (Text.ofNat n).head? ≠ some '0' := by
  induction n using Nat.strongRecOn with
  | ind n ih =>
    by_cases hn : n < 10
    · rw [Text.ofNat, Nat.toDigits_of_lt_base hn]
      simpa using digitChar_ne_zero n hn hpos
    · obtain ⟨c, r, hcr⟩ := List.exists_cons_of_ne_nil (ofNat_ne_nil (n / 10))
      have hhead := ih (n / 10) (by omega) (by omega)
      have hmore : Text.ofNat n = Text.ofNat (n / 10) ++ [(n % 10).digitChar] :=
        Nat.toDigits_of_base_le (by decide) (by omega)
      rw [hcr] at hhead
      rw [hmore, hcr, List.cons_append]
      exact hhead

theorem isWhole_ofNat (n : Nat) : IsWhole (Text.ofNat n) := by
  obtain ⟨c, r, hcr⟩ := List.exists_cons_of_ne_nil (ofNat_ne_nil n)
  refine ⟨c, r, hcr, fun x hx => isDigit_of_mem_ofNat hx, ?_⟩
  rintro rfl
  rcases Nat.eq_zero_or_pos n with rfl | hpos
  · rw [Text.ofNat, Nat.toDigits_zero] at hcr
    exact (List.cons.inj hcr).2.symm
  · exact absurd (by rw [hcr]; rfl) (head_ofNat hpos)

/-! ## Positional notation -/

/-- A whole number, or one with a point and digits behind it. -/
def IsPositional (t : Text) : Prop :=
  ∃ w, IsWhole w ∧ (t = w ∨ ∃ f, (∀ x ∈ f, x.isDigit) ∧ t = w ++ '.' :: f)

theorem isPositional_text (d : Decimal) : IsPositional d.text := by
  obtain ⟨c, e⟩ := d
  cases e with
  | ofNat e => exact ⟨_, isWhole_ofNat _, .inl rfl⟩
  | negSucc k =>
    refine ⟨_, isWhole_ofNat _, .inr ⟨_, ?_, rfl⟩⟩
    intro x hx
    rcases List.mem_append.1 hx with hpad | hdigit
    · rw [List.eq_of_mem_replicate hpad]
      decide
    · exact isDigit_of_mem_ofNat hdigit

theorem mem_positional {t : Text} (ht : IsPositional t) : ∀ c ∈ t, c.isDigit ∨ c = '.' := by
  obtain ⟨w, ⟨-, -, -, hdigits, -⟩, hw⟩ := ht
  intro c hc
  rcases hw with rfl | ⟨f, hf, rfl⟩
  · exact .inl (hdigits c hc)
  · rcases List.mem_append.1 hc with hc | hc
    · exact .inl (hdigits c hc)
    · rcases List.mem_cons.1 hc with hc | hc
      · exact .inr hc
      · exact .inl (hf c hc)

theorem head_positional {t : Text} (ht : IsPositional t) : ∃ c r, t = c :: r ∧ c.isDigit := by
  obtain ⟨w, ⟨c, r, rfl, hdigits, -⟩, hw⟩ := ht
  have hc : c.isDigit := hdigits c List.mem_cons_self
  rcases hw with rfl | ⟨f, -, rfl⟩
  · exact ⟨c, r, rfl, hc⟩
  · exact ⟨c, r ++ '.' :: f, rfl, hc⟩

theorem eq_minus_of_mem_signText {s : Bool} {c : Char} (hc : c ∈ Binary64.signText s) :
    c = '-' := by
  cases s with
  | true => exact List.mem_singleton.1 hc
  | false => cases hc

/-- **A finite number is written positionally**, after a minus sign if it is negative. -/
theorem text_finite (s : Bool) (m : Binary64.Magnitude) :
    ∃ t, (Binary64.finite s m).text = Binary64.signText s ++ t ∧ IsPositional t := by
  refine ⟨_, rfl, ?_⟩
  split
  · exact ⟨['0'], isWhole_ofNat 0, .inl rfl⟩
  · exact isPositional_text _

/-! ## Texts that are no numbers -/

theorem trimEnd_cons {c : Char} (hc : Text.isBlank c = false) (t : Text) :
    ∃ u, Text.trimEnd (c :: t) = c :: u := by
  rw [Text.trimEnd, List.reverse_cons, List.dropWhile_append]
  split
  · exact ⟨[], by simp [hc]⟩
  · exact ⟨(t.reverse.dropWhile Text.isBlank).reverse, by simp⟩

/-- A text that begins with `E` is no number: no name of one does, and an exponent needs digits
before it. -/
theorem ofText_E (t : Text) : Binary64.ofText ('E' :: t) = .nan := by
  have hE : Text.isBlank 'E' = false := by decide
  obtain ⟨u, hu⟩ := trimEnd_cons hE t
  have htrim : Text.trim ('E' :: t) = 'E' :: u := by
    rw [Text.trim, List.dropWhile_cons_of_neg (by simp [hE]), hu]
  simp [Binary64.ofText, htrim, Numeral.ofText?, Numeral.splitSign, Numeral.infinityNames,
    Numeral.nanName, Numeral.decimal?, Numeral.splitDigits, Numeral.splitFraction]

end PocketCalc
