import Mathlib.Data.List.Infix
import PocketCalc.Proofs.Decimal.ReadBack

/-!
# Beginnings of a number's text

A text of which the end is cut off reads as another number (`not_sameValue_beginning`). A whole
number has lost a digit at least, and what is left is a tenth of it or less; a decimal with places
is left with fewer places than the shortest one, and no such decimal reads back.
-/

namespace PocketCalc

namespace Numeral

variable {t w f : Text}

/-- The beginning of some digits is worth a tenth of them at most. -/
theorem ten_mul_digitsValue_le {n : Nat} (h : t <+: Text.ofNat n) (hne : t ≠ Text.ofNat n) :
    10 * digitsValue t ≤ n := by
  obtain ⟨r, hr⟩ := h
  cases r with
  | nil => exact absurd (by simpa using hr) hne
  | cons c r =>
    have hvalue := digitsValue_ofNat n
    rw [← hr, digitsValue_append, List.length_cons, Nat.pow_succ] at hvalue
    have hten : 10 ≤ 10 ^ r.length * 10 := Nat.le_mul_of_pos_left _ (Nat.pow_pos (by decide))
    calc 10 * digitsValue t ≤ 10 ^ r.length * 10 * digitsValue t := Nat.mul_le_mul_right _ hten
      _ ≤ n := by omega

/-- The beginning of a number with a point reads as a decimal with fewer places. -/
theorem decimal?_beginning_point (hw : ∀ c ∈ w, c.isDigit) (hwhole : w ≠ [])
    (hf : ∀ c ∈ f, c.isDigit) (hplaces : 0 < f.length) (h : t <+: w ++ '.' :: f)
    (hne : t ≠ w ++ '.' :: f) (hnil : t ≠ []) :
    ∃ a j : Nat, decimal? t = some ⟨a, -j⟩ ∧ j < f.length := by
  rcases List.prefix_or_prefix_of_prefix h (List.prefix_append w ('.' :: f)) with hshort | ⟨r, rfl⟩
  · have hdigits : ∀ c ∈ t, c.isDigit := fun c hc => hw c (hshort.subset hc)
    exact ⟨_, 0, decimal?_digits hdigits hnil, hplaces⟩
  · cases r with
    | nil =>
      rw [List.append_nil]
      exact ⟨_, 0, decimal?_digits hw hwhole, hplaces⟩
    | cons c r =>
      obtain ⟨rfl, hr⟩ := List.cons_prefix_cons.1 ((List.prefix_append_right_inj w).1 h)
      have hshorter : r.length < f.length := by
        refine Nat.lt_of_le_of_ne hr.length_le fun heq => hne ?_
        rw [hr.eq_of_length heq]
      exact ⟨_, _, decimal?_point hw hwhole fun c hc => hf c (hr.subset hc), hshorter⟩

/-- **What a beginning of positional notation reads as**: a decimal with fewer places, or a whole
number of a tenth at most. -/
theorem decimal?_beginning {d : Decimal} (h : t <+: d.text) (hne : t ≠ d.text) (hnil : t ≠ []) :
    ∃ a j : Nat, decimal? t = some ⟨a, -j⟩ ∧
      (d.exponent < -j ∨ j = 0 ∧ ∃ n, d.written = ⟨n, 0⟩ ∧ 10 * a ≤ n) := by
  obtain ⟨c, e⟩ := d
  cases e with
  | ofNat e =>
    have hdigits : ∀ c ∈ t, c.isDigit := fun c hc => isDigit_of_mem_ofNat (h.subset hc)
    exact ⟨_, 0, decimal?_digits hdigits hnil, .inr ⟨rfl, _, rfl, ten_mul_digitsValue_le h hne⟩⟩
  | negSucc k =>
    have hpow : 0 < Nat.pow 10 (k + 1) := Nat.pow_pos (by omega)
    have hlength := (length_and_digitsValue_leftpad (Nat.mod_lt c hpow)).1
    obtain ⟨a, j, hread, hj⟩ := decimal?_beginning_point (fun _ => isDigit_of_mem_ofNat)
      (ofNat_ne_nil _) isDigit_of_mem_leftpad (by omega) h hne hnil
    refine ⟨a, j, hread, .inl ?_⟩
    simp only
    omega

end Numeral

namespace Binary64

/-- A quotient that is rounded to a number of the same value is rounded to its magnitude. -/
theorem roundToGrid_of_sameValue {s : Bool} {num den : Nat} {m : Magnitude}
    (h : SameValue (nearest s num den) (.finite s m)) : roundToGrid num den = m.units := by
  by_cases hlt : roundToGrid num den < limit
  · rw [nearest_of_lt s hlt] at h
    have hsigned : signed s ⟨_, onGrid_roundToGrid num den, hlt⟩ = signed s m := h
    cases s <;> simpa [signed] using hsigned
  · rw [nearest, dif_neg hlt] at h
    exact h.elim

/-- No decimal with fewer places than the shortest one reads back, nor does a whole number of a
tenth of it or less. -/
theorem not_sameValue_ofDecimal {s : Bool} {m : Magnitude} (hm : m.units ≠ 0) {a j : Nat}
    (h : m.shortest.exponent < -j ∨ j = 0 ∧ ∃ n, m.shortest.written = ⟨n, 0⟩ ∧ 10 * a ≤ n) :
    ¬ SameValue (ofDecimal s ⟨a, -j⟩) (.finite s m) := by
  intro hsame
  rw [ofDecimal_neg] at hsame
  have hround := roundToGrid_of_sameValue hsame
  rcases h with hfewer | ⟨rfl, n, hwritten, htenth⟩
  · obtain ⟨c, g, hshortest, -⟩ := m.reads_shortest
    have hexponent : m.shortest.exponent = g - unitExponent := by rw [hshortest]
    have := Magnitude.neg_le_exponent_shortest hm (by omega) hround
    omega
  · -- Rounding at most doubles or halves a number: that is no match for a missing digit.
    have hone := one_pos
    have hwhole : roundToGrid (n * one) 1 = m.units := by
      refine roundToGrid_of_sameValue (s := s) ?_
      rw [← ofDecimal_whole, ← hwritten, ofDecimal_shortest]
      exact sameValue_refl (by simp)
    have hpart : m.units * 1 ≤ 2 * (a * one) := hround ▸ roundToGrid_mul_le (a * one) Nat.one_pos
    have hall : n * one ≤ 2 * (roundToGrid (n * one) 1 * 1) :=
      le_two_mul_roundToGrid Nat.one_pos (by rwa [hwhole])
    have hmul : 10 * a * one ≤ n * one := Nat.mul_le_mul_right one htenth
    rw [hwhole] at hall
    rw [Nat.mul_assoc] at hmul
    omega

/-- A beginning of a text after a sign: nothing, the sign alone, or more. -/
theorem beginning_signText {s : Bool} {t u : Text} (h : t <+: signText s ++ u) :
    t = [] ∨ t = signText s ∨ ∃ v, v ≠ [] ∧ v <+: u ∧ t = signText s ++ v := by
  cases s with
  | false =>
    by_cases ht : t = []
    · exact .inl ht
    · exact .inr (.inr ⟨t, ht, h, rfl⟩)
  | true =>
    cases t with
    | nil => exact .inl rfl
    | cons c t =>
      obtain ⟨rfl, ht⟩ := List.cons_prefix_cons.1 h
      by_cases hnil : t = []
      · exact .inr (.inl (by rw [hnil]; rfl))
      · exact .inr (.inr ⟨t, hnil, ht, rfl⟩)

theorem ofText_signText_nil (s : Bool) : ofText (signText s) = .nan := by
  cases s <;> decide +kernel

/-- A beginning of positional notation is read like it, with the sign before it. -/
theorem ofText_beginning (s : Bool) {d : Decimal} {t : Text} (h : t <+: d.text) (hnil : t ≠ []) :
    ofText (signText s ++ t) = ((Numeral.decimal? t).map (ofDecimal s)).getD .nan := by
  obtain ⟨c, r, rfl⟩ := List.exists_cons_of_ne_nil hnil
  obtain ⟨c', r', htext, hc⟩ := head_positional (isPositional_text d)
  have hhead : c = c' := by
    rw [htext] at h
    exact (List.cons_prefix_cons.1 h).1
  rw [hhead] at h ⊢
  exact ofText_signText s hc fun x hx => mem_positional (isPositional_text d) x (h.subset hx)

/-- **No beginning of a number's text reads as the number.** -/
theorem not_sameValue_beginning {x : Binary64} {t : Text} (h : t <+: x.shown) (hne : t ≠ x.shown) :
    ¬ SameValue (ofText t) x := by
  have hnan : ofText t = .nan → ¬ SameValue (ofText t) x := by
    intro ht
    rw [ht]
    exact id
  cases x with
  | nan => cases ofText t <;> exact id
  | infinite s =>
    -- There are two texts of infinities, so each of their beginnings can be tried.
    have hcut : ∀ u ∈ (infinite s).shown.inits, u ≠ (infinite s).shown → ofText u = .nan := by
      cases s <;> decide +kernel
    exact hnan (hcut t ((List.mem_inits _ _).2 h) hne)
  | finite s m =>
    by_cases hm : m.units = 0
    · -- Zero has no shortest decimal and no sign; it is shown as one digit.
      have hshown : (finite s m).shown = ['0'] := by simp [shown, isZero, hm]
      rw [hshown] at h hne
      cases t with
      | nil => exact hnan (ofText_signText_nil false)
      | cons c t => simp_all
    · rw [shown_finite hm] at h hne
      rcases beginning_signText h with rfl | rfl | ⟨v, hnil, hv, rfl⟩
      · exact hnan (ofText_signText_nil false)
      · exact hnan (ofText_signText_nil s)
      · have hshort : v ≠ m.shortest.text := fun heq => hne (by rw [heq])
        obtain ⟨a, j, hread, hvalue⟩ := Numeral.decimal?_beginning hv hshort hnil
        rw [ofText_beginning s hv hnil, hread]
        exact not_sameValue_ofDecimal hm hvalue

end Binary64

end PocketCalc
