import PocketCalc.Proofs.Binary64.Nearest
import PocketCalc.Proofs.Decimal.FewestPlaces
import PocketCalc.Proofs.Decimal.NumberText
import PocketCalc.Proofs.Text.Unwords

/-!
# Numbers read back

Reading a decimal gives the number nearest to it; that very large and very small exponents are cut
off makes no difference (`ofDecimal_places`). A decimal in positional notation is read as the same
decimal (`decimal?_text`). So a number is read back from its text (`ofText_text`), since the
shortest decimal is one that reads back, and from what the display shows up to the sign of zero
(`ofText_shown`).
-/

namespace PocketCalc

namespace Binary64

/-! ## The number nearest to a decimal -/

/-- A decimal that is cut off is less than half the smallest number, since `8 < 10`. -/
theorem two_mul_lt_of_cutoff {c k : Nat} (h : 400 + c.log2 < k) :
    2 * (c * one) < Nat.pow 10 k := by
  have hc : c < 2 ^ (c.log2 + 1) := Nat.lt_log2_self
  have hexponent : c.log2 + 2 + unitExponent ≤ 3 * k := by
    rw [unitExponent]
    omega
  calc 2 * (c * one) < 2 * (2 ^ (c.log2 + 1) * one) :=
        Nat.mul_lt_mul_of_pos_left (Nat.mul_lt_mul_of_pos_right hc one_pos) (by omega)
    _ = 2 ^ (c.log2 + 2 + unitExponent) := by
        rw [one, Nat.pow_eq]
        ring
    _ ≤ 2 ^ (3 * k) := Nat.pow_le_pow_right (by omega) hexponent
    _ = 8 ^ k := Nat.pow_mul 2 3 k
    _ ≤ 10 ^ k := Nat.pow_le_pow_left (by omega) k

theorem ofDecimal_whole (negative : Bool) (n : Nat) :
    ofDecimal negative ⟨n, 0⟩ = nearest negative (n * one) 1 := by
  by_cases hn : n = 0
  · simp [ofDecimal, hn]
  · have hlarge : ¬ (400 : Int) < 0 := by decide
    have hcut : ¬ (0 : Int) < -(400 + n.log2 : Nat) := by omega
    rw [ofDecimal, if_neg hn, if_neg hlarge, if_neg hcut]
    simp

/-- **A decimal with places is read as the number nearest to it**, however many places it has. -/
theorem ofDecimal_places (negative : Bool) (c k : Nat) :
    ofDecimal negative ⟨c, .negSucc k⟩ = nearest negative (c * one) (Nat.pow 10 (k + 1)) := by
  have hzero : roundToGrid 0 1 = 0 := roundToGrid_eq_zero (by omega)
  have hpow : 0 < Nat.pow 10 (k + 1) := Nat.pow_pos (by omega)
  by_cases hc : c = 0
  · rw [ofDecimal, if_pos hc]
    refine nearest_congr negative ?_
    rw [hzero, roundToGrid_eq_zero (by rw [hc]; omega)]
  · have hlarge : ¬ (400 : Int) < .negSucc k := by omega
    rw [ofDecimal, if_neg hc, if_neg hlarge]
    split
    · -- What is cut off as zero is less than half of the smallest number.
      rename_i hcut
      have hsmall : 400 + c.log2 < k + 1 := by
        simp only [Int.negSucc_eq] at hcut
        omega
      refine nearest_congr negative ?_
      rw [hzero, roundToGrid_eq_zero (two_mul_lt_of_cutoff hsmall)]
    · rfl

theorem ofDecimal_neg (negative : Bool) (c j : Nat) :
    ofDecimal negative ⟨c, -j⟩ = nearest negative (c * one) (Nat.pow 10 j) := by
  cases j with
  | zero => exact ofDecimal_whole negative c
  | succ k => exact ofDecimal_places negative c k

end Binary64

/-! ## Positional notation -/

/-- The decimal as positional notation spells it: the zeros that a positive exponent stands for
are written out. -/
def Decimal.written : Decimal → Decimal
  | ⟨c, .ofNat e⟩ => ⟨c * Nat.pow 10 e, 0⟩
  | ⟨c, .negSucc k⟩ => ⟨c, .negSucc k⟩

namespace Numeral

theorem splitDigits_append (w rest : Text) (hw : ∀ c ∈ w, c.isDigit)
    (hrest : ∀ c, rest.head? = some c → c.isDigit = false) :
    splitDigits (w ++ rest) = (w, rest) := by
  have htake : rest.takeWhile Char.isDigit = [] := by
    cases rest with
    | nil => rfl
    | cons c r => simp [hrest c rfl]
  have hdrop : rest.dropWhile Char.isDigit = rest := by
    cases rest with
    | nil => rfl
    | cons c r => simp [hrest c rfl]
  rw [splitDigits, List.takeWhile_append_of_pos hw, List.dropWhile_append_of_pos hw, htake, hdrop,
    List.append_nil]

/-- Digits, and after them nothing or a point and digits. -/
theorem decimal?_of_split {t w rest f : Text} (hwhole : splitDigits t = (w, rest))
    (hfraction : splitFraction rest = (f, [])) (hne : w ≠ []) :
    decimal? t = some ⟨digitsValue (w ++ f), -f.length⟩ := by
  simp [decimal?, hwhole, hfraction, exponent?, hne]

theorem decimal?_digits {w : Text} (hw : ∀ c ∈ w, c.isDigit) (hne : w ≠ []) :
    decimal? w = some ⟨digitsValue w, 0⟩ := by
  have hsplit := splitDigits_append w [] hw (by simp)
  rw [List.append_nil] at hsplit
  rw [decimal?_of_split hsplit rfl hne, List.append_nil]
  rfl

theorem decimal?_point {w f : Text} (hw : ∀ c ∈ w, c.isDigit) (hne : w ≠ [])
    (hf : ∀ c ∈ f, c.isDigit) :
    decimal? (w ++ '.' :: f) = some ⟨digitsValue (w ++ f), -f.length⟩ := by
  have hfraction := splitDigits_append f [] hf (by simp)
  rw [List.append_nil] at hfraction
  exact decimal?_of_split (splitDigits_append w ('.' :: f) hw (by simp)) hfraction hne

/-- **Positional notation is read as it was written.** -/
theorem decimal?_text (d : Decimal) : decimal? d.text = some d.written := by
  obtain ⟨c, e⟩ := d
  cases e with
  | ofNat e =>
    rw [Decimal.text, decimal?_digits (fun _ => isDigit_of_mem_ofNat) (ofNat_ne_nil _),
      digitsValue_ofNat]
    rfl
  | negSucc k =>
    have hpow : 0 < Nat.pow 10 (k + 1) := Nat.pow_pos (by omega)
    obtain ⟨hlen, hvalue⟩ := length_and_digitsValue_leftpad (Nat.mod_lt c hpow)
    have hcoefficient : 10 ^ (k + 1) * (c / Nat.pow 10 (k + 1)) + c % Nat.pow 10 (k + 1) = c :=
      Nat.div_add_mod c _
    rw [Decimal.text, decimal?_point (fun _ => isDigit_of_mem_ofNat) (ofNat_ne_nil _)
      isDigit_of_mem_leftpad, digitsValue_append, hlen, hvalue, digitsValue_ofNat, hcoefficient]
    rfl

/-! ## Texts that begin with a digit -/

theorem toLower_of_isDigit {c : Char} (hc : c.isDigit) : c.toLower = c := by
  have hrange : c.val ≤ '9'.val := by
    simpa using (Bool.and_eq_true_iff.1 hc).2
  have hupper : ¬ (c.val ≥ 'A'.val ∧ c.val ≤ 'Z'.val) := by
    rintro ⟨hA, -⟩
    exact absurd (UInt32.le_trans hA hrange) (by decide)
  exact dif_neg hupper

theorem splitSign_signText (s : Bool) {c : Char} (hc : c.isDigit) (r : Text) :
    splitSign (Binary64.signText s ++ c :: r) = (s, c :: r) := by
  cases s with
  | true => rfl
  | false =>
    have hminus : c ≠ '-' := by
      rintro rfl
      exact absurd hc (by decide)
    have hplus : c ≠ '+' := by
      rintro rfl
      exact absurd hc (by decide)
    simp [Binary64.signText, splitSign, hminus, hplus]

theorem ofText?_signText (s : Bool) {c : Char} (hc : c.isDigit) (r : Text) :
    ofText? (Binary64.signText s ++ c :: r) = (decimal? (c :: r)).map (.decimal s) := by
  have hname : ∀ name ∈ nanName :: infinityNames, (c :: r).map Char.toLower ≠ name := by
    intro name hmem heq
    have hhead : ∀ name ∈ nanName :: infinityNames, name.head?.all Char.isDigit = false := by
      decide
    have hletter := hhead name hmem
    rw [← heq, List.map_cons, List.head?_cons, Option.all_some, toLower_of_isDigit hc, hc]
      at hletter
    cases hletter
  have hinfinity : (c :: r).map Char.toLower ∉ infinityNames := fun hmem =>
    hname _ (List.mem_cons_of_mem _ hmem) rfl
  rw [ofText?, splitSign_signText s hc]
  simp only [if_neg hinfinity, if_neg (hname nanName List.mem_cons_self)]

end Numeral

namespace Binary64

/-! ## Numbers and their texts -/

/-- A text of digits and points is read as a number without a sign, or with the one before it. -/
theorem ofText_signText (s : Bool) {c : Char} (hc : c.isDigit) {r : Text}
    (hr : ∀ x ∈ c :: r, x.isDigit ∨ x = '.') :
    ofText (signText s ++ c :: r) = ((Numeral.decimal? (c :: r)).map (ofDecimal s)).getD .nan := by
  have hword : Text.IsWord (signText s ++ c :: r) := by
    refine ⟨by simp, fun x hx => ?_⟩
    rcases List.mem_append.1 hx with hsign | htext
    · rw [eq_minus_of_mem_signText hsign]
      decide
    · rcases hr x htext with hdigit | rfl
      · exact Text.isBlank_of_isDigit hdigit
      · decide
  have htrim : Text.trim (signText s ++ c :: r) = signText s ++ c :: r := by
    simpa [Text.unwords, Text.join] using Text.trim_unwords (List.forall_mem_singleton.2 hword)
  rw [ofText, htrim, Numeral.ofText?_signText s hc, Option.map_map]
  rfl

/-- The signed decimal is read as the number nearest to it. -/
theorem ofText_decimal (s : Bool) (d : Decimal) :
    ofText (signText s ++ d.text) = ofDecimal s d.written := by
  have hpositional := isPositional_text d
  obtain ⟨c, r, hcr, hc⟩ := head_positional hpositional
  have htext := mem_positional hpositional
  rw [hcr] at htext
  rw [hcr, ofText_signText s hc htext, ← hcr, Numeral.decimal?_text]
  rfl

theorem Magnitude.fineness_mul_one : Magnitude.fineness * one = Nat.pow 10 unitExponent :=
  (Nat.mul_pow 5 2 unitExponent).symm

theorem Magnitude.reads_whole {m : Magnitude} {c e : Nat} :
    m.Reads (c * Nat.pow 10 (unitExponent + e)) ↔
      roundToGrid (c * Nat.pow 10 e * one) 1 = m.units := by
  have hscaled : c * Nat.pow 10 (unitExponent + e) = fineness * (c * Nat.pow 10 e * one) := by
    rw [Nat.mul_left_comm, fineness_mul_one]
    simp only [Nat.pow_eq, Nat.pow_add 10 unitExponent]
    ac_rfl
  rw [Reads, hscaled, roundToGrid_mul_self fineness_pos]

theorem Magnitude.reads_places {m : Magnitude} {c g k : Nat} (hk : unitExponent = g + k) :
    m.Reads (c * Nat.pow 10 g) ↔ roundToGrid (c * one) (Nat.pow 10 k) = m.units := by
  have hscaled : fineness * (c * one) = Nat.pow 10 k * (c * Nat.pow 10 g) := by
    rw [Nat.mul_left_comm, fineness_mul_one, hk]
    simp only [Nat.pow_eq, Nat.pow_add 10 g]
    ac_rfl
  have hpow : 0 < Nat.pow 10 k := Nat.pow_pos (by omega)
  rw [Reads, ← roundToGrid_mul_left fineness_pos (c * one), hscaled, Nat.mul_comm fineness,
    roundToGrid_mul_left hpow]

/-- If a decimal with some places is rounded to the magnitude, the shortest one has no more
places. -/
theorem Magnitude.neg_le_exponent_shortest {m : Magnitude} (hm : m.units ≠ 0) {c k : Nat}
    (hk : k ≤ unitExponent) (h : roundToGrid (c * one) (Nat.pow 10 k) = m.units) :
    -(k : Int) ≤ m.shortest.exponent := by
  have hreads : m.Reads (c * Nat.pow 10 (unitExponent - k)) :=
    (Magnitude.reads_places (by omega)).2 h
  have := exponent_le_shortest hm hreads
  omega

/-- **The shortest decimal reads back**, however its zeros are written. -/
theorem ofDecimal_shortest (s : Bool) (m : Magnitude) :
    ofDecimal s m.shortest.written = .finite s m := by
  obtain ⟨c, g, hshortest, hreads⟩ := m.reads_shortest
  rw [hshortest]
  rcases Nat.lt_or_ge g unitExponent with hlt | hge
  · obtain ⟨k, hk⟩ : ∃ k, unitExponent = g + (k + 1) := ⟨unitExponent - g - 1, by omega⟩
    have hexponent : (g : Int) - unitExponent = .negSucc k := by omega
    rw [hexponent, Decimal.written, ofDecimal_places]
    exact nearest_eq_finite s ((Magnitude.reads_places hk).1 hreads)
  · obtain ⟨e, rfl⟩ : ∃ e, g = unitExponent + e := ⟨g - unitExponent, by omega⟩
    have hexponent : ((unitExponent + e : Nat) : Int) - unitExponent = .ofNat e := by simp
    rw [hexponent, Decimal.written, ofDecimal_whole]
    exact nearest_eq_finite s (Magnitude.reads_whole.1 hreads)

/-- **Every number is read back from its text**, the sign of a zero included. -/
theorem ofText_text (x : Binary64) : ofText x.text = x := by
  cases x with
  | nan => decide +kernel
  | infinite s => cases s <;> decide +kernel
  | finite s m =>
    by_cases hzero : m.units = 0
    · have htext : (finite s m).text = signText s ++ (⟨0, 0⟩ : Decimal).text := by
        rw [text, if_pos hzero]
        rfl
      have hwritten : (⟨0, 0⟩ : Decimal).written = ⟨0, 0⟩ := rfl
      have hround : roundToGrid (0 * one) 1 = m.units := by
        rw [hzero, roundToGrid_eq_zero (by omega)]
      rw [htext, ofText_decimal, hwritten, ofDecimal_whole, nearest_eq_finite s hround]
    · rw [text, if_neg hzero, ofText_decimal, ofDecimal_shortest]

theorem shown_finite {s : Bool} {m : Magnitude} (hm : m.units ≠ 0) :
    (finite s m).shown = signText s ++ m.shortest.text := by
  simp [shown, isZero, text, hm]

/-- What the display shows is read as the number shown, except that both zeros are positive. -/
theorem ofText_shown (x : Binary64) : ofText x.shown = if x.isZero then .zero else x := by
  rw [shown]
  split
  · decide +kernel
  · exact ofText_text x

/-- The numbers are equal as numbers: zeros of both signs are, and `nan` is equal to nothing. -/
def SameValue : Binary64 → Binary64 → Prop
  | .finite s m, .finite t n => signed s m = signed t n
  | .infinite s, .infinite t => s = t
  | _, _ => False

theorem sameValue_refl {x : Binary64} (h : x ≠ .nan) : SameValue x x := by
  cases x with
  | nan => exact absurd rfl h
  | infinite => rfl
  | finite => rfl

theorem sameValue_zero {x : Binary64} (h : x.isZero = true) : SameValue .zero x := by
  cases x with
  | nan | infinite => cases h
  | finite s m =>
    have hunits : m.units = 0 := by simpa [isZero] using h
    simp [zero, SameValue, signed, hunits]

/-- A number that is shown and read again is the same number. -/
theorem sameValue_ofText_shown {x : Binary64} (h : x ≠ .nan) : SameValue (ofText x.shown) x := by
  rw [ofText_shown]
  split
  · rename_i hzero
    exact sameValue_zero hzero
  · exact sameValue_refl h

end Binary64

end PocketCalc
