import PocketCalc.Proofs.Decimal.IntegerText
import PocketCalc.Proofs.Expression.Finiteness

/-!
# Integer expressions

Expressions can be read over the integers as well: their texts are digits behind an optional sign,
and their trees have exact values. A tree is exact if its divisions leave no remainder and none of
its values exceeds `exactLimit`. Binary arithmetic calculates such a tree without rounding, and the
display shows its value digit for digit: `evaluate_integers`.
-/

namespace PocketCalc

open Binary64

/-- Integers as operands. A text that spells none counts as zero. -/
instance : Operand Int where
  ofText x := (Numeral.integer? x).getD 0
  text := Text.ofInt
  isZero k := k == 0
  isFinite _ := true

/-- The text of an integer as it is keyed in: digits, with or without a minus sign before them. -/
def IsIntegerText (x : Text) : Prop :=
  ∃ (negative : Bool) (digits : Text),
    x = signText negative ++ digits ∧ digits ≠ [] ∧ ∀ c ∈ digits, c.isDigit

namespace Tree

/-- No operand and no value in the tree exceeds `exactLimit`, and no division has the divisor zero
or leaves a remainder. -/
def IsExact : Tree Int → Prop
  | .leaf k => k.natAbs ≤ exactLimit
  | .node l o r =>
    l.IsExact ∧ r.IsExact ∧ (o = .div → r.value ≠ 0 ∧ r.value ∣ l.value) ∧
      (o.compute l.value r.value).natAbs ≤ exactLimit

instance decidableIsExact : (t : Tree Int) → Decidable t.IsExact
  | .leaf _ => inferInstanceAs (Decidable (_ ≤ _))
  | .node l _ r =>
    have := decidableIsExact l
    have := decidableIsExact r
    inferInstanceAs (Decidable (_ ∧ _ ∧ _ ∧ _))

theorem IsExact.value {t : Tree Int} (h : t.IsExact) : t.value.natAbs ≤ exactLimit := by
  cases t with
  | leaf k => exact h
  | node l o r => exact h.2.2.2

theorem IsExact.operands {t : Tree Int} (h : t.IsExact) :
    ∀ k ∈ t.chain.operands, k.natAbs ≤ exactLimit := by
  induction t with
  | leaf k => exact List.forall_mem_singleton.2 h
  | node l o r ihl ihr =>
    rw [operands_node, List.forall_mem_append]
    exact ⟨ihl h.1, ihr h.2.1⟩

end Tree

/-! ## Operands -/

/-- An integer is read as the same number over the integers and in binary, up to the sign of
zero. -/
theorem IsIntegerText.isInteger {x : Text} (h : IsIntegerText x)
    (hsmall : (Operand.ofText x : Int).natAbs ≤ exactLimit) :
    (Operand.ofText x : Binary64).IsInteger (Operand.ofText x) := by
  obtain ⟨s, digits, rfl, hne, hdigits⟩ := h
  obtain ⟨c, r, rfl⟩ := List.exists_cons_of_ne_nil hne
  have hc : c.isDigit := hdigits c List.mem_cons_self
  have hinteger : (Operand.ofText (signText s ++ c :: r) : Int) =
      if s then -(Numeral.digitsValue (c :: r) : Int) else Numeral.digitsValue (c :: r) := by
    change (Numeral.integer? (signText s ++ c :: r)).getD 0 = _
    rw [Numeral.integer?, Numeral.splitSign_signText s hc]
    simp only [List.all_eq_true.2 hdigits, ↓reduceIte, Option.getD_some]
  have hbinary : (Operand.ofText (signText s ++ c :: r) : Binary64) =
      nearest s (Numeral.digitsValue (c :: r) * one) 1 := by
    change Binary64.ofText _ = _
    rw [ofText_signText s hc fun x hx => .inl (hdigits x hx), Numeral.decimal?_digits hdigits hne]
    exact ofDecimal_whole s _
  rw [hinteger] at hsmall ⊢
  rw [hbinary]
  generalize Numeral.digitsValue (c :: r) = n at hsmall ⊢
  have habs : (if s then -(n : Int) else n).natAbs = n := by
    cases s <;> simp
  have hsign (h : (if s then -(n : Int) else n) ≠ 0) :
      s = decide ((if s then -(n : Int) else n) < 0) := by
    cases s with
    | true =>
      simp at h ⊢
      omega
    | false => simp
  have hnearest := isInteger_nearest hsmall hsign
  rwa [habs] at hnearest

theorem Operator.isInteger_compute {o : Operator} {x y : Binary64} {a b : Int}
    (hx : x.IsInteger a) (hy : y.IsInteger b) (hdiv : o = .div → b ≠ 0 ∧ b ∣ a)
    (h : (o.compute a b).natAbs ≤ exactLimit) : (o.compute x y).IsInteger (o.compute a b) := by
  cases o with
  | add => exact hx.add hy h
  | sub => exact hx.sub hy h
  | mul => exact hx.mul hy h
  | div => exact hx.div hy (hdiv rfl).1 (hdiv rfl).2 h

/-! ## Expressions -/

/-- **An exact tree is calculated exactly**, and without a division by zero. -/
theorem Tree.isInteger_value {t : Tree Text} (htext : ∀ x ∈ t.chain.operands, IsIntegerText x)
    (hexact : (t.map (Operand.ofText : Text → Int)).IsExact) :
    ¬ (t.map (Operand.ofText : Text → Binary64)).DividesByZero ∧
      (t.map (Operand.ofText : Text → Binary64)).value.IsInteger
        (t.map (Operand.ofText : Text → Int)).value := by
  induction t with
  | leaf x => exact ⟨id, (htext x (by simp [chain, Chain.operands])).isInteger hexact⟩
  | node l o r ihl ihr =>
    rw [operands_node, List.forall_mem_append] at htext
    obtain ⟨hl, hr, hdiv, hsmall⟩ := hexact
    obtain ⟨hzl, hvl⟩ := ihl htext.1 hl
    obtain ⟨hzr, hvr⟩ := ihr htext.2 hr
    refine ⟨?_, Operator.isInteger_compute hvl hvr hdiv hsmall⟩
    rintro (hz | hz | ⟨ho, hz⟩)
    · exact hzl hz
    · exact hzr hz
    · exact (hdiv ho).1 (hvr.isZero_iff.1 hz)

/-- **Integers are calculated exactly.** If the operands are integers, no division leaves a
remainder, and neither an operand nor a value in the tree exceeds `2 ^ 53`, then there is a result:
the exact value of the tree, and it is shown by its decimal digits. -/
theorem evaluate_integers (c : Chain Text) (hc : ∀ x ∈ c.operands, IsIntegerText x) {t : Tree Int}
    (ht : IsExpression (c.map Operand.ofText).tokens t) (hexact : t.IsExact) :
    ∃ v : Binary64, (evaluate c.entries).outcome = .ok v ∧ v.IsInteger t.value ∧
      v.shownResult = Text.ofInt t.value := by
  -- An operator symbol spells no number, and every operand is a finite one.
  have hoperators : ∀ x ∈ c.operands, Operator.ofText? x = none := by
    intro x hx
    have hsmall : (Operand.ofText x : Int).natAbs ≤ exactLimit := by
      refine hexact.operands _ ?_
      rw [ht.chain_eq, Chain.operands_map]
      exact List.mem_map_of_mem hx
    exact ofText?_of_isFinite ((hc x hx).isInteger hsmall).isFinite
  obtain rfl : t = c.tree.map Operand.ofText := by
    rw [← Chain.tree_map]
    exact ht.unique (Chain.isExpression_tree _)
  have htext : ∀ x ∈ c.tree.chain.operands, IsIntegerText x := by rwa [c.chain_tree]
  obtain ⟨hzero, hvalue⟩ := Tree.isInteger_value htext hexact
  refine ⟨_, ?_, hvalue, hvalue.shownResult hexact.value⟩
  rw [outcome_evaluate_entries hoperators (Chain.isExpression_tree _), Chain.tree_map,
    Tree.outcome, if_neg hzero]
  exact if_pos hvalue.isFinite

/-- `0 * -5 + 9007199254740991 / -1 - 01`: the product is a negative zero, and the difference is
`-2 ^ 53`. -/
theorem evaluate_integers_to_limit :
    let c : Chain Text := ⟨"0".toList, [(.mul, "-5".toList), (.add, "9007199254740991".toList),
      (.div, "-1".toList), (.sub, "01".toList)]⟩
    let t := (c.map (Operand.ofText : Text → Int)).tree
    (∀ x ∈ c.operands, IsIntegerText x) ∧ IsExpression (c.map Operand.ofText).tokens t ∧
      t.IsExact ∧ t.value = -2 ^ 53 ∧
      ∃ v : Binary64, (evaluate c.entries).outcome = .ok v ∧ v.IsInteger t.value ∧
        v.shownResult = "-9007199254740992".toList := by
  intro c t
  have hc : ∀ x ∈ c.operands, IsIntegerText x := by
    simp only [c, Chain.operands, List.map_cons, List.map_nil, List.forall_mem_cons]
    have htext (negative : Bool) (digits : Text) (hne : digits ≠ [])
        (hdigits : digits.all Char.isDigit = true) : IsIntegerText (signText negative ++ digits) :=
      ⟨negative, digits, rfl, hne, List.all_eq_true.1 hdigits⟩
    exact ⟨htext false ['0'] (by simp) rfl, htext true ['5'] (by simp) rfl,
      htext false "9007199254740991".toList (by simp) rfl, htext true ['1'] (by simp) rfl,
      htext false ['0', '1'] (by simp) rfl, by simp⟩
  have ht : IsExpression (c.map Operand.ofText).tokens t := Chain.isExpression_tree _
  have hexact : t.IsExact := by decide +kernel
  have hvalue : t.value = -2 ^ 53 := by decide +kernel
  obtain ⟨v, hout, hv, hshown⟩ := evaluate_integers c hc ht hexact
  refine ⟨hc, ht, hexact, hvalue, v, hout, hv, hshown.trans ?_⟩
  decide +kernel

end PocketCalc
