import PocketCalc.Proofs.Expression.TreeEvaluation

/-!
# Divisors

Terms are grouped to the left, so the right operand of `/` is never computed: it is the operand
that comes next (`Chain.divisorsAreLeaves_tree`). Whether an expression divides by zero can
therefore be read off its entries, without calculating anything: `evaluate_divisionByZero_iff`.
-/

namespace PocketCalc

variable {α : Type}

/-! ## The divisors of a tree -/

/-- Every divisor in the tree is a single operand. -/
def Tree.DivisorsAreLeaves : Tree α → Prop
  | .leaf _ => True
  | .node l o r => l.DivisorsAreLeaves ∧ r.DivisorsAreLeaves ∧ (o = .div → ∃ x, r = .leaf x)

/-- Nothing binds more tightly than a division. -/
theorem Operator.ne_div_of_precedence_lt {o p : Operator} (h : p.precedence < o.precedence) :
    p ≠ .div := by
  rintro rfl
  cases o <;> exact absurd h (by decide)

theorem Tree.DivisorsAreLeaves.extend {t : Tree α} (h : t.DivisorsAreLeaves) (o : Operator)
    (x : α) : (t.extend o x).DivisorsAreLeaves := by
  induction t with
  | leaf y => exact ⟨trivial, trivial, fun _ => ⟨x, rfl⟩⟩
  | node l p r _ ihr =>
    unfold Tree.extend
    split
    · rename_i hlt
      -- Only the right part of an addition or subtraction gets longer.
      exact ⟨h.1, ihr h.2.1, fun hp => absurd hp (Operator.ne_div_of_precedence_lt hlt)⟩
    · exact ⟨h, trivial, fun _ => ⟨x, rfl⟩⟩

/-- **A divisor is never computed**: it is the operand behind its `/`. -/
theorem Chain.divisorsAreLeaves_tree (c : Chain α) : c.tree.DivisorsAreLeaves := by
  obtain ⟨x, rest⟩ := c
  induction rest using List.reverseRecOn with
  | nil => trivial
  | append_singleton rest p ih =>
    rw [Chain.tree_concat]
    exact ih.extend p.1 p.2

/-! ## Divisions by zero -/

variable [Operand α]

/-- Some operand behind a `/` is zero. -/
def Chain.DividesByZero (c : Chain α) : Prop :=
  ∃ p ∈ c.rest, p.1 = .div ∧ Operand.isZero p.2 = true

theorem Tree.DivisorsAreLeaves.dividesByZero_iff {t : Tree α} (h : t.DivisorsAreLeaves) :
    t.DividesByZero ↔ t.chain.DividesByZero := by
  induction t with
  | leaf x => simp [Tree.DividesByZero, Tree.chain, Chain.DividesByZero]
  | node l o r ihl ihr =>
    have hroot : (o = .div ∧ Operand.isZero r.value = true) ↔
        (o = .div ∧ Operand.isZero r.chain.first = true) := by
      refine and_congr_right fun ho => ?_
      obtain ⟨x, rfl⟩ := h.2.2 ho
      exact Iff.rfl
    simp only [Tree.DividesByZero, ihl h.1, ihr h.2.1, hroot, Tree.chain, Chain.DividesByZero,
      List.mem_append, List.mem_cons, or_and_right, exists_or, exists_eq_left]
    exact or_congr_right or_comm

theorem Chain.dividesByZero_tree (c : Chain α) : c.tree.DividesByZero ↔ c.DividesByZero := by
  rw [c.divisorsAreLeaves_tree.dividesByZero_iff, c.chain_tree]

theorem Tree.outcome_eq_divisionByZero (t : Tree α) :
    t.outcome = .error .divisionByZero ↔ t.DividesByZero := by
  unfold Tree.outcome
  split
  · simpa
  · split <;> simpa

/-- Without a division by zero all steps are made, and only the value can be at fault. -/
theorem evaluate_of_not_dividesByZero {c : Chain Text}
    (hc : ∀ x ∈ c.operands, Operator.ofText? x = none)
    (hzero : ¬ (c.map (Operand.ofText : Text → α)).DividesByZero) :
    let t := (c.map (Operand.ofText : Text → α)).tree
    evaluate c.entries =
      if Operand.isFinite t.value then ⟨.ok t.value, t.steps⟩
      else ⟨.error (.nonFinite t.value), t.steps⟩ := by
  intro t
  have hsteps : ∀ s ∈ t.steps, ¬ s.DividesByZero :=
    Tree.not_dividesByZero_of_mem_steps (mt (Chain.dividesByZero_tree _).1 hzero)
  rw [evaluate_entries hc (Chain.isExpression_tree _), Evaluation.through_of_forall_not _ hsteps,
    List.append_nil]
  rfl

/-- **When an expression divides by zero**: exactly if the operand behind some `/` is a zero. It
does not matter what the other operands are, or whether a value gets too large. -/
theorem evaluate_divisionByZero_iff (c : Chain Text)
    (hc : ∀ x ∈ c.operands, Operator.ofText? x = none) :
    (evaluate c.entries : Evaluation α).outcome = .error .divisionByZero ↔
      ∃ p ∈ c.rest, p.1 = .div ∧ Operand.isZero (Operand.ofText p.2 : α) = true := by
  rw [outcome_evaluate_entries hc (Chain.isExpression_tree _), Tree.outcome_eq_divisionByZero,
    Chain.dividesByZero_tree]
  simp [Chain.DividesByZero, Chain.map]

/-- `Error * 1e999 / -1e-400 - 2`: neither an operand that is no number nor an infinite one hides
the division by what rounds to negative zero. -/
theorem evaluate_underflow_divisionByZero :
    let c : Chain Text := ⟨"Error".toList,
      [(.mul, "1e999".toList), (.div, "-1e-400".toList), (.sub, "2".toList)]⟩
    (∀ x ∈ c.operands, Operator.ofText? x = none) ∧
      (Operand.ofText "-1e-400".toList : Binary64) = .neg .zero ∧
      (evaluate c.entries : Evaluation Binary64).outcome = .error .divisionByZero := by
  intro c
  have hc : ∀ x ∈ c.operands, Operator.ofText? x = none := by decide
  have hzero : (Operand.ofText "-1e-400".toList : Binary64) = .neg .zero := by decide +kernel
  refine ⟨hc, hzero, (evaluate_divisionByZero_iff c hc).2 ?_⟩
  exact ⟨(.div, "-1e-400".toList), by simp [c], rfl, by rw [hzero]; rfl⟩

end PocketCalc
