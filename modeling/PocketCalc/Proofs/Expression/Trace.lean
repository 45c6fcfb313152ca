import PocketCalc.Proofs.Expression.Balance
import PocketCalc.Proofs.Expression.Divisors

/-!
# The trace of an evaluation

An operator is carried out when a later one releases it, so the order of the steps depends on
operators still to come. All the same it can be read off the tree: the steps are its inner nodes,
those of the left part first, then those of the right part, then the node itself, up to the first
division by zero (`evaluate_trace`).
-/

namespace PocketCalc

variable {α : Type}

/-! ## The inner nodes of a tree -/

/-- An inner node of a tree. -/
structure Node (α : Type) where
  left : Tree α
  operator : Operator
  right : Tree α

def Tree.nodes : Tree α → List (Node α)
  | .leaf _ => []
  | .node l o r => l.nodes ++ r.nodes ++ [⟨l, o, r⟩]

theorem Tree.length_nodes (t : Tree α) : t.nodes.length = t.chain.rest.length := by
  induction t with
  | leaf x => rfl
  | node l o r ihl ihr =>
    simp only [nodes, chain, List.length_append, List.length_cons, List.length_nil, ihl, ihr]
    omega

variable [Operand α]

namespace Node

def value (n : Node α) : α :=
  n.operator.compute n.left.value n.right.value

/-- The operation of the node in words: the values of its parts and the operator between them. -/
def operation (n : Node α) : Text :=
  Operand.text n.left.value ++ [' ', n.operator.symbol, ' '] ++ Operand.text n.right.value

/-- Whether the node is a division whose divisor is zero. -/
def DividesByZero (n : Node α) : Prop :=
  n.operator = .div ∧ Operand.isZero n.right.value = true

instance (n : Node α) : Decidable n.DividesByZero :=
  inferInstanceAs (Decidable (_ ∧ _))

def step (n : Node α) : Step α :=
  ⟨n.left.value, n.operator, n.right.value, n.value⟩

end Node

theorem Tree.steps_eq_nodes (t : Tree α) : t.steps = t.nodes.map Node.step := by
  induction t with
  | leaf x => rfl
  | node l o r ihl ihr => simp [steps, nodes, ihl, ihr, Node.step, Node.value]

/-- The step made last computes the whole tree. -/
theorem Tree.getLast?_steps {t : Tree α} (h : t.chain.rest ≠ []) :
    t.steps.getLast?.map Step.result = some t.value := by
  cases t with
  | leaf x => exact absurd rfl h
  | node l o r => simp [steps, value]

/-! ## The steps of an evaluation -/

namespace Evaluation

/-- Steps to go through are made up to the first division by zero. -/
theorem steps_through {e : Evaluation α} (he : e.steps = []) (ss : List (Step α)) :
    (e.through ss).steps = ss.takeWhile fun s => ¬ s.DividesByZero := by
  induction ss with
  | nil => exact he
  | cons s ss ih =>
    by_cases hs : s.DividesByZero
    · simp [through, hs, fail]
    · simp [through, hs, after, ih]

theorem steps_requireFinite (e : Evaluation α) : e.requireFinite.steps = e.steps := by
  unfold requireFinite
  split
  · split <;> rfl
  · rfl

end Evaluation

variable {c : Chain Text} {t : Tree α}

theorem steps_evaluate_entries (hc : ∀ x ∈ c.operands, Operator.ofText? x = none)
    (ht : IsExpression (c.map Operand.ofText).tokens t) :
    (evaluate c.entries : Evaluation α).steps = t.steps.takeWhile fun s => ¬ s.DividesByZero := by
  rw [evaluate_entries hc ht, Evaluation.steps_requireFinite, Evaluation.steps_through rfl]

/-- Unless there is a division by zero, all steps of the tree are made. -/
theorem steps_evaluate_of_ne (hc : ∀ x ∈ c.operands, Operator.ofText? x = none)
    (ht : IsExpression (c.map Operand.ofText).tokens t)
    (h : (evaluate c.entries : Evaluation α).outcome ≠ .error .divisionByZero) :
    (evaluate c.entries : Evaluation α).steps = t.steps := by
  rw [outcome_evaluate_entries hc ht, ne_eq, Tree.outcome_eq_divisionByZero] at h
  rw [evaluate_entries hc ht, Evaluation.steps_requireFinite,
    Evaluation.through_of_forall_not _ (Tree.not_dividesByZero_of_mem_steps h), List.append_nil]

theorem length_steps_of_isExpression (ht : IsExpression (c.map Operand.ofText).tokens t) :
    t.steps.length = c.rest.length := by
  rw [t.steps_eq_nodes, List.length_map, t.length_nodes, ht.chain_eq]
  simp [Chain.map]

/-- The value returned, or reported as not finite, is that of the tree. -/
theorem Tree.value_of_outcome {v : α} (h : t.outcome = .ok v ∨ t.outcome = .error (.nonFinite v)) :
    t.value = v := by
  unfold outcome at h
  split at h
  · simp at h
  · split at h <;> simpa using h

/-- The last step computes the value returned, or reported as not finite. -/
theorem getLast?_steps_evaluate (hc : ∀ x ∈ c.operands, Operator.ofText? x = none)
    (hrest : c.rest ≠ []) {v : α}
    (h : (evaluate c.entries : Evaluation α).outcome = .ok v ∨
      (evaluate c.entries : Evaluation α).outcome = .error (.nonFinite v)) :
    (evaluate c.entries : Evaluation α).steps.getLast?.map Step.result = some v := by
  have ht := Chain.isExpression_tree (c.map (Operand.ofText : Text → α))
  have hne : (evaluate c.entries : Evaluation α).outcome ≠ .error .divisionByZero := by
    rcases h with h | h <;> simp [h]
  rw [outcome_evaluate_entries hc ht] at h
  rw [steps_evaluate_of_ne hc ht hne, Tree.getLast?_steps, Tree.value_of_outcome h]
  rw [Chain.chain_tree]
  simpa [Chain.map] using hrest

/-- A result comes with a step for each operator, and the last one has it for its result. -/
theorem steps_of_evaluate_ok {v : α} (h : (evaluate c.entries : Evaluation α).outcome = .ok v) :
    let ss := (evaluate c.entries : Evaluation α).steps
    ss.length = c.rest.length ∧ (c.rest ≠ [] → ss.getLast?.map Step.result = some v) := by
  intro ss
  have hc := Chain.not_operator_of_evaluate_ok h
  have ht := Chain.isExpression_tree (c.map (Operand.ofText : Text → α))
  have hss : ss = (c.map (Operand.ofText : Text → α)).tree.steps :=
    steps_evaluate_of_ne hc ht (by simp [h])
  exact ⟨by rw [hss, length_steps_of_isExpression ht],
    fun hrest => getLast?_steps_evaluate hc hrest (.inl h)⟩

/-- **The trace is the tree in postorder.** Of the tree of the operands' values the steps of an
evaluation are the inner nodes, each with the values of its parts in words and with its own value,
up to the first division by zero. Unless there is one, there is a step for each operator; the
result of the last step is the value returned, or reported as not finite. Without details the
outcome is the same, and no steps are kept. -/
theorem evaluate_trace (c : Chain Text) (hc : ∀ x ∈ c.operands, Operator.ofText? x = none)
    {t : Tree α} (ht : IsExpression (c.map Operand.ofText).tokens t) :
    let e : Evaluation α := evaluate c.entries
    (e.steps.map fun s => (s.operation, s.result)) =
        ((t.nodes.takeWhile fun n => ¬ n.DividesByZero).map fun n => (n.operation, n.value)) ∧
      (e.outcome ≠ .error .divisionByZero → e.steps.length = c.rest.length) ∧
      (∀ v, c.rest ≠ [] → e.outcome = .ok v ∨ e.outcome = .error (.nonFinite v) →
        e.steps.getLast?.map Step.result = some v) ∧
      e.detail true = e ∧ e.detail false = ⟨e.outcome, []⟩ := by
  intro e
  refine ⟨?_, fun h => ?_, fun v hrest => getLast?_steps_evaluate hc hrest, rfl, rfl⟩
  · rw [steps_evaluate_entries hc ht, t.steps_eq_nodes, List.takeWhile_map, List.map_map]
    rfl
  · rw [steps_evaluate_of_ne hc ht h, length_steps_of_isExpression ht]

/-- `2 + 3 * 4 - 5 / 0 + 6`: the product comes first and is added next; the quotient would be the
third step. -/
theorem evaluate_trace_cut :
    let c : Chain Text := ⟨['2'], [(.add, ['3']), (.mul, ['4']), (.sub, ['5']), (.div, ['0']),
      (.add, ['6'])]⟩
    let t := (c.map (Operand.ofText : Text → Binary64)).tree
    let e : Evaluation Binary64 := evaluate c.entries
    (∀ x ∈ c.operands, Operator.ofText? x = none) ∧
      IsExpression (c.map Operand.ofText).tokens t ∧ t.nodes.length = 5 ∧
      (e.steps.map fun s => (s.operation, s.result)) =
        ((t.nodes.takeWhile fun n => ¬ n.DividesByZero).map fun n => (n.operation, n.value)) ∧
      e.steps.map Step.operation = ["3 * 4".toList, "2 + 12".toList] := by
  intro c t e
  have hc : ∀ x ∈ c.operands, Operator.ofText? x = none := by decide
  have ht : IsExpression (c.map Operand.ofText).tokens t := Chain.isExpression_tree _
  exact ⟨hc, ht, rfl, (evaluate_trace c hc ht).1, by decide +kernel⟩

end PocketCalc
