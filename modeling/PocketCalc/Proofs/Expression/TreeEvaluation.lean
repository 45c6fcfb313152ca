import PocketCalc.Expression.Evaluation
import PocketCalc.Proofs.Expression.Grammar

/-!
# Evaluation is evaluation of the tree

A tree has a value, the operations taken as they come, and the steps that compute it, one for each
node. Reducing the postorder of a tree goes through its steps in order and stops at the first
division by zero (`reduce_postorder`); otherwise it leaves the value on the stack.

With `toPostfix_of_isExpression` this gives `outcome_evaluate_entries`: the outcome of evaluating
the entries of a chain is that of the tree. Nothing is assumed about the operations.
-/

namespace PocketCalc

variable {α : Type} [Operand α]

/-! ## Values and steps of a tree -/

/-- The result of an operator, a zero divisor not excepted. -/
def Operator.compute (o : Operator) (a b : α) : α :=
  match o with
  | .add => a + b
  | .sub => a - b
  | .mul => a * b
  | .div => a / b

def Step.DividesByZero (s : Step α) : Prop :=
  s.operator = .div ∧ Operand.isZero s.right = true

instance (s : Step α) : Decidable s.DividesByZero :=
  inferInstanceAs (Decidable (_ ∧ _))

namespace Tree

def value : Tree α → α
  | .leaf x => x
  | .node l o r => o.compute l.value r.value

/-- Whether some division in the tree has a divisor that is zero. -/
def DividesByZero : Tree α → Prop
  | .leaf _ => False
  | .node l o r =>
    l.DividesByZero ∨ r.DividesByZero ∨ (o = .div ∧ Operand.isZero r.value = true)

instance decidableDividesByZero : (t : Tree α) → Decidable t.DividesByZero
  | .leaf _ => .isFalse id
  | .node l _ r =>
    have := decidableDividesByZero l
    have := decidableDividesByZero r
    inferInstanceAs (Decidable (_ ∨ _ ∨ _))

/-- What the tree stands for: its value, unless it divides by zero or the value is no result. -/
def outcome (t : Tree α) : Except (Fault α) α :=
  if t.DividesByZero then .error .divisionByZero
  else if Operand.isFinite t.value then .ok t.value
  else .error (.nonFinite t.value)

/-- The operation of every node, those of the left subtree first and the node's own last. -/
def steps : Tree α → List (Step α)
  | .leaf _ => []
  | .node l o r => l.steps ++ r.steps ++ [⟨l.value, o, r.value, o.compute l.value r.value⟩]

theorem exists_steps_dividesByZero (t : Tree α) :
    (∃ s ∈ t.steps, s.DividesByZero) ↔ t.DividesByZero := by
  induction t with
  | leaf x => simp [steps, DividesByZero]
  | node l o r ihl ihr =>
    simp only [steps, DividesByZero, ← ihl, ← ihr, List.mem_append, List.mem_singleton,
      or_and_right, exists_or, exists_eq_left, Step.DividesByZero, or_assoc]

theorem not_dividesByZero_of_mem_steps {t : Tree α} (h : ¬ t.DividesByZero) :
    ∀ s ∈ t.steps, ¬ s.DividesByZero :=
  fun s hs hdiv => h (t.exists_steps_dividesByZero.1 ⟨s, hs, hdiv⟩)

end Tree

/-! ## Going through steps -/

/-- The evaluation with steps made before it, which end at the first division by zero. -/
def Evaluation.through (e : Evaluation α) : List (Step α) → Evaluation α
  | [] => e
  | s :: ss => if s.DividesByZero then .fail .divisionByZero else (e.through ss).after s

namespace Evaluation

theorem through_append (e : Evaluation α) (ss us : List (Step α)) :
    e.through (ss ++ us) = (e.through us).through ss := by
  induction ss with
  | nil => rfl
  | cons s ss ih => simp only [List.cons_append, through, ih]

theorem outcome_through (e : Evaluation α) (ss : List (Step α)) :
    (e.through ss).outcome =
      if ∃ s ∈ ss, s.DividesByZero then .error .divisionByZero else e.outcome := by
  induction ss with
  | nil => simp [through]
  | cons s ss ih =>
    by_cases hs : s.DividesByZero
    · simp [through, hs, fail]
    · simp only [through, hs, ↓reduceIte, after, ih, List.mem_cons, exists_eq_or_imp, false_or]

/-- Steps without a division by zero are all made. -/
theorem through_of_forall_not {ss : List (Step α)} (e : Evaluation α)
    (h : ∀ s ∈ ss, ¬ s.DividesByZero) : e.through ss = ⟨e.outcome, ss ++ e.steps⟩ := by
  induction ss with
  | nil => rfl
  | cons s ss ih =>
    rw [List.forall_mem_cons] at h
    rw [through, if_neg h.1, ih h.2]
    rfl

end Evaluation

/-! ## Reducing a postorder -/

/-- An operator with two values on the stack makes one step. -/
theorem reduce_op (o : Operator) (a b : α) (stack : List α) (rest : List (Token α)) :
    reduce (b :: a :: stack) (.op o :: rest) =
      (reduce (o.compute a b :: stack) rest).through [⟨a, o, b, o.compute a b⟩] := by
  cases o with
  | add | sub | mul => simp [reduce, Operator.apply, Operator.compute, Evaluation.through,
      Step.DividesByZero]
  | div =>
    by_cases hb : Operand.isZero b = true
    · simp [reduce, Operator.apply, Evaluation.through, Step.DividesByZero, hb]
    · simp [reduce, Operator.apply, Operator.compute, Evaluation.through, Step.DividesByZero, hb]

/-- **Reducing the postorder of a tree** goes through its steps and pushes its value, whatever is
on the stack and whatever follows. -/
theorem reduce_postorder (t : Tree α) (stack : List α) (rest : List (Token α)) :
    reduce stack (t.postorder ++ rest) = (reduce (t.value :: stack) rest).through t.steps := by
  induction t generalizing stack rest with
  | leaf x => simp [Tree.postorder, reduce, Tree.value, Tree.steps, Evaluation.through]
  | node l o r ihl ihr =>
    simp only [Tree.postorder, List.append_assoc, ihl, ihr, List.cons_append, List.nil_append,
      reduce_op, Tree.steps, Tree.value, Evaluation.through_append]

theorem evaluatePostfix_postorder (t : Tree α) :
    evaluatePostfix t.postorder = (⟨.ok t.value, []⟩ : Evaluation α).through t.steps := by
  have := reduce_postorder t [] []
  rwa [List.append_nil] at this

/-! ## The outcome of an expression -/

theorem outcome_requireFinite (e : Evaluation α) :
    e.requireFinite.outcome =
      match e.outcome with
      | .ok v => if Operand.isFinite v then .ok v else .error (.nonFinite v)
      | .error fault => .error fault := by
  unfold Evaluation.requireFinite
  split
  · rename_i v hv
    split <;> simp_all
  · rename_i fault hf
    simp [hf]

theorem evaluate_entries {c : Chain Text} (hc : ∀ x ∈ c.operands, Operator.ofText? x = none)
    {t : Tree α} (ht : IsExpression (c.map Operand.ofText).tokens t) :
    evaluate c.entries = (Evaluation.through ⟨.ok t.value, []⟩ t.steps).requireFinite := by
  rw [evaluate, tokenize_entries hc, toPostfix_of_isExpression ht, evaluatePostfix_postorder]

theorem outcome_evaluate_entries {c : Chain Text} (hc : ∀ x ∈ c.operands, Operator.ofText? x = none)
    {t : Tree α} (ht : IsExpression (c.map Operand.ofText).tokens t) :
    (evaluate c.entries : Evaluation α).outcome = t.outcome := by
  rw [evaluate_entries hc ht, outcome_requireFinite, Evaluation.outcome_through, Tree.outcome]
  have hsteps := t.exists_steps_dividesByZero
  by_cases hz : t.DividesByZero
  · simp only [hsteps.2 hz, hz, ↓reduceIte]
  · simp only [mt hsteps.1 hz, hz, ↓reduceIte]

theorem Tree.outcome_ne_malformed (t : Tree α) (cause : Malformation) :
    t.outcome ≠ .error (.malformed cause) := by
  unfold Tree.outcome
  split
  · simp
  · split <;> simp

/-- **Evaluation agrees with the grammar.** The values of a chain of operands form exactly one
tree, and the outcome of evaluating the chain's entries is a division by zero if the tree has one,
else the tree's value, reported as a fault if it is not finite. The entries of a chain are never
malformed. -/
theorem evaluate_eq_grammar (c : Chain Text) (hc : ∀ x ∈ c.operands, Operator.ofText? x = none) :
    (∃! t : Tree α, IsExpression (c.map Operand.ofText).tokens t) ∧
      (∀ t : Tree α, IsExpression (c.map Operand.ofText).tokens t →
        (evaluate c.entries : Evaluation α).outcome = t.outcome) ∧
      ∀ cause, (evaluate c.entries : Evaluation α).outcome ≠ .error (.malformed cause) := by
  obtain ⟨t, ht⟩ := exists_isExpression (c.map (Operand.ofText : Text → α))
  refine ⟨⟨t, ht, fun u hu => hu.unique ht⟩, fun u hu => outcome_evaluate_entries hc hu, ?_⟩
  intro cause
  rw [outcome_evaluate_entries hc ht]
  exact t.outcome_ne_malformed cause

/-- `1 - 6 / 3 + 4` is grouped as `(1 - (6 / 3)) + 4`, and its outcome is that of this tree: 3. -/
theorem evaluate_mixed_eq_grammar :
    let c : Chain Text := ⟨['1'], [(.sub, ['6']), (.div, ['3']), (.add, ['4'])]⟩
    let leaf (x : Text) : Tree Binary64 := .leaf (Operand.ofText x)
    let t := Tree.node (.node (leaf ['1']) .sub (.node (leaf ['6']) .div (leaf ['3']))) .add
      (leaf ['4'])
    (∀ x ∈ c.operands, Operator.ofText? x = none) ∧
      IsExpression (c.map Operand.ofText).tokens t ∧
      (evaluate c.entries : Evaluation Binary64).outcome = t.outcome ∧
      t.outcome = .ok (Operand.ofText ['3']) := by
  intro c leaf t
  have hc : ∀ x ∈ c.operands, Operator.ofText? x = none := by decide
  have hquotient : IsTerm [.number (Operand.ofText ['6']), .op .div, .number (Operand.ofText ['3'])]
      (Tree.node (leaf ['6']) .div (leaf ['3'])) :=
    (IsTerm.operand _).extend (.inr rfl) _
  have ht : IsExpression (c.map Operand.ofText).tokens t :=
    ((IsExpression.term (.operand _)).extend (.inr rfl) hquotient).extend (.inl rfl) (.operand _)
  have hzero : ¬ t.DividesByZero := by decide +kernel
  have hvalue : t.value = Operand.ofText ['3'] := by decide +kernel
  have hfinite : Operand.isFinite (Operand.ofText ['3'] : Binary64) = true := by decide +kernel
  refine ⟨hc, ht, (evaluate_eq_grammar c hc).2.1 t ht, ?_⟩
  rw [Tree.outcome, if_neg hzero, hvalue, if_pos hfinite]

end PocketCalc
