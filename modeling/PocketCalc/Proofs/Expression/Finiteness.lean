import PocketCalc.Proofs.Expression.Balance
import PocketCalc.Proofs.Expression.Divisors

/-!
# Values that are not finite

Only the final value of an expression is tested for being finite. That is enough, because a value
that is not finite stays so through every later operation, with one exception: a finite number
divided by an infinity is zero. Since no divisor is ever computed, the exception does not arise
(`Tree.isFinite_value_iff`).

* `evaluate_nonFinite_iff`: a calculation with finite operands fails by an overflow exactly if some
  step of it overflows.
* `evaluate_nan_operand`: whatever the order of the entries, there is no result if an operand is
  no number.
-/

namespace PocketCalc

/-! ## Operations on values that are not finite -/

namespace Binary64

theorem isFinite_of_add {x y : Binary64} (h : (x + y).isFinite = true) :
    x.isFinite = true ∧ y.isFinite = true := by
  cases x with
  | nan => simp [isFinite] at h
  | infinite s =>
    cases y with
    | nan => simp [isFinite] at h
    | finite => cases h
    | infinite t =>
      change (if s = t then infinite s else nan).isFinite = true at h
      split at h <;> cases h
  | finite =>
    cases y with
    | nan | infinite => cases h
    | finite => exact ⟨rfl, rfl⟩

theorem isFinite_neg (x : Binary64) : x.neg.isFinite = x.isFinite := by
  cases x <;> rfl

theorem isFinite_of_sub {x y : Binary64} (h : (x - y).isFinite = true) :
    x.isFinite = true ∧ y.isFinite = true := by
  rw [← isFinite_neg y]
  exact isFinite_of_add h

theorem isFinite_of_mul {x y : Binary64} (h : (x * y).isFinite = true) :
    x.isFinite = true ∧ y.isFinite = true := by
  cases x with
  | nan => simp [isFinite] at h
  | infinite s =>
    cases y with
    | nan | infinite => cases h
    | finite t n =>
      change (if n.units = 0 then nan else infinite (s != t)).isFinite = true at h
      split at h <;> cases h
  | finite s m =>
    cases y with
    | nan => cases h
    | finite => exact ⟨rfl, rfl⟩
    | infinite t =>
      change (if m.units = 0 then nan else infinite (s != t)).isFinite = true at h
      split at h <;> cases h

/-- Of a quotient this holds for the dividend only. -/
theorem isFinite_of_div {x y : Binary64} (h : (x / y).isFinite = true) : x.isFinite = true := by
  cases x with
  | nan => simp [isFinite] at h
  | infinite => cases y <;> cases h
  | finite => rfl

end Binary64

theorem Operator.isFinite_left {o : Operator} {a b : Binary64}
    (h : (o.compute a b).isFinite = true) : a.isFinite = true := by
  cases o with
  | add => exact (Binary64.isFinite_of_add h).1
  | sub => exact (Binary64.isFinite_of_sub h).1
  | mul => exact (Binary64.isFinite_of_mul h).1
  | div => exact Binary64.isFinite_of_div h

theorem Operator.isFinite_right {o : Operator} (ho : o ≠ .div) {a b : Binary64}
    (h : (o.compute a b).isFinite = true) : b.isFinite = true := by
  cases o with
  | add => exact (Binary64.isFinite_of_add h).2
  | sub => exact (Binary64.isFinite_of_sub h).2
  | mul => exact (Binary64.isFinite_of_mul h).2
  | div => exact absurd rfl ho

/-! ## Overflow in a tree -/

theorem Tree.operands_node {α : Type} (l r : Tree α) (o : Operator) :
    (Tree.node l o r).chain.operands = l.chain.operands ++ r.chain.operands := by
  simp [Tree.chain, Chain.operands]

/-- **No overflow is lost**: if the operands are finite and the divisors among them, the value is
finite exactly if the results of all steps are. -/
theorem Tree.isFinite_value_iff {t : Tree Binary64} (hdiv : t.DivisorsAreLeaves)
    (hfin : ∀ x ∈ t.chain.operands, x.isFinite = true) :
    t.value.isFinite = true ↔ ∀ s ∈ t.steps, s.result.isFinite = true := by
  induction t with
  | leaf x =>
    have hx : x.isFinite = true := hfin x (by simp [Tree.chain, Chain.operands])
    simp [Tree.value, Tree.steps, hx]
  | node l o r ihl ihr =>
    rw [Tree.operands_node, List.forall_mem_append] at hfin
    have hl := ihl hdiv.1 hfin.1
    have hr := ihr hdiv.2.1 hfin.2
    have hright (h : (o.compute l.value r.value).isFinite = true) : r.value.isFinite = true := by
      -- A divisor may lose an infinity, but it is one of the operands.
      by_cases ho : o = .div
      · obtain ⟨x, rfl⟩ := hdiv.2.2 ho
        exact hfin.2 x (by simp [Tree.chain, Chain.operands])
      · exact Operator.isFinite_right ho h
    simp only [Tree.value, Tree.steps, List.forall_mem_append, List.forall_mem_singleton, ← hl,
      ← hr]
    exact ⟨fun h => ⟨⟨Operator.isFinite_left h, hright h⟩, h⟩, And.right⟩

theorem Chain.isFinite_value_iff {c : Chain Binary64}
    (hfin : ∀ x ∈ c.operands, x.isFinite = true) :
    c.tree.value.isFinite = true ↔ ∀ s ∈ c.tree.steps, s.result.isFinite = true :=
  Tree.isFinite_value_iff c.divisorsAreLeaves_tree (by rwa [c.chain_tree])

/-! ## Overflow in an expression -/

/-- The operator symbols themselves spell no numbers. -/
theorem ofText?_of_isFinite {x : Text} (h : (Binary64.ofText x).isFinite = true) :
    Operator.ofText? x = none := by
  cases ho : Operator.ofText? x with
  | none => rfl
  | some o =>
    unfold Operator.ofText? at ho
    split at ho
    · obtain rfl := Operator.ofChar?_eq_some_iff.1 ho
      cases o <;> exact absurd h (by decide)
    · cases ho

/-- **When an overflow fails a calculation.** If all operands are finite and none behind a `/` is a
zero, the value is reported as not finite exactly if the result of some step is not; there is a
result exactly if those of all steps are finite. -/
theorem evaluate_nonFinite_iff (c : Chain Text)
    (hfin : ∀ x ∈ c.operands, (Binary64.ofText x).isFinite = true)
    (hdiv : ∀ p ∈ c.rest, p.1 = .div → (Binary64.ofText p.2).isZero = false) :
    let e : Evaluation Binary64 := evaluate c.entries
    ((∃ v, e.outcome = .error (.nonFinite v)) ↔ ∃ s ∈ e.steps, s.result.isFinite = false) ∧
      ((∃ v, e.outcome = .ok v) ↔ ∀ s ∈ e.steps, s.result.isFinite = true) := by
  intro e
  let t := (c.map Binary64.ofText).tree
  have hc : ∀ x ∈ c.operands, Operator.ofText? x = none := fun x hx =>
    ofText?_of_isFinite (hfin x hx)
  have hzero : ¬ (c.map Binary64.ofText).DividesByZero := by
    rintro ⟨p, hp, ho, hz⟩
    obtain ⟨q, hq, rfl⟩ := List.mem_map.1 hp
    exact Bool.false_ne_true ((hdiv q hq ho).symm.trans hz)
  have hvalue : t.value.isFinite = true ↔ ∀ s ∈ t.steps, s.result.isFinite = true := by
    refine Chain.isFinite_value_iff ?_
    rwa [Chain.operands_map, List.forall_mem_map]
  have he : e = if t.value.isFinite then ⟨.ok t.value, t.steps⟩
      else ⟨.error (.nonFinite t.value), t.steps⟩ := evaluate_of_not_dividesByZero hc hzero
  by_cases h : t.value.isFinite = true
  · rw [if_pos h] at he
    simpa [he] using hvalue.1 h
  · rw [if_neg h] at he
    simpa [he] using mt hvalue.2 h

/-- `1e308 * 10 - 1e308 * 10 / 1e300`: both products are infinite, the quotient stays so, and the
difference of infinities is reported. -/
theorem evaluate_overflow_nonFinite :
    let c : Chain Text := ⟨"1e308".toList, [(.mul, "10".toList), (.sub, "1e308".toList),
      (.mul, "10".toList), (.div, "1e300".toList)]⟩
    (∀ x ∈ c.operands, (Binary64.ofText x).isFinite = true) ∧
      (∀ p ∈ c.rest, p.1 = .div → (Binary64.ofText p.2).isZero = false) ∧
      ∃ v, (evaluate c.entries : Evaluation Binary64).outcome = .error (.nonFinite v) := by
  intro c
  have hfin : ∀ x ∈ c.operands, (Binary64.ofText x).isFinite = true := by decide +kernel
  have hdiv : ∀ p ∈ c.rest, p.1 = .div → (Binary64.ofText p.2).isZero = false := by
    decide +kernel
  have hstep : ∃ s ∈ (evaluate c.entries : Evaluation Binary64).steps,
      s.result.isFinite = false := by
    decide +kernel
  exact ⟨hfin, hdiv, (evaluate_nonFinite_iff c hfin hdiv).1.2 hstep⟩

/-! ## Operands that are no numbers -/

/-- **An operand that is no number leaves no result.** This holds for any list of entries, whether
or not operands and operators alternate: if the evaluation gets as far as a value, it is `nan`. -/
theorem evaluate_nan_operand (entries : List Text) {x : Text} (hx : x ∈ entries)
    (hop : Operator.ofText? x = none) (hnan : Binary64.ofText x = .nan) :
    ∃ fault, (evaluate entries : Evaluation Binary64).outcome = .error fault ∧
      ∀ v, fault = .nonFinite v → v = .nan := by
  rw [evaluate, outcome_requireFinite]
  cases hout : (evaluatePostfix (toPostfix (tokenize entries)) :
      Evaluation Binary64).outcome with
  | ok v =>
    obtain rfl := nan_of_evaluatePostfix hx hop hnan hout
    exact ⟨.nonFinite .nan, rfl, fun v hv => (Fault.nonFinite.inj hv).symm⟩
  | error fault =>
    refine ⟨fault, rfl, ?_⟩
    rintro v rfl
    -- Reducing itself accepts every value.
    have hends := reduce_ends [] (toPostfix (tokenize entries : List (Token Binary64)))
    rw [← evaluatePostfix, hout] at hends
    exact hends.elim

/-- `2 Error -`: the operator stands in the wrong place and is carried out all the same. -/
theorem evaluate_misplaced_nan :
    let entries := ["2".toList, "Error".toList, "-".toList]
    "Error".toList ∈ entries ∧ Operator.ofText? "Error".toList = none ∧
      Binary64.ofText "Error".toList = .nan ∧
      ∃ fault, (evaluate entries : Evaluation Binary64).outcome = .error fault ∧
        ∀ v, fault = .nonFinite v → v = .nan := by
  intro entries
  have hx : "Error".toList ∈ entries := by simp [entries]
  have hnan : Binary64.ofText "Error".toList = .nan := by decide +kernel
  exact ⟨hx, rfl, hnan, evaluate_nan_operand entries hx rfl hnan⟩

end PocketCalc
