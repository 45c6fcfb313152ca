import PocketCalc.Proofs.Expression.Reduction
import PocketCalc.Proofs.Expression.Shunting
import PocketCalc.Proofs.Expression.TreeEvaluation

/-!
# Counting numbers and operators

A number adds a value to the stack and an operator takes one away. So the balance of a list of
tokens, its numbers minus its operators, says how reducing it can end (`reduce_ends`): with a value
only if the balance is one. Postfix order keeps the balance, since it is a permutation of the
tokens (`toPostfix_perm`).

Together with `reduce_nan`, which says that a `nan` is never lost on the way, this is what a result
tells about the operands that it came from: `operands_of_evaluate_ok`.
-/

namespace PocketCalc

variable {α : Type}

/-! ## The balance of tokens -/

/-- What the token adds to the number of values on the stack. -/
def Token.weight : Token α → Int
  | .number _ => 1
  | .op _ => -1

/-- The numbers among the tokens minus the operators. -/
def balance : List (Token α) → Int
  | [] => 0
  | tok :: ts => tok.weight + balance ts

@[simp] theorem Token.weight_op (o : Operator) : (Token.op o : Token α).weight = -1 := rfl

@[simp] theorem Token.weight_number (x : α) : (Token.number x).weight = 1 := rfl

@[simp] theorem balance_nil : balance ([] : List (Token α)) = 0 := rfl

@[simp] theorem balance_cons (tok : Token α) (ts : List (Token α)) :
    balance (tok :: ts) = tok.weight + balance ts := rfl

theorem balance_perm {ts us : List (Token α)} (h : ts.Perm us) : balance ts = balance us := by
  induction h with
  | nil => rfl
  | cons tok _ ih => rw [balance_cons, balance_cons, ih]
  | swap a b ts => simp only [balance_cons]; omega
  | trans _ _ ih₁ ih₂ => exact ih₁.trans ih₂

theorem balance_toPostfix (ts : List (Token α)) : balance (toPostfix ts) = balance ts :=
  balance_perm (toPostfix_perm ts)

theorem balance_tokens (c : Chain α) : balance c.tokens = 1 := by
  obtain ⟨x, rest⟩ := c
  have hrest : balance (rest.flatMap fun p => [.op p.1, .number p.2] : List (Token α)) = 0 := by
    induction rest with
    | nil => rfl
    | cons p rest ih =>
      simp only [List.flatMap_cons, List.cons_append, List.nil_append, balance_cons,
        Token.weight_op, Token.weight_number, ih]
      omega
  rw [Chain.tokens, balance_cons, hrest, Token.weight_number]
  rfl

/-- How an evaluation can end whose values, once all tokens are used up, are `n`. -/
def EndsWith (n : Int) : Except (Fault α) α → Prop
  | .ok _ => n = 1
  | .error (.malformed .empty) => n = 0
  | .error (.malformed (.leftover k)) => n = k
  | .error (.malformed (.missingOperand _)) => True
  | .error .divisionByZero => True
  | .error (.nonFinite _) => False

variable [Operand α]

namespace Reduces

variable {stack final : List α} {ts : List (Token α)} {steps : List (Step α)}

/-- **The values left are as many as the balance says.** -/
theorem length_final (h : Reduces stack ts steps final) :
    (final.length : Int) = stack.length + balance ts := by
  induction h with
  | done => simp
  | number _ ih =>
    rw [ih, List.length_cons, balance_cons, Token.weight_number]
    omega
  | op _ _ ih =>
    simp only [ih, List.length_cons, balance_cons, Token.weight_op]
    omega

/-- Every operator that is carried out finds two values. -/
theorem two_le_of_op (h : Reduces stack ts steps final) {i : Nat} {o : Operator}
    (hi : ts[i]? = some (.op o)) : 2 ≤ stack.length + balance (ts.take i) := by
  -- The first token moves its weight from the balance to the stack.
  induction h generalizing i with
  | done => simp at hi
  | number _ ih =>
    cases i with
    | zero => simp at hi
    | succ i =>
      have htwo := ih (by simpa using hi)
      rw [List.length_cons] at htwo
      rw [List.take_succ_cons, balance_cons, Token.weight_number]
      omega
  | op _ _ ih =>
    cases i with
    | zero =>
      simp only [List.length_cons, List.take_zero, balance_nil]
      omega
    | succ i =>
      have htwo := ih (by simpa using hi)
      rw [List.length_cons] at htwo
      simp only [List.length_cons, List.take_succ_cons, balance_cons, Token.weight_op]
      omega

end Reduces

/-- **The balance says how reducing ends**, unless it stops before all tokens are used up. -/
theorem reduce_ends (stack : List α) (ts : List (Token α)) :
    EndsWith (stack.length + balance ts) (reduce stack ts).outcome := by
  obtain ⟨read, unread, final, hts, hread, hhalts⟩ := reduce_spec stack ts
  have hlength := hread.length_final
  generalize (reduce stack ts).outcome = outcome at hhalts
  cases hhalts with
  | missingOperand | divisionByZero => trivial
  | result | empty | leftover =>
    rw [List.append_nil] at hts
    rw [hts, ← hlength]
    rfl

/-! ## Operands that read as operators -/

/-- The number of operands that are taken for operators. -/
def Chain.strays (c : Chain Text) : Nat :=
  c.operands.countP fun x => (Operator.ofText? x).isSome

theorem Chain.strays_eq_zero {c : Chain Text} :
    c.strays = 0 ↔ ∀ x ∈ c.operands, Operator.ofText? x = none := by
  simp [Chain.strays, List.countP_eq_zero]

theorem weight_ofEntry (x : Text) :
    (Token.ofEntry x : Token α).weight =
      1 - 2 * (if (Operator.ofText? x).isSome then (1 : Nat) else 0 : Nat) := by
  cases h : Operator.ofText? x <;> simp [Token.ofEntry, h, Token.weight]

/-- Each operand taken for an operator tips the balance of a chain by two. -/
theorem balance_tokenize_entries (c : Chain Text) :
    balance (tokenize c.entries : List (Token α)) = 1 - 2 * (c.strays : Int) := by
  obtain ⟨x, rest⟩ := c
  have hrest : balance ((rest.flatMap fun p => [[p.1.symbol], p.2]).map Token.ofEntry :
      List (Token α)) =
      -2 * ((rest.map Prod.snd).countP fun x => (Operator.ofText? x).isSome : Nat) := by
    induction rest with
    | nil => rfl
    | cons p rest ih =>
      simp only [List.flatMap_cons, List.cons_append, List.nil_append, List.map_cons, balance_cons,
        Token.ofEntry_symbol, Token.weight_op, weight_ofEntry, ih, List.countP_cons]
      omega
  simp only [tokenize, Chain.entries, Chain.strays, Chain.operands, List.map_cons, balance_cons,
    weight_ofEntry, hrest, List.countP_cons]
  omega

theorem Chain.evaluatePostfix_ends (c : Chain Text) :
    EndsWith (1 - 2 * (c.strays : Int))
      (evaluatePostfix (toPostfix (tokenize c.entries)) : Evaluation α).outcome := by
  have hends := reduce_ends [] (toPostfix (tokenize c.entries : List (Token α)))
  rwa [balance_toPostfix, balance_tokenize_entries, List.length_nil, Int.natCast_zero,
    Int.zero_add] at hends

/-- **A chain with strays fails**: the steps run out of values before the tokens end, unless a
division by zero comes first. -/
theorem outcome_of_strays {c : Chain Text} (hc : c.strays ≠ 0) :
    (evaluate c.entries : Evaluation α).outcome = .error .divisionByZero ∨
      ∃ o, (evaluate c.entries : Evaluation α).outcome =
        .error (.malformed (.missingOperand o)) := by
  -- The balance is negative, while a result and all other faults need one that is not.
  have hends := c.evaluatePostfix_ends (α := α)
  rw [evaluate, outcome_requireFinite]
  split <;> rename_i hout <;> rw [hout] at hends
  · simp only [EndsWith] at hends
    omega
  · rename_i fault
    cases fault with
    | divisionByZero => exact .inl rfl
    | nonFinite v => exact hends.elim
    | malformed cause =>
      cases cause with
      | missingOperand o => exact .inr ⟨o, rfl⟩
      | empty | leftover k => simp only [EndsWith] at hends; omega

/-! ## What a result says about its operands -/

theorem apply_nan {o : Operator} {a b w : Binary64} (h : o.apply a b = .ok w)
    (hnan : a = .nan ∨ b = .nan) : w = .nan := by
  cases o with
  | add | sub | mul => rcases hnan with rfl | rfl <;> simpa [Operator.apply, eq_comm] using h
  | div =>
    by_cases hb : Operand.isZero b = true
    · simp [Operator.apply, hb] at h
    · simp only [Operator.apply, hb] at h
      rcases hnan with rfl | rfl <;> simpa [eq_comm] using h

theorem Reduces.nan_mem_final {stack final : List Binary64} {ts : List (Token Binary64)}
    {steps : List (Step Binary64)} (h : Reduces stack ts steps final)
    (hnan : .nan ∈ stack ∨ .number .nan ∈ ts) : .nan ∈ final := by
  induction h with
  | done => simpa using hnan
  | number _ ih =>
    refine ih ?_
    rw [List.mem_cons, Token.number.injEq, ← or_assoc] at hnan
    rw [List.mem_cons]
    exact hnan.imp_left Or.symm
  | op hv _ ih =>
    refine ih ?_
    simp only [List.mem_cons, reduceCtorEq, false_or] at hnan ⊢
    -- A `nan` among the two operands is passed on to the value that replaces them.
    rcases hnan with (hb | ha | hs) | ht
    · exact .inl (.inl (apply_nan hv (.inr hb.symm)).symm)
    · exact .inl (.inl (apply_nan hv (.inl ha.symm)).symm)
    · exact .inl (.inr hs)
    · exact .inr ht

/-- **A `nan` is never lost**: a reduction that meets one has no other value than `nan`. -/
theorem reduce_nan {stack : List Binary64} {ts : List (Token Binary64)} {v : Binary64}
    (h : (reduce stack ts).outcome = .ok v)
    (hnan : .nan ∈ stack ∨ .number .nan ∈ ts) : v = .nan :=
  (List.mem_singleton.1 ((reduces_of_ok h).nan_mem_final hnan)).symm

theorem nan_of_evaluatePostfix {entries : List Text} {x : Text} (hx : x ∈ entries)
    (hop : Operator.ofText? x = none) (hnan : Binary64.ofText x = .nan) {v : Binary64}
    (hv : (evaluatePostfix (toPostfix (tokenize entries))).outcome = .ok v) : v = .nan := by
  have htok : (.number .nan : Token Binary64) ∈ tokenize entries :=
    List.mem_map.2 ⟨x, hx, by rw [Token.ofEntry_operand hop, ← hnan]; rfl⟩
  exact reduce_nan hv (.inr ((toPostfix_perm _).mem_iff.2 htok))

theorem evaluate_eq_ok {entries : List Text} {v : α} :
    (evaluate entries : Evaluation α).outcome = .ok v ↔
      (evaluatePostfix (toPostfix (tokenize entries)) : Evaluation α).outcome = .ok v ∧
        Operand.isFinite v = true := by
  rw [evaluate, outcome_requireFinite]
  cases hout : (evaluatePostfix (toPostfix (tokenize entries)) : Evaluation α).outcome with
  | error fault => simp
  | ok w => by_cases hw : Operand.isFinite w = true <;> simp [hw] <;> grind

theorem Chain.mem_entries {c : Chain Text} {x : Text} (hx : x ∈ c.operands) : x ∈ c.entries := by
  simp only [Chain.operands, Chain.entries, List.mem_cons, List.mem_map, List.mem_flatMap] at hx ⊢
  rcases hx with rfl | ⟨p, hp, rfl⟩
  · exact .inl rfl
  · exact .inr ⟨p, hp, by simp⟩

theorem Chain.not_operator_of_evaluate_ok {c : Chain Text} {v : α}
    (h : (evaluate c.entries : Evaluation α).outcome = .ok v) :
    ∀ x ∈ c.operands, Operator.ofText? x = none := by
  have hends := c.evaluatePostfix_ends (α := α)
  rw [(evaluate_eq_ok.1 h).1] at hends
  simp only [EndsWith] at hends
  exact Chain.strays_eq_zero.1 (by omega)

/-- **A result has numbers for operands**: none is taken for an operator, and none is `nan`. -/
theorem operands_of_evaluate_ok {c : Chain Text} {v : Binary64}
    (h : (evaluate c.entries : Evaluation Binary64).outcome = .ok v) :
    ∀ x ∈ c.operands, Operator.ofText? x = none ∧ Binary64.ofText x ≠ .nan := by
  obtain ⟨hred, hfin⟩ := evaluate_eq_ok.1 h
  intro x hx
  have hop := Chain.not_operator_of_evaluate_ok h x hx
  refine ⟨hop, fun hnan => ?_⟩
  rw [nan_of_evaluatePostfix (Chain.mem_entries hx) hop hnan hred] at hfin
  exact absurd hfin (by decide)

end PocketCalc
