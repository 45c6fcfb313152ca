import PocketCalc.Expression.Evaluation

/-!
# What reducing does

Nothing makes sure that tokens are in postfix order before they are reduced. Whatever they are,
`reduce` carries out a first part of them, one step for each operator (`Reduces`), and halts at the
rest: at the end, at an operator that lacks an operand, or at a division by zero (`Halts`). That
there is no other way is `reduce_spec`.
-/

namespace PocketCalc

variable {α : Type}

def Token.isOperator : Token α → Bool
  | .number _ => false
  | .op _ => true

def operatorCount (ts : List (Token α)) : Nat :=
  ts.countP Token.isOperator

@[simp] theorem operatorCount_number (x : α) (ts : List (Token α)) :
    operatorCount (.number x :: ts) = operatorCount ts :=
  List.countP_cons_of_neg Bool.false_ne_true

@[simp] theorem operatorCount_op (o : Operator) (ts : List (Token α)) :
    operatorCount (.op o :: ts) = operatorCount ts + 1 :=
  List.countP_cons_of_pos rfl

variable [Operand α]

/-- Tokens that are carried out: from the values on the stack to those left, with the steps made on
the way. -/
inductive Reduces : List α → List (Token α) → List (Step α) → List α → Prop
  | done {stack} : Reduces stack [] [] stack
  | number {x stack ts steps final} :
    Reduces (x :: stack) ts steps final → Reduces stack (.number x :: ts) steps final
  | op {o a b v stack ts steps final} : o.apply a b = .ok v →
    Reduces (v :: stack) ts steps final →
    Reduces (b :: a :: stack) (.op o :: ts) (⟨a, o, b, v⟩ :: steps) final

/-- Values and tokens at which the reduction halts, and what it comes to. -/
inductive Halts : List α → List (Token α) → Except (Fault α) α → Prop
  | result {v} : Halts [v] [] (.ok v)
  | empty : Halts [] [] (.error (.malformed .empty))
  | leftover {stack} : 2 ≤ stack.length →
    Halts stack [] (.error (.malformed (.leftover stack.length)))
  | missingOperand {stack o rest} : stack.length < 2 →
    Halts stack (.op o :: rest) (.error (.malformed (.missingOperand o)))
  | divisionByZero {a b stack rest} : Operand.isZero b = true →
    Halts (b :: a :: stack) (.op .div :: rest) (.error .divisionByZero)

/-- Only a division fails, and only by zero. -/
theorem Operator.apply_eq_error {o : Operator} {a b : α} {fault : Fault α}
    (h : o.apply a b = .error fault) :
    o = .div ∧ Operand.isZero b = true ∧ fault = .divisionByZero := by
  cases o with
  | add | sub | mul => cases h
  | div =>
    by_cases hb : Operand.isZero b = true
    · simp only [apply, if_pos hb, Except.error.injEq] at h
      exact ⟨rfl, hb, h.symm⟩
    · simp [apply, hb] at h

/-- **What reducing does**, with any values on the stack: it carries out some tokens and halts at
the rest. -/
theorem reduce_spec (stack : List α) (ts : List (Token α)) :
    ∃ read unread final, ts = read ++ unread ∧ Reduces stack read (reduce stack ts).steps final ∧
      Halts final unread (reduce stack ts).outcome := by
  -- A case for each way to halt before the first token, and two for carrying it out.
  fun_induction reduce stack ts with
  | case1 v => exact ⟨[], [], [v], rfl, .done, .result⟩
  | case2 => exact ⟨[], [], [], rfl, .done, .empty⟩
  | case3 stack hone hnil =>
    refine ⟨[], [], stack, rfl, .done, .leftover ?_⟩
    match stack, hone, hnil with
    | [], _, hnil => exact absurd rfl hnil
    | [v], hone, _ => exact absurd rfl (hone v)
    | _ :: _ :: _, _, _ => simp
  | case4 stack x rest ih =>
    obtain ⟨read, unread, final, rfl, hread, hhalts⟩ := ih
    exact ⟨.number x :: read, unread, final, rfl, .number hread, hhalts⟩
  | case5 b a stack o rest v hv ih =>
    obtain ⟨read, unread, final, rfl, hread, hhalts⟩ := ih
    exact ⟨.op o :: read, unread, final, rfl, .op hv hread, hhalts⟩
  | case6 b a stack o rest fault hfault =>
    obtain ⟨rfl, hzero, rfl⟩ := Operator.apply_eq_error hfault
    exact ⟨[], .op .div :: rest, b :: a :: stack, rfl, .done, .divisionByZero hzero⟩
  | case7 stack o rest hshort =>
    refine ⟨[], .op o :: rest, stack, rfl, .done, .missingOperand ?_⟩
    match stack, hshort with
    | [], _ => simp
    | [v], _ => simp
    | b :: a :: stack, hshort => exact absurd rfl (hshort b a stack)

namespace Reduces

variable {stack final : List α} {ts : List (Token α)} {steps : List (Step α)}

theorem length_steps (h : Reduces stack ts steps final) : steps.length = operatorCount ts := by
  induction h with
  | done => rfl
  | number _ ih => rw [ih, operatorCount_number]
  | op _ _ ih => rw [List.length_cons, ih, operatorCount_op]

/-- Tokens leave a value: an operator takes two and puts one back. -/
theorem final_ne_nil (h : Reduces stack ts steps final) (hne : stack ≠ [] ∨ ts ≠ []) :
    final ≠ [] := by
  induction h with
  | done => simpa using hne
  | number _ ih => exact ih (.inl (List.cons_ne_nil _ _))
  | op _ _ ih => exact ih (.inl (List.cons_ne_nil _ _))

end Reduces

/-- Tokens that are reduced to a value have all been carried out and have left it alone. -/
theorem reduces_of_ok {stack : List α} {ts : List (Token α)} {v : α}
    (h : (reduce stack ts).outcome = .ok v) : Reduces stack ts (reduce stack ts).steps [v] := by
  obtain ⟨read, unread, final, hts, hread, hhalts⟩ := reduce_spec stack ts
  rw [h] at hhalts
  cases hhalts with
  | result =>
    rw [List.append_nil] at hts
    exact hts ▸ hread

end PocketCalc
