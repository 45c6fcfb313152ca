import PocketCalc.Proofs.Decimal.ReadBack
import PocketCalc.Proofs.Expression.Balance

/-!
# Where the reduction of any tokens stops

The values on the stack are as many as the balance of the tokens read. So it can be told by
counting where the reduction of any tokens stops, in postfix order or not, and why
(`ending_evaluatePostfix`); only divisions by zero have to be looked for among the values. The words
for the cause are part of it, since they tell causes apart (`Malformation.reason_inj`):
`evaluatePostfix_by_counting`.
-/

namespace PocketCalc

/-! ## Causes and their words -/

theorem Text.ofNat_inj {k n : Nat} (h : Text.ofNat k = Text.ofNat n) : k = n := by
  rw [← Numeral.digitsValue_ofNat k, h, Numeral.digitsValue_ofNat]

namespace Malformation

theorem reason_missingOperand (o : Operator) :
    (missingOperand o).reason = "missing operand for '".toList ++ [o.symbol, '\''] := rfl

theorem reason_leftover (k : Nat) :
    (leftover k).reason = Text.ofNat k ++ " values left without an operator".toList := rfl

/-- A number of values in front of the words begins with a digit. -/
theorem isDigit_head_leftover (k : Nat) :
    (leftover k).reason.head?.all Char.isDigit = true := by
  obtain ⟨c, r, hcr⟩ := List.exists_cons_of_ne_nil (ofNat_ne_nil k)
  have hc : c.isDigit := isDigit_of_mem_ofNat (n := k) (by rw [hcr]; exact List.mem_cons_self)
  rw [reason_leftover, hcr, List.cons_append, List.head?_cons, Option.all_some, hc]

theorem reason_leftover_ne {k : Nat} {c : Malformation}
    (hc : c.reason.head?.all Char.isDigit = false) : (leftover k).reason ≠ c.reason := by
  intro heq
  rw [← heq, isDigit_head_leftover] at hc
  cases hc

theorem reason_inj {c d : Malformation} (h : c.reason = d.reason) : c = d := by
  have hmissing : ∀ o, (missingOperand o).reason.head?.all Char.isDigit = false := by
    intro o
    cases o <;> decide
  have hempty : empty.reason.head?.all Char.isDigit = false := by decide
  -- Only the words for values left over begin with a digit.
  cases c with
  | missingOperand o =>
    cases d with
    | missingOperand p =>
      rw [reason_missingOperand, reason_missingOperand, List.append_cancel_left_eq] at h
      rw [Operator.symbol_inj (List.cons.inj h).1]
    | empty => cases o <;> exact absurd h (by decide)
    | leftover n => exact absurd h.symm (reason_leftover_ne (hmissing o))
  | empty =>
    cases d with
    | missingOperand p => cases p <;> exact absurd h (by decide)
    | empty => rfl
    | leftover n => exact absurd h.symm (reason_leftover_ne hempty)
  | leftover k =>
    cases d with
    | missingOperand p => exact absurd h (reason_leftover_ne (hmissing p))
    | empty => exact absurd h (reason_leftover_ne hempty)
    | leftover n =>
      rw [reason_leftover, reason_leftover, List.append_cancel_right_eq] at h
      rw [Text.ofNat_inj h]

end Malformation

variable {α : Type}

/-- The evaluation finds the tokens malformed, for the reason in these words. -/
def Evaluation.IsMalformed (e : Evaluation α) (reason : Text) : Prop :=
  ∃ cause, e.outcome = .error (.malformed cause) ∧ cause.reason = reason

theorem Evaluation.isMalformed_reason {e : Evaluation α} (cause : Malformation) :
    e.IsMalformed cause.reason ↔ e.outcome = .error (.malformed cause) := by
  constructor
  · rintro ⟨other, hout, hreason⟩
    rw [hout, Malformation.reason_inj hreason]
  · exact fun hout => ⟨cause, hout, rfl⟩

/-! ## Endings told by counting -/

/-- The token at position `i` is an operator, and the tokens in front of it come to fewer than two
values. -/
def LacksOperand (ts : List (Token α)) (i : Nat) (o : Operator) : Prop :=
  ts[i]? = some (.op o) ∧ balance (ts.take i) < 2

theorem not_lacksOperand_nil (i : Nat) (o : Operator) :
    ¬ LacksOperand ([] : List (Token α)) i o := by
  simp [LacksOperand]

/-- The operator at position `i` is the first that lacks an operand. -/
def FirstLacksOperand (ts : List (Token α)) (i : Nat) (o : Operator) : Prop :=
  LacksOperand ts i o ∧ ∀ j < i, ∀ p, ¬ LacksOperand ts j p

theorem FirstLacksOperand.unique {ts : List (Token α)} {i j : Nat} {o p : Operator}
    (ho : FirstLacksOperand ts i o) (hp : FirstLacksOperand ts j p) : o = p := by
  obtain rfl : i = j := by
    rcases Nat.lt_trichotomy i j with hlt | heq | hgt
    · exact absurd ho.1 (hp.2 i hlt o)
    · exact heq
    · exact absurd hp.1 (ho.2 j hgt p)
  simpa [ho.1.1] using hp.1.1

/-- How the reduction of the tokens ends, told by counting. -/
inductive Ending (ts : List (Token α)) : Except (Fault α) α → Prop
  | result {v} : (∀ i o, ¬ LacksOperand ts i o) → balance ts = 1 → Ending ts (.ok v)
  | empty : ts = [] → Ending ts (.error (.malformed .empty))
  | leftover {k : Nat} : (∀ i o, ¬ LacksOperand ts i o) → 2 ≤ k → balance ts = k →
    Ending ts (.error (.malformed (.leftover k)))
  | missingOperand {i o} : FirstLacksOperand ts i o →
    Ending ts (.error (.malformed (.missingOperand o)))
  | divisionByZero : Ending ts (.error .divisionByZero)

/-- A cause told by counting rules out all other endings but a division by zero. -/
theorem Ending.eq_of_malformed {ts : List (Token α)} {cause : Malformation}
    {outcome : Except (Fault α) α} (h : Ending ts (.error (.malformed cause)))
    (hother : Ending ts outcome) (hne : outcome ≠ .error .divisionByZero) :
    outcome = .error (.malformed cause) := by
  -- Both endings speak of the same first operator without an operand and of the same balance.
  cases h with
  | empty hnil =>
    subst hnil
    cases hother with
    | result _ hone => simp at hone
    | empty => rfl
    | leftover _ htwo hk =>
      rw [balance_nil] at hk
      omega
    | missingOperand hfirst => exact absurd hfirst.1 (not_lacksOperand_nil _ _)
    | divisionByZero => exact absurd rfl hne
  | leftover hnone htwo hk =>
    cases hother with
    | result _ hone => omega
    | empty hnil =>
      rw [hnil, balance_nil] at hk
      omega
    | leftover _ _ hn =>
      rw [Int.natCast_inj.1 (hk.symm.trans hn)]
    | missingOperand hfirst => exact absurd hfirst.1 (hnone _ _)
    | divisionByZero => exact absurd rfl hne
  | missingOperand hfirst =>
    cases hother with
    | result hnone _ => exact absurd hfirst.1 (hnone _ _)
    | empty hnil => exact absurd (hnil ▸ hfirst.1) (not_lacksOperand_nil _ _)
    | leftover hnone _ _ => exact absurd hfirst.1 (hnone _ _)
    | missingOperand hother => rw [hfirst.unique hother]
    | divisionByZero => exact absurd rfl hne

/-! ## How reducing ends -/

variable [Operand α]

namespace Reduces

variable {final : List α} {ts : List (Token α)} {steps : List (Step α)}

theorem not_lacksOperand (h : Reduces [] ts steps final) (i : Nat) (o : Operator) :
    ¬ LacksOperand ts i o := by
  rintro ⟨hi, hlt⟩
  have htwo := h.two_le_of_op hi
  simp only [List.length_nil] at htwo
  omega

/-- An operator with fewer than two values left for it is the first that lacks one. -/
theorem firstLacksOperand (h : Reduces [] ts steps final) (hfinal : final.length < 2)
    (o : Operator) (rest : List (Token α)) :
    FirstLacksOperand (ts ++ .op o :: rest) ts.length o := by
  have hbalance := h.length_final
  rw [List.length_nil] at hbalance
  refine ⟨⟨by simp, ?_⟩, ?_⟩
  · rw [List.take_left]
    omega
  · rintro j hj p ⟨hp, hlt⟩
    rw [List.getElem?_append_left hj] at hp
    rw [List.take_append_of_le_length (Nat.le_of_lt hj)] at hlt
    exact h.not_lacksOperand j p ⟨hp, hlt⟩

end Reduces

theorem ending_evaluatePostfix (ts : List (Token α)) : Ending ts (evaluatePostfix ts).outcome := by
  obtain ⟨read, unread, final, hts, hread, hhalts⟩ := reduce_spec [] ts
  have hbalance := hread.length_final
  rw [evaluatePostfix]
  generalize (reduce [] ts).outcome = outcome at hhalts
  -- Where all tokens were carried out, the values left are as many as their balance says.
  cases hhalts with
  | result =>
    obtain rfl : ts = read := by simpa using hts
    exact .result hread.not_lacksOperand (by simpa using hbalance.symm)
  | empty =>
    obtain rfl : ts = read := by simpa using hts
    refine .empty ?_
    by_contra hne
    exact hread.final_ne_nil (.inr hne) rfl
  | leftover htwo =>
    obtain rfl : ts = read := by simpa using hts
    exact .leftover hread.not_lacksOperand htwo (by simpa using hbalance.symm)
  | missingOperand hshort => exact .missingOperand (hts ▸ hread.firstLacksOperand hshort _ _)
  | divisionByZero => exact .divisionByZero

section

variable {ts : List (Token α)}

/-- Unless there is a division by zero, counting finds the tokens malformed exactly if reducing
does, and for the same cause. -/
theorem isMalformed_iff (hne : (evaluatePostfix ts).outcome ≠ .error .divisionByZero)
    (cause : Malformation) :
    (evaluatePostfix ts).IsMalformed cause.reason ↔ Ending ts (.error (.malformed cause)) := by
  rw [Evaluation.isMalformed_reason]
  exact ⟨fun h => h ▸ ending_evaluatePostfix ts,
    fun h => h.eq_of_malformed (ending_evaluatePostfix ts) hne⟩

theorem isOk_iff (hne : (evaluatePostfix ts).outcome ≠ .error .divisionByZero)
    (hnone : ∀ i o, ¬ LacksOperand ts i o) :
    (∃ v, (evaluatePostfix ts).outcome = .ok v) ↔ balance ts = 1 := by
  have hending := ending_evaluatePostfix ts
  generalize (evaluatePostfix ts).outcome = outcome at hne hending
  cases hending with
  | result _ hone => exact ⟨fun _ => hone, fun _ => ⟨_, rfl⟩⟩
  | empty hnil => simp [hnil]
  | leftover _ htwo hk =>
    simp only [reduceCtorEq, exists_false, false_iff]
    omega
  | missingOperand hfirst => exact absurd hfirst.1 (hnone _ _)
  | divisionByZero => exact absurd rfl hne

end

/-- **How the reduction of any tokens ends.** Unless a division by zero is met first, an operand is
missing exactly if the tokens in front of some operator come to fewer than two values, and the first
such operator is named. If there is none, the balance of all tokens decides: there is a value
exactly if it is one, the expression is empty exactly if there are no tokens, and `k` values are
left over exactly if it is `k` and at least two. In every case there is a step for each operator
that was carried out before the end, so with a value for all operators. -/
theorem evaluatePostfix_by_counting (ts : List (Token α)) :
    let e := evaluatePostfix ts
    (e.outcome ≠ .error .divisionByZero →
      (∀ o : Operator, e.IsMalformed ("missing operand for '".toList ++ [o.symbol, '\'']) ↔
          ∃ i, FirstLacksOperand ts i o) ∧
        ((∀ i o, ¬ LacksOperand ts i o) →
          ((∃ v, e.outcome = .ok v) ↔ balance ts = 1) ∧
          (e.IsMalformed "empty expression".toList ↔ ts = []) ∧
          ∀ k : Nat, e.IsMalformed (Text.ofNat k ++ " values left without an operator".toList) ↔
            2 ≤ k ∧ balance ts = k)) ∧
      (∃ read unread final, ts = read ++ unread ∧ Reduces [] read e.steps final ∧
        Halts final unread e.outcome ∧ e.steps.length = operatorCount read) ∧
      ∀ v, e.outcome = .ok v → e.steps.length = operatorCount ts := by
  intro e
  obtain ⟨read, unread, final, hts, hread, hhalts⟩ := reduce_spec [] ts
  refine ⟨fun hne => ⟨fun o => ?_, fun hnone => ⟨isOk_iff hne hnone, ?_, fun k => ?_⟩⟩,
    ⟨read, unread, final, hts, hread, hhalts, hread.length_steps⟩, fun v hv => ?_⟩
  · refine (isMalformed_iff hne (.missingOperand o)).trans ⟨?_, ?_⟩
    · intro hending
      cases hending with
      | missingOperand hfirst => exact ⟨_, hfirst⟩
    · rintro ⟨i, hfirst⟩
      exact .missingOperand hfirst
  · refine (isMalformed_iff hne .empty).trans ⟨?_, .empty⟩
    intro hending
    cases hending with
    | empty hnil => exact hnil
  · refine (isMalformed_iff hne (.leftover k)).trans ⟨?_, ?_⟩
    · intro hending
      cases hending with
      | leftover _ htwo hk => exact ⟨htwo, hk⟩
    · rintro ⟨htwo, hk⟩
      exact .leftover hnone htwo hk
  · exact (reduces_of_ok hv).length_steps

/-- `0 0 / +`: the division by zero comes before the operator that lacks an operand. -/
example : (evaluatePostfix [.number .zero, .number .zero, .op .div, .op .add] :
    Evaluation Binary64).outcome = .error .divisionByZero := rfl

end PocketCalc
