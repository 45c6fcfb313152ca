import PocketCalc.Proofs.Expression.Balance
import PocketCalc.Proofs.Session.EntryShape

/-!
# What a calculation comes to

A session hands its entries to the evaluator as a chain of operands. Deleting the digits of a
negative result leaves a minus sign alone in the entry, which then counts as an operator. Nothing
else goes wrong: the tokens alternate unless there is such an operand
(`Shaped.tokens_alternate_iff`), and an expression is malformed only then
(`Shaped.malformed_iff`).
-/

namespace PocketCalc

namespace Session

/-! ## The expression as a chain -/

def operands (s : Session) : List Text :=
  s.pending.map Committed.operand ++ [s.entry]

/-- The whole expression as a chain that ends with the entry. -/
def chain (s : Session) : Chain Text :=
  s.pending.foldr (fun c rest => ⟨c.operand, (c.operator, rest.first) :: rest.rest⟩) ⟨s.entry, []⟩

theorem entries_chain (s : Session) : s.chain.entries = s.entries := by
  rw [chain, entries, pendingEntries]
  induction s.pending with
  | nil => rfl
  | cons c p ih =>
    simp only [Chain.entries] at ih
    simp [Chain.entries, Committed.entries, ← ih]

theorem operands_chain (s : Session) : s.chain.operands = s.operands := by
  rw [chain, operands]
  induction s.pending with
  | nil => rfl
  | cons c p ih =>
    simp only [Chain.operands] at ih
    simp [Chain.operands, ← ih]

theorem Shaped.operands {s : Session} (h : Shaped s) : ∀ w ∈ s.operands, Entry.Shaped w := by
  intro w hw
  rcases List.mem_append.1 hw with hw | hw
  · obtain ⟨c, hc, rfl⟩ := List.mem_map.1 hw
    exact h.pending c hc
  · rw [List.mem_singleton.1 hw]
    exact h.entry

/-! ## Lone minus signs -/

/-- The operands of a session that are taken for operators are its lone minus signs. -/
theorem Shaped.strays_eq_zero {s : Session} (h : Shaped s) :
    s.chain.strays = 0 ↔ ['-'] ∉ s.operands := by
  rw [Chain.strays_eq_zero, operands_chain]
  constructor
  · intro hnone hminus
    exact absurd (hnone _ hminus) (by decide)
  · intro hminus w hw
    cases ho : Operator.ofText? w with
    | none => rfl
    | some o =>
      rw [(h.operands w hw).ofText?_eq_some ho] at hw
      exact absurd hw hminus

theorem Shaped.tokens_alternate_iff {s : Session} (h : Shaped s) :
    (∃ c : Chain Binary64, tokenize s.entries = c.tokens) ↔ ['-'] ∉ s.operands := by
  rw [← h.strays_eq_zero, ← entries_chain]
  constructor
  · rintro ⟨c, hc⟩
    have hbalance := balance_tokenize_entries (α := Binary64) s.chain
    rw [hc, balance_tokens] at hbalance
    omega
  · intro hstrays
    exact ⟨_, tokenize_entries (Chain.strays_eq_zero.1 hstrays)⟩

/-- A calculation with a lone minus sign has no result. -/
theorem Shaped.calculate_of_minus {s : Session} (h : Shaped s) (hminus : ['-'] ∈ s.operands) :
    s.calculate.1 = .error .divisionByZero ∨
      ∃ o, s.calculate.1 = .error (.malformed (.missingOperand o)) := by
  rw [calculate_fst, ← entries_chain]
  exact outcome_of_strays fun hstrays => h.strays_eq_zero.1 hstrays hminus

theorem Shaped.malformed_iff {s : Session} (h : Shaped s) :
    (∃ cause, s.calculate.1 = .error (.malformed cause)) ↔
      ['-'] ∈ s.operands ∧ s.calculate.1 ≠ .error .divisionByZero := by
  constructor
  · rintro ⟨cause, hcause⟩
    refine ⟨?_, by simp [hcause]⟩
    by_contra hminus
    have hc := Chain.strays_eq_zero.1 (h.strays_eq_zero.2 hminus)
    obtain ⟨t, ht⟩ := exists_isExpression (s.chain.map (Operand.ofText : Text → Binary64))
    rw [calculate_fst, ← entries_chain, outcome_evaluate_entries hc ht] at hcause
    exact t.outcome_ne_malformed cause hcause
  · rintro ⟨hminus, hdivision⟩
    obtain ⟨o, ho⟩ := (h.calculate_of_minus hminus).resolve_left hdivision
    exact ⟨_, ho⟩

/-- **When an expression is malformed.** In every session the tokens of the expression alternate
between numbers and operators exactly if no operand is a lone minus sign, and calculating finds the
expression malformed exactly if there is one and no division by zero comes first. With a lone minus
sign there is never a result: an operator lacks an operand, or there is a division by zero. -/
theorem calculate_malformed_iff (limit : Nat) (actions : List Action) :
    let s := (start limit).run actions
    ((∃ c : Chain Binary64, tokenize s.entries = c.tokens) ↔ ['-'] ∉ s.operands) ∧
      ((∃ cause, s.calculate.1 = .error (.malformed cause)) ↔
        ['-'] ∈ s.operands ∧ s.calculate.1 ≠ .error .divisionByZero) ∧
      (['-'] ∈ s.operands → s.calculate.1 = .error .divisionByZero ∨
        ∃ o, s.calculate.1 = .error (.malformed (.missingOperand o))) := by
  intro s
  have hs : Shaped s := run_shaped limit actions
  exact ⟨hs.tokens_alternate_iff, hs.malformed_iff, hs.calculate_of_minus⟩

/-- `3 - 5 =`, and then the digit of the result deleted: calculating again finds an operator
without operands. -/
theorem lone_minus_malformed :
    ((start 5).run
      [.digit '3', .operator .sub, .digit '5', .equals, .backspace]).calculate.1 =
      .error (.malformed (.missingOperand .sub)) := by
  have hentries : ((start 5).run
      [.digit '3', .operator .sub, .digit '5', .equals, .backspace]).entries = [['-']] := by
    decide +kernel
  rw [calculate_fst, hentries]
  rfl

end Session

end PocketCalc
