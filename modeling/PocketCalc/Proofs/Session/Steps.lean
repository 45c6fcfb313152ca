import Mathlib.Data.List.Induction
import PocketCalc.Proofs.Expression.Trace
import PocketCalc.Proofs.Session.Log

/-!
# The steps shown beside the history

A session keeps the steps of its last calculation apart from the history: a failure empties the
steps and leaves the history alone, clearing touches neither, and records are dropped when there
are too many. Still the steps shown, if any, are those of the newest record, and there are none
unless the last calculation had a result: `run_lastSteps`.
-/

namespace PocketCalc

/-- The number of operator symbols among the parts of the expression between spaces. -/
def Record.operatorCount (r : Record) : Nat :=
  (r.expression.splitOn ' ').countP fun part => (Operator.ofText? part).isSome

/-- The steps are those of the recorded calculation: there is one for each operator symbol of its
expression, and the last one has its result. -/
def Record.MadeBy (r : Record) (steps : List (Step Binary64)) : Prop :=
  steps.length = r.operatorCount ∧
    ∃ step, steps.getLast? = some step ∧ step.result.shownResult = r.result

theorem getLast?_keepLast {α : Type} {count : Nat} (h : 0 < count) (xs : List α) :
    (keepLast count xs).getLast? = xs.getLast? := by
  rw [keepLast, List.getLast?_drop]
  split
  · have hnil : xs = [] := List.eq_nil_of_length_eq_zero (by omega)
    simp [hnil]
  · rfl

/-- Of the entries of a chain whose operands are numbers the operators are the operator symbols. -/
theorem Chain.countP_operator_entries {c : Chain Text}
    (hc : ∀ x ∈ c.operands, Operator.ofText? x = none) :
    (c.entries.countP fun x => (Operator.ofText? x).isSome) = c.rest.length := by
  obtain ⟨x, rest⟩ := c
  simp only [operands, List.mem_cons, forall_eq_or_imp] at hc
  obtain ⟨hx, hrest⟩ := hc
  rw [entries, List.countP_cons_of_neg (by simp [hx])]
  induction rest with
  | nil => rfl
  | cons p rest ih =>
    simp only [List.map_cons, List.mem_cons, forall_eq_or_imp] at hrest
    have hsymbol : Operator.ofText? [p.1.symbol] = some p.1 := Operator.ofChar?_symbol p.1
    simp [hsymbol, hrest.1, ih hrest.2]

namespace Session

/-! ## The newest record -/

/-- The steps shown, if any, are those of the newest record. -/
structure Stepped (s : Session) : Prop where
  shaped : Shaped s
  capacity_pos : 0 < s.capacity
  newest : s.lastSteps ≠ [] → ∃ r, s.history.getLast? = some r ∧ r.MadeBy s.lastSteps

/-- A calculation with a result makes the steps of its own record. -/
theorem Shaped.madeBy_record {s : Session} (h : Shaped s) {v : Binary64}
    (hv : s.calculate.1 = .ok v) (hsteps : (evaluate s.entries : Evaluation Binary64).steps ≠ []) :
    (record s.entries v).MadeBy (evaluate s.entries : Evaluation Binary64).steps := by
  have hsplit := h.splitOn_record hv
  rw [calculate_fst, ← entries_chain] at hv
  rw [← entries_chain] at hsplit hsteps ⊢
  obtain ⟨hlen, hlast⟩ := steps_of_evaluate_ok hv
  refine ⟨?_, ?_⟩
  · rw [Record.operatorCount, hsplit, hlen,
      Chain.countP_operator_entries (Chain.not_operator_of_evaluate_ok hv)]
  · -- There is a step, so there is an operator.
    have hrest : s.chain.rest ≠ [] := by
      intro hnil
      exact hsteps (List.eq_nil_of_length_eq_zero (by rw [hlen, hnil, List.length_nil]))
    obtain ⟨step, hstep, hresult⟩ := Option.map_eq_some_iff.1 (hlast hrest)
    exact ⟨step, hstep, by rw [hresult]; rfl⟩

theorem Stepped.calculate {s : Session} (h : Stepped s) : Stepped s.calculate.2 := by
  have hcapacity : s.calculate.2.capacity = s.capacity := s.capacity_press .equals
  refine ⟨shaped_calculate, by rw [hcapacity]; exact h.capacity_pos, ?_⟩
  cases hout : s.calculate.1 with
  | ok v =>
    rw [calculate_of_ok hout]
    intro hsteps
    refine ⟨record s.entries v, ?_, h.shaped.madeBy_record hout hsteps⟩
    simp [getLast?_keepLast h.capacity_pos]
  | error fault =>
    rw [calculate_of_fault hout]
    exact fun hsteps => absurd rfl hsteps

/-- Only a calculation changes the steps or the history. -/
theorem stepped_press (s : Session) (a : Action) (h : Stepped s) : Stepped (s.press a) := by
  have hshaped := shaped_press s a h.shaped
  have hcapacity : 0 < (s.press a).capacity := by
    rw [capacity_press]
    exact h.capacity_pos
  cases a with
  | equals => exact h.calculate
  | digit | operator | clearAll | clearEntry | backspace | memoryClear | memoryRecall | memoryAdd
  | memorySubtract => exact ⟨hshaped, hcapacity, h.newest⟩

theorem run_stepped (limit : Nat) (actions : List Action) :
    Stepped ((start limit).run actions) := by
  refine run_induction (fun limit => ⟨run_shaped limit [], ?_, ?_⟩) stepped_press limit actions
  · simp only [start]
    omega
  · exact fun hsteps => absurd rfl hsteps

/-! ## No steps without a result -/

theorem outcomes_concat (s : Session) (actions : List Action) (a : Action) :
    s.outcomes (actions ++ [a]) = s.outcomes actions ++ ((s.run actions).outcome? a).toList := by
  induction actions generalizing s with
  | nil => simp [outcomes, run]
  | cons b actions ih => simp [outcomes, run, ih (s.press b)]

/-- As long as there was no calculation, or the last one failed, no steps are shown. -/
theorem lastSteps_run {s : Session} (hs : s.lastSteps = []) {actions : List Action}
    (h : ∀ v, (s.outcomes actions).getLast? ≠ some (.ok v)) : (s.run actions).lastSteps = [] := by
  induction actions using List.reverseRecOn with
  | nil => exact hs
  | append_singleton actions a ih =>
    rw [run_concat]
    rw [outcomes_concat] at h
    cases a with
    | equals =>
      cases hout : (s.run actions).calculate.1 with
      | ok v => exact absurd (by simp [outcome?, hout]) (h v)
      | error fault => rw [press, calculate_of_fault hout]
    | digit | operator | clearAll | clearEntry | backspace | memoryClear | memoryRecall
    | memoryAdd | memorySubtract => exact ih (by simpa [outcome?] using h)

/-- **Steps and history belong together.** Whenever steps are shown there is a newest record, and
they are its steps: one for each operator symbol of its expression, with its result at the end. No
steps are shown as long as nothing was calculated or after the last calculation failed, whatever
followed it. -/
theorem run_lastSteps (limit : Nat) (actions : List Action) :
    let s := (start limit).run actions
    (s.lastSteps ≠ [] → ∃ r, s.history.getLast? = some r ∧ r.MadeBy s.lastSteps) ∧
      ((∀ v, ((start limit).outcomes actions).getLast? ≠ some (.ok v)) → s.lastSteps = []) :=
  ⟨(run_stepped limit actions).newest, lastSteps_run rfl⟩

end Session

end PocketCalc
