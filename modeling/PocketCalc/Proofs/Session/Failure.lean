import PocketCalc.Proofs.Session.Log

/-!
# After a failed calculation

The marker of a fault takes the place of the entry, and typing goes on behind it. Whatever is typed
there, the text still begins with the marker's `E` and is no number; committed, it stays among the
operands until the next calculation, which fails because of it and shows a marker again. So nothing
but clearing or deleting ends a failure: `calculate_fails_until_cleared`.
-/

namespace PocketCalc

/-- The actions of calculating on: typing, operators and asking for the result. -/
inductive Action.Continues : Action → Prop
  | digit (c : Char) : Continues (.digit c)
  | operator (o : Operator) : Continues (.operator o)
  | equals : Continues .equals

theorem Entry.head_append {w : Text} {x : Char} (hw : w.head? = some x) (hx : x ≠ '0') (c : Char) :
    (append w c).head? = some x := by
  obtain ⟨r, rfl⟩ := List.head?_eq_some_iff.1 hw
  have hstart : x :: r ≠ start := by simp [start, hx]
  rw [append, if_neg hstart]
  split
  · rfl
  · split <;> rfl

theorem Fault.head_marker {α : Type} (fault : Fault α) : fault.marker.head? = some 'E' := by
  cases fault <;> rfl

namespace Session

/-- Some operand begins as the marker of a fault does. -/
def Marked (s : Session) : Prop :=
  ∃ w ∈ s.operands, w.head? = some 'E'

theorem marked_of_entry {s : Session} (h : s.entry.head? = some 'E') : Marked s :=
  ⟨s.entry, by simp [operands], h⟩

/-- A marked operand is no number, so there is no result. -/
theorem Marked.calculate {s : Session} (h : Marked s) : ∃ fault, s.calculate.1 = .error fault := by
  obtain ⟨w, hw, hE⟩ := h
  cases hout : s.calculate.1 with
  | error fault => exact ⟨fault, rfl⟩
  | ok v =>
    rw [calculate_fst, ← entries_chain] at hout
    rw [← operands_chain] at hw
    obtain ⟨r, rfl⟩ := List.head?_eq_some_iff.1 hE
    exact absurd (ofText_E r) (operands_of_evaluate_ok hout _ hw).2

/-- A session in which nothing has come right since the history and the memory were as given. -/
structure Failing (history : List Record) (memory : Binary64) (s : Session) : Prop where
  marked : Marked s
  history_eq : s.history = history
  memory_eq : s.memory = memory
  lastSteps_eq : s.lastSteps = []

theorem failing_calculate {s : Session} {fault : Fault Binary64}
    (h : s.calculate.1 = .error fault) : Failing s.history s.memory s.calculate.2 := by
  rw [calculate_of_fault h]
  exact ⟨marked_of_entry fault.head_marker, rfl, rfl, rfl⟩

variable {history : List Record} {memory : Binary64}

/-- The marked operand stays: in the entry with more behind it, among the committed operands, or
as a new marker. -/
theorem Failing.press {s : Session} (h : Failing history memory s) {a : Action}
    (ha : a.Continues) : Failing history memory (s.press a) := by
  cases ha with
  | digit c =>
    obtain ⟨⟨w, hw, hE⟩, hhistory, hmemory, hsteps⟩ := h
    refine ⟨?_, hhistory, hmemory, hsteps⟩
    -- Typing only adds to the end of the entry, and the marker's `E` is its first character.
    rcases List.mem_append.1 hw with hpending | hentry
    · exact ⟨w, List.mem_append_left _ hpending, hE⟩
    · rw [List.mem_singleton.1 hentry] at hE
      exact marked_of_entry (Entry.head_append hE (by decide) c)
  | operator o =>
    obtain ⟨⟨w, hw, hE⟩, hhistory, hmemory, hsteps⟩ := h
    refine ⟨⟨w, ?_, hE⟩, hhistory, hmemory, hsteps⟩
    have hoperands : (s.press (.operator o)).operands = s.operands ++ [Entry.start] := by
      simp [Session.press, commit, operands]
    rw [hoperands]
    exact List.mem_append_left _ hw
  | equals =>
    obtain ⟨fault, hfault⟩ := h.marked.calculate
    have hnext := failing_calculate hfault
    rwa [h.history_eq, h.memory_eq] at hnext

theorem Failing.run {s : Session} (h : Failing history memory s) {actions : List Action}
    (hactions : ∀ a ∈ actions, a.Continues) :
    Failing history memory (s.run actions) ∧
      ∀ outcome ∈ s.outcomes actions, ∃ fault, outcome = .error fault := by
  induction actions generalizing s with
  | nil => exact ⟨h, by simp [outcomes]⟩
  | cons a actions ih =>
    rw [List.forall_mem_cons] at hactions
    obtain ⟨hrun, houtcomes⟩ := ih (h.press hactions.1) hactions.2
    refine ⟨hrun, List.forall_mem_append.2 ⟨?_, houtcomes⟩⟩
    cases hactions.1 with
    | digit c => simp [outcome?]
    | operator o => simp [outcome?]
    | equals => simpa [outcome?] using h.marked.calculate

/-- **A failure lasts.** After a failed calculation, as long as only digits, points, operators and
equals follow, in any number and order, every calculation fails, and the history and the memory
stay as they were before the first failure. -/
theorem calculate_fails_until_cleared {s : Session} {fault : Fault Binary64}
    (hfault : s.calculate.1 = .error fault) {actions : List Action}
    (hactions : ∀ a ∈ actions, a.Continues) :
    let t := s.calculate.2.run actions
    (∀ outcome ∈ s.calculate.2.outcomes actions, ∃ fault, outcome = .error fault) ∧
      t.history = s.history ∧ t.memory = s.memory ∧ t.lastSteps = [] := by
  intro t
  obtain ⟨hrun, houtcomes⟩ := (failing_calculate hfault).run hactions
  exact ⟨houtcomes, hrun.history_eq, hrun.memory_eq, hrun.lastSteps_eq⟩

/-- `5 / 0 =` and then `1 . + 2 = 3 =` with a number in memory: both calculations fail as well. -/
theorem calculate_fails_after_division :
    let s := (start 5).run [.digit '4', .memoryAdd, .equals, .operator .div, .digit '0']
    let actions : List Action :=
      [.digit '1', .digit '.', .operator .add, .digit '2', .equals, .digit '3', .equals]
    let t := s.calculate.2.run actions
    s.calculate.1 = .error .divisionByZero ∧ (∀ a ∈ actions, a.Continues) ∧
      (s.calculate.2.outcomes actions).length = 2 ∧
      (∀ outcome ∈ s.calculate.2.outcomes actions, ∃ fault, outcome = .error fault) ∧
      t.history = s.history ∧ t.memory = s.memory ∧ t.lastSteps = [] := by
  intro s actions t
  have hfault : s.calculate.1 = .error .divisionByZero := by decide +kernel
  have hactions : ∀ a ∈ actions, a.Continues := by
    simp only [actions, List.forall_mem_cons, List.not_mem_nil, false_imp_iff, implies_true,
      and_true]
    exact ⟨.digit _, .digit _, .operator _, .digit _, .equals, .digit _, .equals⟩
  exact ⟨hfault, hactions, rfl, calculate_fails_until_cleared hfault hactions⟩

end Session

end PocketCalc
