import PocketCalc.Expression.Evaluation
import PocketCalc.Session.Action
import PocketCalc.Session.Entry
import PocketCalc.Session.History
import PocketCalc.Text.Blank

/-!
# Calculator sessions

A session holds the entry being typed, the operands already committed with the operators that
followed them, the memory register, the history and the steps of the last calculation.
`Session.press` says what each action does to it, `Session.run` what a sequence of actions does.
-/

namespace PocketCalc

/-- An operand that has been committed, with the operator that committed it. -/
structure Committed where
  operand : Text
  operator : Operator
deriving DecidableEq, Repr

def Committed.entries (c : Committed) : List Text :=
  [c.operand, [c.operator.symbol]]

/-- A calculator in use. -/
structure Session where
  entry : Text
  pending : List Committed
  memory : Binary64
  /-- The finished calculations, the oldest first. -/
  history : List Record
  /-- How many records the history keeps. -/
  capacity : Nat
  /-- The steps of the last calculation, none if it failed. -/
  lastSteps : List (Step Binary64)
deriving DecidableEq

namespace Session

/-- A calculator that has just been switched on (`with_config`). Its history keeps at least one
record. -/
def start (historyLimit : Nat) : Session where
  entry := Entry.start
  pending := []
  memory := .zero
  history := []
  capacity := max historyLimit 1
  lastSteps := []

/-- The committed operands and operator symbols in order. -/
def pendingEntries (s : Session) : List Text :=
  s.pending.flatMap Committed.entries

/-- The entries of the whole expression: the committed ones and the one being typed. -/
def entries (s : Session) : List Text :=
  s.pendingEntries ++ [s.entry]

/-- The committed part of the expression as one text (`pending_expression`). -/
def pendingText (s : Session) : Text :=
  Text.unwords s.pendingEntries

/-- The memory register as shown (`memory_display`). -/
def memoryText (s : Session) : Text :=
  "M: ".toList ++ s.memory.shown

/-- The history on one line, the latest record first (`history_display`). -/
def historyText (s : Session) : Text :=
  PocketCalc.historyText s.history

/-- The record of a calculation of the given entries with the given value. -/
def record (entries : List Text) (value : Binary64) : Record :=
  ⟨Text.trim (Text.unwords entries), value.shownResult⟩

/-- A character is typed into the entry (`append_digit_or_point`). -/
def type (s : Session) (c : Char) : Session :=
  { s with entry := Entry.append s.entry c }

/-- The entry is committed together with an operator, and a new one begins (`commit_operator`). -/
def commit (s : Session) (o : Operator) : Session :=
  { s with entry := Entry.start, pending := s.pending ++ [⟨s.entry, o⟩] }

/-- The whole expression is evaluated (`finalize`). Nothing stays pending: the entry becomes the
result, which is recorded, or the marker of the fault, which is not. -/
def calculate (s : Session) : Except (Fault Binary64) Binary64 × Session :=
  let evaluation : Evaluation Binary64 := evaluate s.entries
  match evaluation.outcome with
  | .ok value =>
    (.ok value,
      { s with
        entry := value.shownResult
        pending := []
        history := keepLast s.capacity (s.history ++ [record s.entries value])
        lastSteps := evaluation.steps })
  | .error fault =>
    (.error fault, { s with entry := fault.marker, pending := [], lastSteps := [] })

/-- All that a calculation can do: show and record a result, or show the marker of a fault. -/
theorem calculate_cases (s : Session) :
    (∃ v, (evaluate s.entries : Evaluation Binary64).outcome = .ok v ∧
      s.calculate = (.ok v,
        { s with
          entry := v.shownResult
          pending := []
          history := keepLast s.capacity (s.history ++ [record s.entries v])
          lastSteps := (evaluate s.entries : Evaluation Binary64).steps })) ∨
    ∃ fault, (evaluate s.entries : Evaluation Binary64).outcome = .error fault ∧
      s.calculate =
        (.error fault, { s with entry := fault.marker, pending := [], lastSteps := [] }) := by
  cases h : (evaluate s.entries : Evaluation Binary64).outcome with
  | ok v => exact .inl ⟨v, rfl, by simp only [calculate, h]⟩
  | error fault => exact .inr ⟨fault, rfl, by simp only [calculate, h]⟩

theorem calculate_fst (s : Session) :
    s.calculate.1 = (evaluate s.entries : Evaluation Binary64).outcome := by
  rcases s.calculate_cases with ⟨v, hout, h⟩ | ⟨fault, hout, h⟩ <;> rw [h, hout]

/-- What a calculation with a result leaves. -/
theorem calculate_of_ok {s : Session} {v : Binary64} (h : s.calculate.1 = .ok v) :
    s.calculate.2 =
      { s with
        entry := v.shownResult
        pending := []
        history := keepLast s.capacity (s.history ++ [record s.entries v])
        lastSteps := (evaluate s.entries : Evaluation Binary64).steps } := by
  rcases s.calculate_cases with ⟨w, -, hcalc⟩ | ⟨fault, -, hcalc⟩ <;> rw [hcalc] at h ⊢
  · cases h
    rfl
  · cases h

/-- What a failed calculation leaves. -/
theorem calculate_of_fault {s : Session} {fault : Fault Binary64}
    (h : s.calculate.1 = .error fault) :
    s.calculate.2 = { s with entry := fault.marker, pending := [], lastSteps := [] } := by
  rcases s.calculate_cases with ⟨v, -, hcalc⟩ | ⟨fault', -, hcalc⟩ <;> rw [hcalc] at h ⊢
  · cases h
  · cases h
    rfl

/-- The session after an action (`apply`). -/
def press (s : Session) : Action → Session
  | .digit c => s.type c
  | .operator o => s.commit o
  | .equals => s.calculate.2
  | .clearAll => { s with entry := Entry.start, pending := [] }
  | .clearEntry => { s with entry := Entry.start }
  | .backspace => { s with entry := Entry.backspace s.entry }
  | .memoryClear => { s with memory := .zero }
  | .memoryRecall => { s with entry := s.memory.shown }
  | .memoryAdd => { s with memory := s.memory + Entry.value s.entry }
  | .memorySubtract => { s with memory := s.memory - Entry.value s.entry }

/-- The session after a sequence of actions. -/
def run (s : Session) (actions : List Action) : Session :=
  actions.foldl press s

theorem run_append (s : Session) (actions more : List Action) :
    s.run (actions ++ more) = (s.run actions).run more :=
  List.foldl_append

theorem run_concat (s : Session) (actions : List Action) (a : Action) :
    s.run (actions ++ [a]) = (s.run actions).press a :=
  s.run_append actions [a]

/-- What holds of a calculator just switched on and is kept by every action holds after any
sequence of actions. -/
theorem run_induction {P : Session → Prop} (hstart : ∀ limit, P (start limit))
    (hpress : ∀ s a, P s → P (press s a)) (limit : Nat) (actions : List Action) :
    P ((start limit).run actions) := by
  have hfold : ∀ s, P s → P (s.run actions) := by
    induction actions with
    | nil => exact fun s hs => hs
    | cons a actions ih => exact fun s hs => ih _ (hpress s a hs)
  exact hfold _ (hstart limit)

/-- The session after each character of a text that stands for an action. -/
def typeText (s : Session) (t : Text) : Session :=
  s.run (t.filterMap Action.ofChar?)

end Session

end PocketCalc
