import PocketCalc.Proofs.Session.Records

/-!
# The history is the end of the log

`Session.log` lists the records of all calculations that a sequence of actions finishes. A history
drops its oldest record whenever there is one too many; what is left after any number of actions is
the end of the log (`history_run`), as long as its capacity allows (`run_history_eq_log`).
-/

namespace PocketCalc

/-! ## The last elements of a list -/

theorem keepLast_of_length_le {α : Type} {count : Nat} {xs : List α} (h : xs.length ≤ count) :
    keepLast count xs = xs := by
  rw [keepLast, Nat.sub_eq_zero_of_le h, List.drop_zero]

/-- What is dropped early would have been dropped later. -/
theorem keepLast_append {α : Type} (count : Nat) (xs ys : List α) :
    keepLast count (keepLast count xs ++ ys) = keepLast count (xs ++ ys) := by
  -- Both sides are ends of `xs ++ ys`, and they have the same length.
  have hend : keepLast count (keepLast count xs ++ ys) <:+ xs ++ ys := by
    obtain ⟨front, hfront⟩ : keepLast count xs <:+ xs := List.drop_suffix _ _
    exact (List.drop_suffix _ _).trans ⟨front, by rw [← List.append_assoc, hfront]⟩
  have hlen : (keepLast count (keepLast count xs ++ ys)).length =
      (keepLast count (xs ++ ys)).length := by
    simp only [length_keepLast, List.length_append]
    omega
  have hsuffix := List.suffix_of_suffix_length_le hend (List.drop_suffix _ _) (Nat.le_of_eq hlen)
  exact hsuffix.eq_of_length hlen

namespace Session

/-- The calculations that a sequence of actions finishes, in order. -/
def log (s : Session) : List Action → List Record
  | [] => []
  | a :: as => (s.finished? a).toList ++ (s.press a).log as

theorem log_append (s : Session) (actions more : List Action) :
    s.log (actions ++ more) = s.log actions ++ (s.run actions).log more := by
  induction actions generalizing s with
  | nil => rfl
  | cons a actions ih =>
    rw [List.cons_append, log, ih, log, List.append_assoc]
    rfl

/-- The outcome of the calculation that an action makes, if it makes one. -/
def outcome? (s : Session) : Action → Option (Except (Fault Binary64) Binary64)
  | .equals => some s.calculate.1
  | _ => none

/-- The outcomes of all calculations that a sequence of actions makes, in order, those that fail
included. -/
def outcomes (s : Session) : List Action → List (Except (Fault Binary64) Binary64)
  | [] => []
  | a :: as => (s.outcome? a).toList ++ (s.press a).outcomes as

theorem capacity_press (s : Session) (a : Action) : (s.press a).capacity = s.capacity := by
  cases a with
  | equals => rcases s.calculate_cases with ⟨v, -, h⟩ | ⟨fault, -, h⟩ <;> rw [press, h]
  | digit | operator | clearAll | clearEntry | backspace | memoryClear | memoryRecall | memoryAdd
  | memorySubtract => rfl

theorem capacity_run (s : Session) (actions : List Action) :
    (s.run actions).capacity = s.capacity := by
  induction actions generalizing s with
  | nil => rfl
  | cons a actions ih => exact (ih (s.press a)).trans (s.capacity_press a)

/-- A history that is not too long is the end of itself and what an action adds. -/
theorem Shaped.history_press_eq_keepLast {s : Session} (h : Shaped s)
    (hlen : s.history.length ≤ s.capacity) (a : Action) :
    (s.press a).history = keepLast s.capacity (s.history ++ (s.finished? a).toList) := by
  rw [h.history_press]
  cases s.finished? a with
  | none => simp [keepLast_of_length_le hlen]
  | some r => rfl

theorem Shaped.length_history_press_le {s : Session} (h : Shaped s)
    (hlen : s.history.length ≤ s.capacity) (a : Action) :
    (s.press a).history.length ≤ (s.press a).capacity := by
  rw [h.history_press_eq_keepLast hlen, capacity_press, length_keepLast]
  exact Nat.min_le_left _ _

theorem run_length_history_le (limit : Nat) (actions : List Action) :
    ((start limit).run actions).history.length ≤ ((start limit).run actions).capacity := by
  have hpress : ∀ s a, Shaped s ∧ s.history.length ≤ s.capacity →
      Shaped (s.press a) ∧ (s.press a).history.length ≤ (s.press a).capacity :=
    fun s a h => ⟨shaped_press s a h.1, h.1.length_history_press_le h.2 a⟩
  have hstart : ∀ limit, Shaped (start limit) ∧
      (start limit).history.length ≤ (start limit).capacity :=
    fun limit => ⟨run_shaped limit [], Nat.zero_le _⟩
  exact (run_induction hstart hpress limit actions).2

/-- **A run leaves the end of the log**, counting what was in the history before. -/
theorem Shaped.history_run {s : Session} (h : Shaped s) (hlen : s.history.length ≤ s.capacity)
    (actions : List Action) :
    (s.run actions).history = keepLast s.capacity (s.history ++ s.log actions) := by
  induction actions generalizing s with
  | nil => simp [run, log, keepLast_of_length_le hlen]
  | cons a actions ih =>
    have hpress := h.history_press_eq_keepLast hlen a
    have hle := h.length_history_press_le hlen a
    calc ((s.press a).run actions).history
        = keepLast s.capacity ((s.press a).history ++ (s.press a).log actions) := by
          rw [ih (shaped_press s a h) hle, capacity_press]
      _ = keepLast s.capacity (s.history ++ s.log (a :: actions)) := by
          rw [hpress, keepLast_append, log, List.append_assoc]

/-- **The history is the end of the log.** Of all calculations with a result that were finished
since the start it holds the last `max limit 1`, in order, or all if they are not more. -/
theorem run_history_eq_log (limit : Nat) (actions : List Action) :
    let s := (start limit).run actions
    let log := (start limit).log actions
    s.history = log.drop (log.length - max limit 1) ∧
      s.history.length = min (max limit 1) log.length := by
  intro s log
  have hhistory : s.history = keepLast (max limit 1) log :=
    (run_shaped limit []).history_run (Nat.zero_le _) actions
  exact ⟨hhistory, by rw [hhistory, length_keepLast]⟩

end Session

end PocketCalc
