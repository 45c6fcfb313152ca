import PocketCalc.Proofs.Session.Log

/-!
# Independent calculations

What a calculation comes to depends on the entry and the committed operands alone. Two sessions
that agree on these (`Agrees`) go on to agree, whatever their memories and histories hold, under
every action that does not recall the memory; and the actions that only change the memory can be
left out on one side. Clearing makes any two sessions agree, so nothing done before it shows in a
later result: `run_clearAll_independent`.
-/

namespace PocketCalc

/-- Whether an action changes the memory register and nothing else. -/
def Action.setsMemory : Action → Bool
  | .memoryClear | .memoryAdd | .memorySubtract => true
  | _ => false

namespace Session

/-- The two sessions show the same entry behind the same committed operands. -/
structure Agrees (s t : Session) : Prop where
  entry : s.entry = t.entry
  pending : s.pending = t.pending

theorem Agrees.refl (s : Session) : Agrees s s :=
  ⟨rfl, rfl⟩

theorem Agrees.symm {s t : Session} (h : Agrees s t) : Agrees t s :=
  ⟨h.entry.symm, h.pending.symm⟩

theorem Agrees.trans {s t u : Session} (h : Agrees s t) (h' : Agrees t u) : Agrees s u :=
  ⟨h.entry.trans h'.entry, h.pending.trans h'.pending⟩

theorem agrees_clearAll (s t : Session) : Agrees (s.press .clearAll) (t.press .clearAll) :=
  ⟨rfl, rfl⟩

/-! ## One action -/

theorem Agrees.entries {s t : Session} (h : Agrees s t) : s.entries = t.entries := by
  rw [Session.entries, Session.entries, pendingEntries, pendingEntries, h.entry, h.pending]

theorem Agrees.calculate_fst {s t : Session} (h : Agrees s t) :
    s.calculate.1 = t.calculate.1 := by
  rw [s.calculate_fst, t.calculate_fst, h.entries]

/-- With the result or with the marker, both sessions show the same and keep nothing. -/
theorem Agrees.calculate {s t : Session} (h : Agrees s t) :
    Agrees s.calculate.2 t.calculate.2 := by
  have hout := h.calculate_fst
  cases ht : t.calculate.1 with
  | ok v =>
    rw [calculate_of_ok ht, calculate_of_ok (hout.trans ht)]
    exact ⟨rfl, rfl⟩
  | error fault =>
    rw [calculate_of_fault ht, calculate_of_fault (hout.trans ht)]
    exact ⟨rfl, rfl⟩

theorem Agrees.press {s t : Session} (h : Agrees s t) {a : Action} (ha : a ≠ .memoryRecall) :
    Agrees (s.press a) (t.press a) := by
  obtain ⟨hentry, hpending⟩ := h
  cases a with
  | digit c => exact ⟨congrArg (Entry.append · c) hentry, hpending⟩
  | operator o =>
    refine ⟨rfl, ?_⟩
    change s.pending ++ [⟨s.entry, o⟩] = t.pending ++ [⟨t.entry, o⟩]
    rw [hentry, hpending]
  | equals => exact Agrees.calculate ⟨hentry, hpending⟩
  | clearAll => exact agrees_clearAll s t
  | clearEntry => exact ⟨rfl, hpending⟩
  | backspace => exact ⟨congrArg Entry.backspace hentry, hpending⟩
  | memoryRecall => exact absurd rfl ha
  | memoryClear | memoryAdd | memorySubtract => exact ⟨hentry, hpending⟩

theorem Agrees.outcome? {s t : Session} (h : Agrees s t) (a : Action) :
    s.outcome? a = t.outcome? a := by
  cases a with
  | equals => exact congrArg some h.calculate_fst
  | digit | operator | clearAll | clearEntry | backspace | memoryClear | memoryRecall | memoryAdd
  | memorySubtract => rfl

theorem Agrees.finished? {s t : Session} (h : Agrees s t) (a : Action) :
    s.finished? a = t.finished? a := by
  cases a with
  | equals => rw [Session.finished?, Session.finished?, h.calculate_fst, h.entries]
  | digit | operator | clearAll | clearEntry | backspace | memoryClear | memoryRecall | memoryAdd
  | memorySubtract => rfl

/-- Changing the memory calculates nothing and leaves the expression as it is. -/
theorem press_setsMemory (s : Session) {a : Action} (ha : a.setsMemory = true) :
    Agrees (s.press a) s ∧ s.outcome? a = none ∧ s.finished? a = none := by
  cases a with
  | memoryClear | memoryAdd | memorySubtract => exact ⟨⟨rfl, rfl⟩, rfl, rfl⟩
  | digit | operator | equals | clearAll | clearEntry | backspace | memoryRecall => cases ha

/-! ## Runs -/

/-- The two runs come to the same: the expression at the end, the outcomes of all calculations one
by one, and the calculations that are recorded. -/
structure SameCourse (s t : Session) (as bs : List Action) : Prop where
  final : Agrees (s.run as) (t.run bs)
  outcomes : s.outcomes as = t.outcomes bs
  log : s.log as = t.log bs

theorem SameCourse.symm {s t : Session} {as bs : List Action} (h : SameCourse s t as bs) :
    SameCourse t s bs as :=
  ⟨h.final.symm, h.outcomes.symm, h.log.symm⟩

theorem SameCourse.trans {s t u : Session} {as bs cs : List Action} (h : SameCourse s t as bs)
    (h' : SameCourse t u bs cs) : SameCourse s u as cs :=
  ⟨h.final.trans h'.final, h.outcomes.trans h'.outcomes, h.log.trans h'.log⟩

/-- Sessions that agree run alike, also if one of them skips the actions that set the memory. -/
theorem Agrees.sameCourse_filter {s t : Session} (h : Agrees s t) {actions : List Action}
    (hrecall : .memoryRecall ∉ actions) :
    SameCourse s t actions (actions.filter (!·.setsMemory)) := by
  induction actions generalizing s t with
  | nil => exact ⟨h, rfl, rfl⟩
  | cons a actions ih =>
    rw [List.mem_cons, not_or] at hrecall
    -- The other session skips an action that sets the memory and takes every other one.
    cases hset : a.setsMemory with
    | true =>
      obtain ⟨hagrees, hout, hfinished⟩ := s.press_setsMemory hset
      have hrest := ih (hagrees.trans h) hrecall.2
      rw [List.filter_cons_of_neg (by simp [hset])]
      exact ⟨hrest.final, by simp [Session.outcomes, hout, hrest.outcomes],
        by simp [Session.log, hfinished, hrest.log]⟩
    | false =>
      have hrest := ih (h.press (Ne.symm hrecall.1)) hrecall.2
      rw [List.filter_cons_of_pos (by simp [hset])]
      exact ⟨hrest.final, by rw [Session.outcomes, Session.outcomes, h.outcome?, hrest.outcomes],
        by rw [Session.log, Session.log, h.finished?, hrest.log]⟩

theorem Agrees.sameCourse {s t : Session} (h : Agrees s t) {actions : List Action}
    (hrecall : .memoryRecall ∉ actions) : SameCourse s t actions actions :=
  (h.sameCourse_filter hrecall).trans ((Agrees.refl t).sameCourse_filter hrecall).symm

/-- **Nothing of earlier calculations shows in later ones.** Whatever two sessions were used for,
once everything is cleared the same actions, without a recall of the memory, come to the same in
both; the log is what they add to the history. And leaving out the actions that set the memory
changes nothing. -/
theorem run_clearAll_independent (limit₁ limit₂ : Nat) (earlier₁ earlier₂ : List Action)
    {actions : List Action} (hrecall : .memoryRecall ∉ actions) :
    let s := ((start limit₁).run earlier₁).press .clearAll
    let t := ((start limit₂).run earlier₂).press .clearAll
    SameCourse s t actions actions ∧
      SameCourse s s actions (actions.filter (!·.setsMemory)) ∧
      (s.run actions).history = keepLast s.capacity (s.history ++ s.log actions) ∧
      (t.run actions).history = keepLast t.capacity (t.history ++ s.log actions) := by
  intro s t
  have hcourse : SameCourse s t actions actions := (agrees_clearAll _ _).sameCourse hrecall
  have hpushed : ∀ limit earlier, let u := ((start limit).run earlier).press .clearAll
      (u.run actions).history = keepLast u.capacity (u.history ++ u.log actions) := by
    intro limit earlier
    exact (shaped_press _ .clearAll (run_shaped limit earlier)).history_run
      (run_length_history_le limit earlier) actions
  refine ⟨hcourse, (Agrees.refl s).sameCourse_filter hrecall, hpushed limit₁ earlier₁, ?_⟩
  rw [hcourse.log]
  exact hpushed limit₂ earlier₂

/-- `1 / 4 = * 2 = / 0 =`, with the memory set on the way, after a number was stored and an
operator was pending in one session, and a division by zero failed in the other. -/
theorem run_clearAll_independent_of_memory :
    let earlier₁ : List Action := [.digit '5', .memoryAdd, .operator .add]
    let earlier₂ : List Action := [.digit '9', .operator .div, .digit '0', .equals]
    let actions : List Action := [.digit '1', .memoryAdd, .operator .div, .digit '4', .equals,
      .memorySubtract, .operator .mul, .digit '2', .equals, .memoryClear, .operator .div,
      .digit '0', .equals]
    let s := ((start 5).run earlier₁).press .clearAll
    let t := ((start 1).run earlier₂).press .clearAll
    .memoryRecall ∉ actions ∧ s.memory ≠ t.memory ∧ (s.log actions).length = 2 ∧
      SameCourse s t actions actions ∧
      SameCourse s s actions (actions.filter (!·.setsMemory)) ∧
      (s.run actions).history = keepLast s.capacity (s.history ++ s.log actions) ∧
      (t.run actions).history = keepLast t.capacity (t.history ++ s.log actions) := by
  intro earlier₁ earlier₂ actions s t
  have hrecall : .memoryRecall ∉ actions := by decide
  have hmemory : s.memory ≠ t.memory := by decide +kernel
  have hlog : (s.log actions).length = 2 := by decide +kernel
  exact ⟨hrecall, hmemory, hlog, run_clearAll_independent 5 1 earlier₁ earlier₂ hrecall⟩

end Session

end PocketCalc
