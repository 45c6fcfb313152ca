import PocketCalc.Proofs.Session.Outcome
import PocketCalc.Proofs.Text.Splitting
import PocketCalc.Proofs.Text.Unwords

/-!
# Records can be read back

A record keeps its expression as one text, the entries joined by spaces. Operands can contain
spaces, since typing goes on behind markers, and one can look like an operator; but no such operand
takes part in a calculation that has a result. So a record loses nothing
(`Shaped.splitOn_record`): splitting its expression at the spaces gives the entries back, and
evaluating those gives the result that is recorded (`Shaped.record_consistent`).
-/

namespace PocketCalc

/-- The expression of the record splits into the entries of a chain, and the value of these is
shown as the result of the record. -/
def Record.Consistent (r : Record) : Prop :=
  (r.expression.splitOn ' ').length % 2 = 1 ∧
    ∃ (c : Chain Text) (v : Binary64),
      r.expression.splitOn ' ' = c.entries ∧
      (∀ x ∈ c.operands, Operator.ofText? x = none) ∧
      (evaluate (r.expression.splitOn ' ') : Evaluation Binary64).outcome = .ok v ∧
      v.shownResult = r.result

theorem Record.equals_mem_text (r : Record) : '=' ∈ r.text := by
  simp [text]

theorem equals_mem_join {records : List Record} (h : records ≠ []) :
    '=' ∈ Text.join historySeparator (records.map Record.text) := by
  obtain ⟨r, hr⟩ := List.exists_mem_of_ne_nil records h
  exact Text.mem_join (List.mem_map_of_mem hr) r.equals_mem_text

/-! ## The entries of a calculation with a result are words -/

theorem Entry.isBlank_of_mem_tail {d : Text} (hd : ∀ c ∈ d, c.isDigit ∨ c = '.') :
    ∀ c ∈ d, Text.isBlank c = false := by
  intro c hc
  rcases hd c hc with hdigit | rfl
  · exact Text.isBlank_of_isDigit hdigit
  · decide

/-- Of the markers only those of faults contain blanks, and no beginning of these is a number,
whatever is typed behind it. -/
theorem Entry.Shaped.isWord {w : Text} (h : Entry.Shaped w) (hnum : Binary64.ofText w ≠ .nan) :
    Text.IsWord w := by
  refine ⟨h.ne_nil, ?_⟩
  obtain ⟨-, -, p, d, rfl, hd, hpd⟩ := h
  have htail := Entry.isBlank_of_mem_tail hd
  rcases hpd with ⟨hne, m, hm, hpm⟩ | ⟨rfl, -⟩
  · have hmarkers : ∀ m ∈ Entry.markers, m.head? = some 'E' ∨ m.all (!Text.isBlank ·) := by
      decide
    rcases hmarkers m hm with hE | hblank
    · -- A beginning of a fault's marker keeps its `E`, which no number begins with.
      obtain ⟨c, r, rfl⟩ := List.exists_cons_of_ne_nil hne
      obtain ⟨t, rfl⟩ := hpm
      obtain rfl : c = 'E' := by simpa using hE
      exact absurd (ofText_E (r ++ d)) hnum
    · have hclean : ∀ c ∈ m, Text.isBlank c = false := by simpa using hblank
      intro c hc
      rcases List.mem_append.1 hc with hc | hc
      · exact hclean c (hpm.subset hc)
      · exact htail c hc
  · exact htail

theorem Operator.isWord_symbol (o : Operator) : Text.IsWord [o.symbol] := by
  have hsymbol : Text.isBlank o.symbol = false := by
    cases o <;> decide
  exact ⟨by simp, by simpa using hsymbol⟩

theorem Chain.forall_mem_entries {P : Text → Prop} {c : Chain Text}
    (hoperand : ∀ x ∈ c.operands, P x) (hsymbol : ∀ o : Operator, P [o.symbol]) :
    ∀ x ∈ c.entries, P x := by
  intro x hx
  simp only [Chain.entries, Chain.operands, List.mem_cons, List.mem_flatMap, List.mem_map]
    at hx hoperand
  rcases hx with rfl | ⟨p, hp, rfl | rfl | hx⟩
  · exact hoperand _ (.inl rfl)
  · exact hsymbol p.1
  · exact hoperand _ (.inr ⟨p, hp, rfl⟩)
  · simp at hx

theorem Chain.length_entries (c : Chain Text) : c.entries.length = 2 * c.rest.length + 1 := by
  obtain ⟨x, rest⟩ := c
  rw [Chain.entries, List.length_cons]
  induction rest with
  | nil => rfl
  | cons p rest ih => simp at ih ⊢; omega

namespace Session

theorem Shaped.forall_mem_entries {s : Session} (h : Shaped s) {P : Text → Prop}
    (hoperand : ∀ w, Entry.Shaped w → P w) (hsymbol : ∀ o : Operator, P [o.symbol]) :
    ∀ w ∈ s.entries, P w := by
  rw [← entries_chain]
  refine Chain.forall_mem_entries (fun w hw => hoperand w ?_) hsymbol
  rw [operands_chain] at hw
  exact h.operands w hw

theorem Shaped.isWord_entries {s : Session} (h : Shaped s) {v : Binary64}
    (hv : (evaluate s.chain.entries : Evaluation Binary64).outcome = .ok v) :
    ∀ x ∈ s.chain.entries, Text.IsWord x := by
  refine Chain.forall_mem_entries (fun x hx => ?_) Operator.isWord_symbol
  have hnum := (operands_of_evaluate_ok hv x hx).2
  rw [operands_chain] at hx
  exact (h.operands x hx).isWord hnum

/-- Nothing is trimmed from the record of a calculation that has a result. -/
theorem Shaped.record_eq {s : Session} (h : Shaped s) {v : Binary64}
    (hv : s.calculate.1 = .ok v) :
    record s.entries v = ⟨Text.unwords s.entries, v.shownResult⟩ := by
  rw [calculate_fst, ← entries_chain] at hv
  rw [record, ← entries_chain, Text.trim_unwords (h.isWord_entries hv)]

/-- **Joining and trimming lose nothing** when a calculation has a result. -/
theorem Shaped.splitOn_record {s : Session} (h : Shaped s) {v : Binary64}
    (hv : s.calculate.1 = .ok v) : (record s.entries v).expression.splitOn ' ' = s.entries := by
  rw [h.record_eq hv]
  rw [calculate_fst, ← entries_chain] at hv
  have hne : s.chain.entries ≠ [] := by simp [Chain.entries]
  rw [← entries_chain, Text.splitOn_unwords hne (h.isWord_entries hv)]

theorem Shaped.record_consistent {s : Session} (h : Shaped s) {v : Binary64}
    (hv : s.calculate.1 = .ok v) : (record s.entries v).Consistent := by
  have hsplit := h.splitOn_record hv
  rw [calculate_fst, ← entries_chain] at hv
  rw [← entries_chain] at hsplit ⊢
  refine ⟨?_, s.chain, v, hsplit, fun x hx => (operands_of_evaluate_ok hv x hx).1, ?_, rfl⟩
  · rw [hsplit, Chain.length_entries]
    omega
  · rw [hsplit]
    exact hv

/-! ## Histories -/

theorem mem_keepLast {α : Type} {count : Nat} {xs : List α} {x : α} (h : x ∈ keepLast count xs) :
    x ∈ xs :=
  List.mem_of_mem_drop h

/-- The calculation that an action finishes, if it has a result: the entries keyed in, joined by
spaces, and the text of their value. -/
def finished? (s : Session) : Action → Option Record
  | .equals => s.calculate.1.toOption.map fun v => ⟨Text.unwords s.entries, v.shownResult⟩
  | _ => none

theorem finished?_eq_some {s : Session} {a : Action} {r : Record} :
    s.finished? a = some r ↔
      a = .equals ∧ ∃ v, s.calculate.1 = .ok v ∧ r = ⟨Text.unwords s.entries, v.shownResult⟩ := by
  cases a with
  | equals =>
    cases hout : s.calculate.1 <;> simp [finished?, hout, Except.toOption, eq_comm]
  | digit | operator | clearAll | clearEntry | backspace | memoryClear | memoryRecall | memoryAdd
  | memorySubtract => simp [finished?]

/-- **What an action does to the history**: it records the calculation that it finishes, if any. -/
theorem Shaped.history_press {s : Session} (h : Shaped s) (a : Action) :
    (s.press a).history =
      (s.finished? a).elim s.history fun r => keepLast s.capacity (s.history ++ [r]) := by
  cases a with
  | equals =>
    rcases s.calculate_cases with ⟨v, -, hcalc⟩ | ⟨fault, -, hcalc⟩
    · have hv : s.calculate.1 = .ok v := by rw [hcalc]
      rw [press, hcalc, finished?, hv, h.record_eq hv]
      rfl
    · rw [press, finished?, hcalc]
      rfl
  | digit | operator | clearAll | clearEntry | backspace | memoryClear | memoryRecall | memoryAdd
  | memorySubtract => rfl

/-- **What holds of every finished calculation holds of the whole history**, in every session. -/
theorem run_forall_history {P : Record → Prop}
    (hfinished : ∀ {s : Session}, Shaped s → ∀ a r, s.finished? a = some r → P r) (limit : Nat)
    (actions : List Action) : ∀ r ∈ ((start limit).run actions).history, P r := by
  have hpress : ∀ s a, (Shaped s ∧ ∀ r ∈ s.history, P r) →
      Shaped (s.press a) ∧ ∀ r ∈ (s.press a).history, P r := by
    intro s a ⟨hs, hold⟩
    refine ⟨shaped_press s a hs, fun r hr => ?_⟩
    rw [hs.history_press] at hr
    cases hf : s.finished? a with
    | none =>
      rw [hf] at hr
      exact hold r hr
    | some new =>
      rw [hf] at hr
      -- The capacity only drops records, so what is there is old or has just been finished.
      rcases List.mem_append.1 (mem_keepLast hr) with hr | hr
      · exact hold r hr
      · rw [List.mem_singleton.1 hr]
        exact hfinished hs a new hf
  have hstart : ∀ limit, Shaped (start limit) ∧ ∀ r ∈ (start limit).history, P r :=
    fun limit => ⟨run_shaped limit [], fun r hr => nomatch hr⟩
  exact (run_induction hstart hpress limit actions).2

theorem Shaped.consistent_of_finished {s : Session} (h : Shaped s) {a : Action} {r : Record}
    (hr : s.finished? a = some r) : r.Consistent := by
  obtain ⟨-, v, hv, rfl⟩ := finished?_eq_some.1 hr
  rw [← h.record_eq hv]
  exact h.record_consistent hv

/-- Entries and operands are shaped, and all records can be read back. -/
structure Recorded (s : Session) : Prop where
  shaped : Shaped s
  consistent : ∀ r ∈ s.history, r.Consistent

theorem run_recorded (limit : Nat) (actions : List Action) :
    Recorded ((start limit).run actions) :=
  ⟨run_shaped limit actions,
    run_forall_history (fun h _ _ => h.consistent_of_finished) limit actions⟩

/-- **Every record of a history can be read back.** Splitting its expression at the spaces gives
operands and operator symbols in turn, whose value is shown as the recorded result. And whenever a
calculation has a result, splitting gives back exactly the entries that it was made from. -/
theorem run_history_consistent (limit : Nat) (actions : List Action) :
    let s := (start limit).run actions
    (∀ r ∈ s.history, r.Consistent) ∧
      ∀ v, s.calculate.1 = .ok v →
        (record s.entries v).expression.splitOn ' ' = s.entries := by
  intro s
  have hs : Recorded s := run_recorded limit actions
  exact ⟨hs.consistent, fun v hv => hs.shaped.splitOn_record hv⟩

end Session

end PocketCalc
