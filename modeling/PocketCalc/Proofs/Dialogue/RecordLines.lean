import PocketCalc.Proofs.Dialogue.Answers
import PocketCalc.Proofs.Session.Log

/-!
# The lines of a dialogue mirror the history

A dialogue writes a line for every calculation. It puts the line together from the session before
the calculation and the entry after it, not from the record that the calculation leaves in the
history. Still, with a result, the line is that record (`Reported`), so the lines with a result are
the log of the session (`resultLines_eq_log`), and what is written when the history is asked for are
the last of these lines. `transcript_mirrors_history` says so for the whole transcript.
-/

namespace PocketCalc

theorem Session.trim_expression (s : Session) :
    Text.trim (s.pendingText ++ ' ' :: s.entry) = Text.trim (Text.unwords s.entries) := by
  by_cases h : s.pendingEntries = []
  · -- Only the entry is there, and the space in front of it is trimmed.
    have hspace : Text.isBlank ' ' = true := by decide
    simp [pendingText, entries, h, Text.unwords, Text.join, Text.trim, hspace]
  · rw [entries, Text.unwords_concat h, pendingText]

theorem reverse_keepLast {α : Type} (count : Nat) (xs : List α) :
    (keepLast count xs).reverse = xs.reverse.take count := by
  rw [keepLast, List.take_reverse]

namespace Dialogue

/-! ## The line of a calculation -/

def Notice.line? : Notice → Option Text
  | .calculation expression verdict => some (expression ++ " = ".toList ++ verdict)
  | .banner | .status _ _ _ | .history _ | .farewell => none

theorem Notice.text_of_line? {n : Notice} {line : Text} (h : n.line? = some line) :
    n.text = restartLine ++ line ++ lineBreak := by
  cases n with
  | calculation expression verdict =>
    obtain rfl := Option.some.inj h
    simp [Notice.text]
  | banner | status | history | farewell => cases h

/-- The line of a calculation. With a result it is the record that the history gets; otherwise it
has the marker and the message of the fault, and the history stays as it is. -/
structure Reported (capacity : Nat) (before after : Session) (line : Text) : Prop where
  result : ∀ v, before.calculate.1 = .ok v →
    ∃ r : Record, line = r.text ∧ after.history = keepLast capacity (before.history ++ [r])
  fault : ∀ f, before.calculate.1 = .error f →
    line = Text.trim (Text.unwords before.entries) ++ " = ".toList ++ f.marker ++ " (".toList ++
        f.message ++ [')'] ∧
      after.history = before.history

theorem line?_of_ok {s : Session} {v : Binary64} (h : s.calculate.1 = .ok v) :
    (Notice.ofCalculation s s.calculate.1 s.calculate.2).line? =
      some (Session.record s.entries v).text := by
  simp only [Notice.ofCalculation, Notice.line?, s.trim_expression, h, Session.calculate_of_ok h]
  rfl

theorem line?_of_fault {s : Session} {f : Fault Binary64} (h : s.calculate.1 = .error f) :
    (Notice.ofCalculation s s.calculate.1 s.calculate.2).line? =
      some (Text.trim (Text.unwords s.entries) ++ " = ".toList ++ f.marker ++ " (".toList ++
        f.message ++ [')']) := by
  simp only [Notice.ofCalculation, Notice.line?, s.trim_expression, h,
    Session.calculate_of_fault h, List.append_assoc]

/-- **A calculation is answered by one line**, which is the record that it leaves. -/
theorem reported_calculate (s : Session) :
    ∃ line, (Notice.ofCalculation s s.calculate.1 s.calculate.2).line? = some line ∧
      Reported s.capacity s s.calculate.2 line := by
  cases hout : s.calculate.1 with
  | ok v =>
    refine ⟨_, by rw [← hout]; exact line?_of_ok hout, ?_, ?_⟩
    · intro _ _
      exact ⟨_, rfl, by rw [Session.calculate_of_ok hout]⟩
    · intro f hf
      rw [hout] at hf
      cases hf
  | error f =>
    refine ⟨_, by rw [← hout]; exact line?_of_fault hout, ?_, ?_⟩
    · intro v hv
      rw [hout] at hv
      cases hv
    · intro g hg
      obtain rfl : f = g := by simpa [hout] using hg
      exact ⟨rfl, by rw [Session.calculate_of_fault hout]⟩

theorem respond_equals (s : Session) :
    respond s (.action .equals) =
      (s.calculate.2,
        [.ofCalculation s s.calculate.1 s.calculate.2, .ofSession s.calculate.2]) := rfl

theorem lines_equals {s : Session} {line : Text}
    (h : (Notice.ofCalculation s s.calculate.1 s.calculate.2).line? = some line) :
    (respond s (.action .equals)).2.filterMap Notice.line? = [line] := by
  rw [respond_equals, List.filterMap_cons_some h]
  rfl

theorem lines_respond {s : Session} {c : Command} (h : c ≠ .action .equals) :
    (respond s c).2.filterMap Notice.line? = [] := by
  cases c with
  | action a =>
    cases a with
    | equals => exact absurd rfl h
    | digit | operator | clearAll | clearEntry | backspace | memoryClear | memoryRecall | memoryAdd
    | memorySubtract => rfl
  | showHistory | quit | ignore => rfl

/-! ## The lines with a result -/

/-- The lines of the calculations with a result, as they are written in answer to the keys. -/
def resultLines (s : Session) : List Key → List Text
  | [] => []
  | k :: rest =>
    (if s.calculate.1.isOk then (respond s (Command.ofKey k)).2.filterMap Notice.line? else []) ++
      resultLines (respond s (Command.ofKey k)).1 rest

/-- A command writes a line with a result exactly if its action finishes a calculation. -/
theorem resultLines_command {s : Session} (h : s.Shaped) (c : Command) :
    (if s.calculate.1.isOk then (respond s c).2.filterMap Notice.line? else []) =
      (s.log c.action?.toList).map Record.text := by
  by_cases hc : c = .action .equals
  · rw [hc]
    cases hout : s.calculate.1 with
    | ok v =>
      rw [lines_equals (line?_of_ok hout), h.record_eq hout]
      simp [Command.action?, Session.log, Session.finished?, hout, Except.isOk, Except.toBool,
        Except.toOption]
    | error f =>
      simp [Command.action?, Session.log, Session.finished?, hout, Except.isOk, Except.toBool,
        Except.toOption]
  · -- No other command writes a line, and none of their actions finishes a calculation.
    rw [lines_respond hc, ite_self]
    cases c with
    | action a =>
      cases a with
      | equals => exact absurd rfl hc
      | digit | operator | clearAll | clearEntry | backspace | memoryClear | memoryRecall
      | memoryAdd | memorySubtract => rfl
    | showHistory | quit | ignore => rfl

/-- **The lines with a result are the log of the session.** -/
theorem resultLines_eq_log {s : Session} (h : s.Shaped) (keys : List Key) :
    resultLines s keys = (s.log (actionsOf keys)).map Record.text := by
  induction keys generalizing s with
  | nil => rfl
  | cons k keys ih =>
    have hshaped : (respond s (Command.ofKey k)).1.Shaped := by
      rw [respond_fst]
      cases (Command.ofKey k).action? with
      | none => exact h
      | some a => exact Session.shaped_press s a h
    rw [resultLines, resultLines_command h, ih hshaped, respond_fst, actionsOf_cons,
      Session.log_append, List.map_append]

/-- What is written for the history are the last lines with a result, the latest first. -/
theorem historyText_sessionAfter (limit : Nat) (keys : List Key) :
    (sessionAfter (.start limit) keys).historyText =
      Text.join historySeparator
        ((resultLines (.start limit) keys).reverse.take (max limit 1)) := by
  have hstart : (Session.start limit).Shaped := Session.run_shaped limit []
  have hhistory : (sessionAfter (.start limit) keys).history =
      keepLast (max limit 1) ((Session.start limit).log (actionsOf keys)) := by
    rw [sessionAfter_eq_run]
    exact hstart.history_run (Nat.zero_le _) _
  rw [Session.historyText, historyText, hhistory, reverse_keepLast, resultLines_eq_log hstart,
    ← List.map_reverse, List.map_take]

/-! ## The history in words -/

def noHistory : Text :=
  "(no calculations yet)".toList

/-- The words for the history, given the lines with a result so far: the last ones, as many as the
capacity allows, the latest first. -/
def historyWords (capacity : Nat) (lines : List Text) : Text :=
  if lines = [] then noHistory else Text.join historySeparator (lines.reverse.take capacity)

/-- The history is written in these words, and no record is mistaken for an empty history. -/
theorem text_history (limit : Nat) (keys : List Key) :
    let lines := resultLines (.start limit) keys
    (Notice.history (sessionAfter (.start limit) keys).historyText).text =
        restartLine ++ "History: ".toList ++ historyWords (max limit 1) lines ++ lineBreak ∧
      (historyWords (max limit 1) lines = noHistory ↔ lines = []) := by
  intro lines
  have hlines : lines = ((Session.start limit).log (actionsOf keys)).map Record.text :=
    resultLines_eq_log (Session.run_shaped limit []) keys
  have hrecords : (sessionAfter (.start limit) keys).historyText =
      Text.join historySeparator (lines.reverse.take (max limit 1)) :=
    historyText_sessionAfter limit keys
  by_cases hnil : lines = []
  · rw [hrecords, hnil, List.reverse_nil, List.take_nil]
    exact ⟨rfl, by simp [historyWords]⟩
  · -- Every record has an equals sign, and the words for an empty history have none.
    have hsign : '=' ∈ Text.join historySeparator (lines.reverse.take (max limit 1)) := by
      rw [hlines, ← List.map_reverse, ← List.map_take]
      refine equals_mem_join fun hempty => ?_
      rcases List.take_eq_nil_iff.1 hempty with hzero | hlog
      · omega
      · exact hnil (by rw [hlines, List.reverse_eq_nil_iff.1 hlog, List.map_nil])
    have hne : Text.join historySeparator (lines.reverse.take (max limit 1)) ≠ [] :=
      List.ne_nil_of_mem hsign
    rw [hrecords, Notice.text, if_neg hne, historyWords, if_neg hnil]
    refine ⟨rfl, ?_⟩
    constructor
    · intro hwords
      rw [hwords] at hsign
      exact absurd hsign (by decide)
    · intro hempty
      exact absurd hempty hnil

/-! ## The transcript -/

/-- What is written in answer to a key, after the keys `front`. A key that asks for a result is
answered by one line, no other key by any; and the history is written in words of the lines so
far. -/
structure Mirrors (limit : Nat) (front : List Key) (k : Key) (written : List Notice) : Prop where
  calculation : AsksForResult k →
    let before := sessionAfter (.start limit) front
    let after := sessionAfter (.start limit) (front ++ [k])
    ∃ n line, written = [n, .ofSession after] ∧ n.line? = some line ∧
      n.text = restartLine ++ line ++ lineBreak ∧ Reported (max limit 1) before after line
  noOther : ¬AsksForResult k → written.filterMap Notice.line? = []
  history : AsksForHistory k →
    let lines := resultLines (.start limit) front
    ∃ n, written = [n, .ofSession (sessionAfter (.start limit) front)] ∧
      n.text = restartLine ++ "History: ".toList ++ historyWords (max limit 1) lines ++ lineBreak ∧
      (historyWords (max limit 1) lines = noHistory ↔ lines = [])

theorem mirrors_respond (limit : Nat) (front : List Key) (k : Key) :
    Mirrors limit front k
      (respond (sessionAfter (.start limit) front) (Command.ofKey k)).2 := by
  refine ⟨?_, fun hkey => lines_respond (mt ofKey_iff.2.2.1 hkey), ?_⟩
  · intro hkey before after
    have hk := ofKey_iff.2.2.2 hkey
    have hcapacity : before.capacity = max limit 1 := by
      rw [show before = _ from sessionAfter_eq_run _ front, Session.capacity_run]
      rfl
    have hafter : after = before.calculate.2 := by
      rw [show after = _ from sessionAfter_append _ front [k]]
      simp only [sessionAfter, List.foldl_cons, List.foldl_nil, hk]
      rfl
    obtain ⟨line, hline, hreported⟩ := reported_calculate before
    rw [hcapacity, ← hafter] at hreported
    exact ⟨_, line, by rw [hk, respond_equals, hafter], hline, Notice.text_of_line? hline,
      hreported⟩
  · intro hkey lines
    have hk := ofKey_iff.2.1.2 hkey
    exact ⟨_, by rw [hk]; rfl, text_history limit front⟩

/-- **The transcript mirrors the history.** With raw mode a dialogue consists of the answers to the
keys that come before a quitting key (`Quits`) or a failure. Enter, `=` and a line break are
answered by exactly one line: with a result it is the record that the history gets, otherwise it
names the fault and the history stays. For `h` the last lines with a result are written, the latest
first. Inputs that differ in ignored keys only have the same transcript. -/
theorem transcript_mirrors_history (limit : Nat) (inputs : List Input) :
    let s := Session.start limit
    let keys := answered inputs
    transcript limit true inputs =
        (ending inputs).following (.banner :: .ofSession s :: answers s keys) ∧
      (∀ front k back, keys = front ++ k :: back →
        ∃ written, Mirrors limit front k written ∧
          answers s keys =
            answers s front ++ written ++ answers (sessionAfter s (front ++ [k])) back) ∧
      ∀ others, others.filter Input.isHeeded = inputs.filter Input.isHeeded →
        transcript limit true others = transcript limit true inputs := by
  intro s keys
  refine ⟨?_, ?_, ?_⟩
  · rw [transcript_rawMode, converse_eq, Transcript.following_following]
    rfl
  · intro front k back hkeys
    refine ⟨_, mirrors_respond limit front k, ?_⟩
    rw [hkeys, answers_append, answers, sessionAfter_append, List.append_assoc]
    rfl
  · intro others hothers
    rw [transcript_rawMode, transcript_rawMode, ← converse_filter _ others, hothers,
      converse_filter]

end Dialogue

end PocketCalc
