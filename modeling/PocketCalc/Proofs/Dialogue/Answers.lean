import PocketCalc.Dialogue.Transcript

/-!
# A dialogue key by key

A dialogue answers its keys one after another, until one of them quits or no key can be read. Which
keys quit, ask for the history or ask for a result is said by `ofKey_iff`. The session is changed by
the actions among the keys and by nothing else (`sessionAfter_eq_run`). The transcript is what was
written in answer to each key, and then an ending that does not depend on the session
(`converse_eq`). A key that is ignored leaves no trace (`converse_filter`).
-/

namespace PocketCalc.Dialogue

/-! ## What the keys ask for -/

/-- One of the characters, typed without Control and Alt. -/
def Types (k : Key) (characters : List Char) : Prop :=
  k.control = false ∧ k.alt = false ∧ ∃ c ∈ characters, k.code = .char c

/-- Enter, an equals sign or a line break. -/
def AsksForResult (k : Key) : Prop :=
  k.code = .enter ∨ Types k ['=', '\n', '\r']

/-- The letter `h`. -/
def AsksForHistory (k : Key) : Prop :=
  Types k ['h']

/-- The letter `q`, or `c` with Control. -/
def Quits (k : Key) : Prop :=
  Types k ['q'] ∨ k.control = true ∧ k.code = .char 'c'

instance (k : Key) (characters : List Char) : Decidable (Types k characters) :=
  inferInstanceAs (Decidable (_ ∧ _ ∧ ∃ c ∈ characters, k.code = .char c))

instance (k : Key) : Decidable (Quits k) :=
  inferInstanceAs (Decidable (_ ∨ _))

theorem ofChar?_eq_equals_iff {c : Char} :
    Action.ofChar? c = some .equals ↔ c ∈ ['=', '\n', '\r'] := by
  rw [Action.ofChar?]
  split
  · rename_i hdigit
    refine iff_of_false (by simp) fun hc => ?_
    simp only [List.mem_cons, List.not_mem_nil, or_false] at hc
    rcases hc with rfl | rfl | rfl <;> revert hdigit <;> decide
  · split
    · rename_i hequals
      exact iff_of_true rfl (by simpa using hequals)
    · rename_i hequals
      exact iff_of_false (by simp) (by simpa using hequals)

/-- What a typed character asks for, and which characters it is. -/
theorem ofChar_iff {c : Char} :
    (Command.ofChar c = .quit ↔ c = 'q') ∧ (Command.ofChar c = .showHistory ↔ c = 'h') ∧
      (Command.ofChar c = .action .equals ↔ c ∈ ['=', '\n', '\r']) := by
  rw [← ofChar?_eq_equals_iff, Command.ofChar]
  split
  · rename_i hq
    subst hq
    decide
  · split
    · rename_i hh
      subst hh
      decide
    · cases Action.ofChar? c <;> simp [*]

theorem editing?_ne_equals (code : KeyCode) : code.editing? ≠ some .equals := by
  unfold KeyCode.editing?
  split <;> simp

/-- **What a key asks for**, and which keys they are. -/
theorem ofKey_iff {k : Key} :
    (Command.ofKey k = .quit ↔ Quits k) ∧ (Command.ofKey k = .showHistory ↔ AsksForHistory k) ∧
      (Command.ofKey k = .action .equals ↔ AsksForResult k) := by
  obtain ⟨code, control, alt, shift⟩ := k
  simp only [Quits, AsksForHistory, AsksForResult, Types]
  cases code with
  | char c =>
    cases control with
    | true => by_cases hc : c = 'c' <;> simp [Command.ofKey, hc]
    | false => cases alt <;> simp [Command.ofKey, ofChar_iff]
  | enter | tab => simp [Command.ofKey, ofChar_iff]
  | function n =>
    have hn := editing?_ne_equals (.function n)
    cases hediting : (KeyCode.function n).editing? <;> simp_all [Command.ofKey]
  | backspace | delete | escape | up | down | left | right | pageUp | pageDown | home | lineEnd
  | insert => simp [Command.ofKey, KeyCode.editing?]

/-! ## Key by key -/

def Command.action? : Command → Option Action
  | .action a => some a
  | .showHistory | .quit | .ignore => none

def actionsOf (keys : List Key) : List Action :=
  keys.filterMap fun k => (Command.ofKey k).action?

def sessionAfter (s : Session) (keys : List Key) : Session :=
  keys.foldl (fun t k => (respond t (Command.ofKey k)).1) s

def answers (s : Session) : List Key → List Notice
  | [] => []
  | k :: rest =>
    (respond s (Command.ofKey k)).2 ++ answers (respond s (Command.ofKey k)).1 rest

/-- The keys that a dialogue answers: those before one that quits and before a failure. -/
def answered : List Input → List Key
  | [] | .failure :: _ => []
  | .key k :: rest => if Quits k then [] else k :: answered rest

/-- How a dialogue goes on behind the keys that it answers. -/
def ending : List Input → Transcript
  | [] => ⟨[.farewell], none⟩
  | .failure :: _ => ⟨[], some .reading⟩
  | .key k :: rest => if Quits k then ⟨[.farewell], none⟩ else ending rest

/-- Whether an input is anything but a key that is ignored. -/
def Input.isHeeded : Input → Bool
  | .key k => Command.ofKey k ≠ .ignore
  | .failure => true

@[simp] theorem Transcript.following_following (t : Transcript) (ns ms : List Notice) :
    (t.following ms).following ns = t.following (ns ++ ms) := by
  simp [following]

theorem transcript_rawMode (limit : Nat) (inputs : List Input) :
    transcript limit true inputs =
      (converse (.start limit) inputs).following [.banner, .ofSession (.start limit)] := rfl

/-! ## The session -/

theorem actionsOf_cons (k : Key) (keys : List Key) :
    actionsOf (k :: keys) = (Command.ofKey k).action?.toList ++ actionsOf keys := by
  rw [actionsOf, actionsOf, List.filterMap_cons]
  cases (Command.ofKey k).action? <;> rfl

/-- A calculation changes the session as the action does, though it is answered apart. -/
theorem respond_fst (s : Session) (c : Command) : (respond s c).1 = s.run c.action?.toList := by
  cases c with
  | action a => cases a <;> rfl
  | showHistory | quit | ignore => rfl

/-- **Only actions change the session of a dialogue.** -/
theorem sessionAfter_eq_run (s : Session) (keys : List Key) :
    sessionAfter s keys = s.run (actionsOf keys) := by
  induction keys generalizing s with
  | nil => rfl
  | cons k keys ih =>
    calc sessionAfter s (k :: keys)
        = (s.run (Command.ofKey k).action?.toList).run (actionsOf keys) := by
          rw [← ih, ← respond_fst]
          rfl
      _ = s.run (actionsOf (k :: keys)) := by rw [actionsOf_cons, Session.run_append]

theorem sessionAfter_append (s : Session) (keys more : List Key) :
    sessionAfter s (keys ++ more) = sessionAfter (sessionAfter s keys) more :=
  List.foldl_append

/-! ## The transcript -/

theorem answers_append (s : Session) (keys more : List Key) :
    answers s (keys ++ more) = answers s keys ++ answers (sessionAfter s keys) more := by
  induction keys generalizing s with
  | nil => rfl
  | cons k keys ih =>
    rw [List.cons_append, answers, ih, answers, List.append_assoc]
    rfl

/-- Keys that do not quit are answered, and then the dialogue goes on with the session that they
lead to. -/
theorem converse_append {keys : List Key} (h : ∀ k ∈ keys, Command.ofKey k ≠ .quit) (s : Session)
    (rest : List Input) :
    converse s (keys.map .key ++ rest) =
      (converse (sessionAfter s keys) rest).following (answers s keys) := by
  induction keys generalizing s with
  | nil => rfl
  | cons k keys ih =>
    simp only [List.mem_cons, forall_eq_or_imp] at h
    rw [List.map_cons, List.cons_append, converse, if_neg h.1, ih h.2, answers,
      Transcript.following_following]
    rfl

/-- **A dialogue is the answers to its keys and an ending.** -/
theorem converse_eq (s : Session) (inputs : List Input) :
    converse s inputs = (ending inputs).following (answers s (answered inputs)) := by
  induction inputs generalizing s with
  | nil => rfl
  | cons i inputs ih =>
    cases i with
    | failure => rfl
    | key k =>
      rw [converse, ending, answered]
      simp only [ofKey_iff.1]
      split
      · rfl
      · rw [ih, Transcript.following_following]
        rfl

theorem converse_filter (s : Session) (inputs : List Input) :
    converse s (inputs.filter Input.isHeeded) = converse s inputs := by
  induction inputs generalizing s with
  | nil => rfl
  | cons i inputs ih =>
    cases i with
    | failure => rfl
    | key k =>
      by_cases hk : Command.ofKey k = .ignore
      · -- The answer to an ignored key is empty, and the session stays.
        rw [List.filter_cons_of_neg (by simp [Input.isHeeded, hk]), ih, converse, hk]
        rfl
      · rw [List.filter_cons_of_pos (by simp [Input.isHeeded, hk]), converse, converse, ih]

end PocketCalc.Dialogue
