import Mathlib.Data.List.Forall2
import PocketCalc.Proofs.Options.Values

/-!
# Spelled command lines are read back

A written value can be given in more than one way: after the option's letter or its long name,
attached or as an argument of its own (`Value.IsGiven`). `IsGiven.read` says what reading the
arguments for one value does to the choices made so far, and `read_given` what a whole command line
comes to.

In the other direction, whatever the arguments look like, every value that is read has been written
(`Progress.read_written`). Both together are `parse_given`.
-/

namespace PocketCalc.Options

/-! ## How values are given -/

def Setting.name : Setting → Text
  | .mode => "mode".toList
  | .historyLimit => "history-limit".toList
  | .logFile => "log-file".toList

/-- The arguments that may give a value. A value that is an argument of its own must not begin with
a hyphen. -/
inductive Value.IsGiven : Value → List Text → Prop
  | letter {m : Mode} {t : Text} (h : (mode m).IsWritten t) : IsGiven (mode m) ["-m".toList, t]
  | letterAttached {m : Mode} {t : Text} (h : (mode m).IsWritten t) :
      IsGiven (mode m) ["-m".toList ++ t]
  | letterEquals {m : Mode} {t : Text} (h : (mode m).IsWritten t) :
      IsGiven (mode m) ["-m=".toList ++ t]
  | name {v : Value} {t : Text} (h : v.IsWritten t) (ht : t.head? ≠ some '-') :
      IsGiven v ["--".toList ++ v.setting.name, t]
  | nameEquals {v : Value} {t : Text} (h : v.IsWritten t) :
      IsGiven v ["--".toList ++ v.setting.name ++ '=' :: t]

/-! ## Reading the arguments for one value -/

theorem Argument.ofText_name (s : Setting) :
    Argument.ofText ("--".toList ++ s.name) = .long s.name none := by
  cases s <;> rfl

/-- The value begins after the first equals sign. -/
theorem Argument.ofText_nameEquals (s : Setting) (t : Text) :
    Argument.ofText ("--".toList ++ s.name ++ '=' :: t) = .long s.name (some t) := by
  cases s <;> rfl

theorem Argument.ofText_plain {t : Text} (ht : t.head? ≠ some '-') :
    Argument.ofText t = .plain t := by
  cases t with
  | nil => rfl
  | cons c r =>
    have hc : c ≠ '-' := by simpa using ht
    simp [Argument.ofText, hc]

theorem lookup_name (s : Setting) : longNames.lookup s.name = some (.setting s) := by
  cases s <;> rfl

namespace Progress

variable {p : Progress} {c : Choices}

theorem option_none (hp : p.settle = .ok c) (s : Setting) :
    p.option (.setting s) none = .ok ⟨c, some (s, none)⟩ := by
  simp only [option, hp, Except.map]

theorem option_some (hp : p.settle = .ok c) {s : Setting} {t : Text} {d : Choices}
    (hd : c.choose s t = .ok d) : p.option (.setting s) (some t) = .ok ⟨d, none⟩ := by
  simp only [option, hp, Except.bind, hd, Except.map]

theorem read_name {s : Setting} {q : Progress} (h : p.option (.setting s) none = .ok q)
    (rest : List Text) : p.read (("--".toList ++ s.name) :: rest) = q.read rest := by
  simp only [read, Argument.ofText_name, lookup_name, h, Except.bind]

theorem read_nameEquals {s : Setting} {t : Text} {q : Progress}
    (h : p.option (.setting s) (some t) = .ok q) (rest : List Text) :
    p.read (("--".toList ++ s.name ++ '=' :: t) :: rest) = q.read rest := by
  simp only [read, Argument.ofText_nameEquals, lookup_name, h, Except.bind]

theorem read_letter {t : Text} {q : Progress}
    (h : p.option (.setting .mode) (attached t) = .ok q) (rest : List Text) :
    p.read (('-' :: 'm' :: t) :: rest) = q.read rest := by
  have hshort : Argument.ofText ('-' :: 'm' :: t) = .short 'm' t := rfl
  have hlook : letters.lookup 'm' = some (.setting .mode) := rfl
  simp only [read, hshort, hlook, letter, h, Except.bind]

/-- An argument that does not look like an option is the value of the option before it. -/
theorem read_value {s : Setting} {t : Text} (ht : t.head? ≠ some '-') (rest : List Text) :
    read ⟨c, some (s, none)⟩ (t :: rest) = read ⟨c, some (s, some t)⟩ rest := by
  rw [read, Argument.ofText_plain ht]

end Progress

/-- The name of a front end is no option and begins with no equals sign. -/
theorem Value.IsWritten.head_mode {m : Mode} {t : Text} (h : (mode m).IsWritten t) :
    t.head? ≠ some '-' ∧ attached t = some t := by
  cases h <;> exact ⟨by decide, rfl⟩

/-- **Reading the arguments for one value** adds it to the choices. A value of its own may still be
waiting to be examined. -/
theorem Value.IsGiven.read {v : Value} {args : List Text} (h : v.IsGiven args) {p : Progress}
    {c : Choices} (hp : p.settle = .ok c) (hnew : c.has v.setting = false) :
    ∃ q : Progress, q.settle = .ok (c.set v) ∧ ∀ rest, p.read (args ++ rest) = q.read rest := by
  cases h with
  | letter h =>
    refine ⟨⟨c, some (.mode, some _)⟩, h.choose hnew, fun rest => ?_⟩
    exact (Progress.read_letter (Progress.option_none hp .mode) _).trans
      (Progress.read_value h.head_mode.1 rest)
  | @letterAttached m t h =>
    have hoption : p.option (.setting .mode) (attached t) = .ok ⟨c.set (.mode m), none⟩ := by
      rw [h.head_mode.2]
      exact Progress.option_some hp (h.choose hnew)
    exact ⟨⟨c.set (.mode m), none⟩, rfl, Progress.read_letter hoption⟩
  | letterEquals h =>
    have hoption := Progress.option_some hp (h.choose hnew)
    exact ⟨⟨c.set (.mode _), none⟩, rfl, Progress.read_letter hoption⟩
  | name h ht =>
    refine ⟨⟨c, some (v.setting, some _)⟩, h.choose hnew, fun rest => ?_⟩
    exact (Progress.read_name (Progress.option_none hp v.setting) _).trans
      (Progress.read_value ht rest)
  | nameEquals h =>
    have hoption := Progress.option_some hp (h.choose hnew)
    exact ⟨⟨c.set v, none⟩, rfl, Progress.read_nameEquals hoption⟩

/-! ## Reading a whole command line -/

/-- **Reading the arguments for any values**, of different settings, adds them in turn. -/
theorem read_given {vs : List Value} {pieces : List (List Text)}
    (h : List.Forall₂ Value.IsGiven vs pieces) {p : Progress} {c : Choices}
    (hp : p.settle = .ok c) (hnodup : (vs.map Value.setting).Nodup)
    (hnew : ∀ v ∈ vs, c.has v.setting = false) :
    p.read pieces.flatten = .ok (vs.foldl Choices.set c) := by
  induction h generalizing p c with
  | nil => exact hp
  | @cons v args vs pieces hv _ ih =>
    rw [List.map_cons, List.nodup_cons] at hnodup
    obtain ⟨hother, hnodup⟩ := hnodup
    obtain ⟨q, hq, hread⟩ := hv.read hp (hnew v List.mem_cons_self)
    rw [List.flatten_cons, hread]
    refine ih hq hnodup fun w hw => ?_
    have hne : v.setting ≠ w.setting := fun heq => hother (heq ▸ List.mem_map_of_mem hw)
    rw [Choices.has_set_of_ne c hne]
    exact hnew w (List.mem_cons_of_mem v hw)

/-! ## What is read has been written -/

def Choices.Written (c : Choices) : Prop :=
  ∀ v ∈ c.values, ∃ t, v.IsWritten t

theorem Choices.Written.choose {c d : Choices} (hc : c.Written) {s : Setting} {t : Text}
    (h : c.choose s t = .ok d) : d.Written := by
  obtain ⟨-, v, -, hv, rfl⟩ := choose_eq_ok_iff.1 h
  intro w hw
  rcases mem_values_set hw with rfl | hw
  · exact ⟨t, hv⟩
  · exact hc w hw

section
variable {ε α β : Type}

theorem bind_eq_ok {x : Except ε α} {f : α → Except ε β} {b : β} (h : x.bind f = .ok b) :
    ∃ a, x = .ok a ∧ f a = .ok b := by
  cases x with
  | error e => cases h
  | ok a => exact ⟨a, rfl, h⟩

theorem map_eq_ok {x : Except ε α} {f : α → β} {b : β} (h : x.map f = .ok b) :
    ∃ a, x = .ok a ∧ f a = b := by
  cases x with
  | error e => cases h
  | ok a => exact ⟨a, rfl, Except.ok.inj h⟩

end

namespace Progress

variable {p q : Progress} {c : Choices}

theorem settle_written (hp : p.choices.Written) (h : p.settle = .ok c) : c.Written := by
  unfold settle at h
  split at h
  · cases h
    exact hp
  · cases h
  · exact hp.choose h

theorem option_written (hp : p.choices.Written) {m : Meaning} {t : Option Text}
    (h : p.option m t = .ok q) : q.choices.Written := by
  unfold option at h
  split at h
  · obtain ⟨c, hc, rfl⟩ := map_eq_ok h
    exact settle_written hp hc
  · obtain ⟨c, hc, h⟩ := bind_eq_ok h
    obtain ⟨d, hd, rfl⟩ := map_eq_ok h
    exact (settle_written hp hc).choose hd
  · cases h
  -- The help and the version end the reading.
  · obtain ⟨c, -, h⟩ := bind_eq_ok h
    cases h
  · obtain ⟨c, -, h⟩ := bind_eq_ok h
    cases h

theorem letter_written (hp : p.choices.Written) {m : Meaning} {t : Text}
    (h : p.letter m t = .ok q) : q.choices.Written := by
  unfold letter at h
  split at h <;> exact option_written hp h

/-- **Whatever the arguments are**, what is read has been written. -/
theorem read_written {args : List Text} (hp : p.choices.Written) (h : p.read args = .ok c) :
    c.Written := by
  induction args generalizing p with
  | nil => exact settle_written hp h
  | cons a rest ih =>
    rw [read] at h
    -- One case for each way in which an argument can look.
    split at h
    · split at h
      · exact settle_written hp h
      · cases h
    · split at h
      · obtain ⟨q, hq, h⟩ := bind_eq_ok h
        exact ih (option_written hp hq) h
      · cases h
    · split at h
      · obtain ⟨q, hq, h⟩ := bind_eq_ok h
        exact ih (letter_written hp hq) h
      · cases h
    · split at h
      · refine ih ?_ h
        exact hp
      · cases h

end Progress

/-- **Options that are read** have a limit of at least one that fits into 64 bits, and no log file
without a name. -/
theorem parse_valid {args : List Text} {o : Options} (h : parse args = .ok o) :
    (1 ≤ o.historyLimit ∧ o.historyLimit < UInt64.size) ∧ o.logFile ≠ some [] := by
  obtain ⟨c, hc, rfl⟩ := map_eq_ok h
  have hwritten : c.Written := Progress.read_written (by simp [Choices.Written, Choices.values]) hc
  constructor
  · cases hlimit : c.historyLimit with
    | none => simp [Choices.options, hlimit, defaultCapacity, UInt64.size]
    | some n =>
      obtain ⟨t, ht⟩ := hwritten (.historyLimit n) (Choices.historyLimit_mem_values.2 hlimit)
      cases ht with
      | limit _ _ hpos hn => simpa [Choices.options, hlimit] using ⟨hpos, hn⟩
  · intro hempty
    obtain ⟨t, ht⟩ := hwritten (.logFile []) (Choices.logFile_mem_values.2 hempty)
    cases ht with
    | path hne => exact hne rfl

/-- **What a command line says is what is read.** Any of the three settings, each at most once and
in any order, may be given their values in any of the ways; the others have their defaults.
Whatever the arguments are, a limit that is read is at least one. -/
theorem parse_given :
    (∀ (c : Choices) (vs : List Value) (pieces : List (List Text)), vs.Perm c.values →
      List.Forall₂ Value.IsGiven vs pieces →
      parse pieces.flatten = .ok ⟨c.mode.getD .tui, c.historyLimit.getD 5, c.logFile⟩) ∧
    ∀ args o, parse args = .ok o →
      (1 ≤ o.historyLimit ∧ o.historyLimit < UInt64.size) ∧ o.logFile ≠ some [] := by
  refine ⟨fun c vs pieces hperm hgiven => ?_, fun _ _ => parse_valid⟩
  have hnodup : (vs.map Value.setting).Nodup := (hperm.map _).nodup_iff.2 c.nodup_values
  have hnew : ∀ v ∈ vs, Choices.has {} v.setting = false := by
    intro v _
    cases v <;> rfl
  rw [parse, read_given hgiven rfl hnodup hnew, Choices.foldl_set hperm]
  rfl

/-- Three settings, each given in another way; the log file looks like an option. -/
theorem parse_given_log_limit_mode :
    let values : List Value := [.logFile "--mode=tui".toList, .historyLimit 10, .mode .line]
    let pieces := [["--log-file=--mode=tui".toList], ["--history-limit".toList, "+0010".toList],
      ["-mline".toList]]
    values.Perm (⟨some .line, some 10, some "--mode=tui".toList⟩ : Choices).values ∧
      List.Forall₂ Value.IsGiven values pieces ∧
      parse pieces.flatten = .ok ⟨.line, 10, some "--mode=tui".toList⟩ ∧ 1 ≤ 10 := by
  intro values pieces
  have hperm : values.Perm (⟨some .line, some 10, some "--mode=tui".toList⟩ : Choices).values := by
    decide
  have hgiven : List.Forall₂ Value.IsGiven values pieces :=
    .cons (.nameEquals (.path (by decide)))
      (.cons (.name (.limit (.inr rfl) 2 (by decide) (by decide)) (by decide))
        (.cons (.letterAttached .line) .nil))
  have hparse := parse_given.1 _ values pieces hperm hgiven
  exact ⟨hperm, hgiven, hparse, (parse_given.2 _ _ hparse).1.1⟩

end PocketCalc.Options
