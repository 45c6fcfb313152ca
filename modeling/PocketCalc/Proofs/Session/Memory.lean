import Mathlib.Data.List.Induction
import PocketCalc.Session.Basic

/-!
# The memory register

The memory keys take an entry that is no number for zero, so no such entry gets into the register.
They do take infinite entries: a number too long to be finite, or a register that has overflowed
and is recalled. An infinity taken away from itself leaves `nan`, and nothing but clearing the
memory removes that. There is no other way to it: `run_memory_nan_iff`.
-/

namespace PocketCalc

namespace Binary64

theorem nearest_ne_nan (negative : Bool) (num den : Nat) : nearest negative num den ≠ .nan := by
  unfold nearest
  split <;> simp

/-- A sum of numbers is `nan` only if opposite infinities are added. -/
theorem add_eq_nan {x y : Binary64} :
    x + y = .nan ↔ x = .nan ∨ y = .nan ∨ ∃ s, x = .infinite s ∧ y = .infinite (!s) := by
  cases x with
  | nan => simp
  | infinite s =>
    cases y with
    | nan => simp
    | finite t n =>
      change infinite s = nan ↔ _
      simp
    | infinite t =>
      change (if s = t then infinite s else nan) = nan ↔ _
      cases s <;> cases t <;> simp
  | finite s m =>
    cases y with
    | nan => simp
    | infinite t =>
      change infinite t = nan ↔ _
      simp
    | finite t n =>
      have hsum : finite s m + finite t n ≠ nan := nearest_ne_nan _ _ _
      simp [hsum]

theorem sub_eq_nan {x y : Binary64} :
    x - y = .nan ↔ x = .nan ∨ y = .nan ∨ ∃ s, x = .infinite s ∧ y = .infinite s := by
  have hsum : x - y = x + y.neg := rfl
  rw [hsum, add_eq_nan]
  cases y <;> simp [neg]

end Binary64

theorem Entry.value_ne_nan (entry : Text) : value entry ≠ .nan := by
  unfold value
  cases Binary64.ofText entry <;> simp [Binary64.isNan, Binary64.zero]

namespace Session

/-- The action makes an infinite register and an infinite entry cancel out. -/
def Cancels (s : Session) : Action → Prop
  | .memoryAdd => ∃ n, s.memory = .infinite n ∧ Entry.value s.entry = .infinite (!n)
  | .memorySubtract => ∃ n, s.memory = .infinite n ∧ Entry.value s.entry = .infinite n
  | _ => False

/-- **How one action leaves `nan` in the register**: infinities cancel out, or it was there and is
not cleared. -/
theorem memory_press_eq_nan {s : Session} {a : Action} :
    (s.press a).memory = .nan ↔ s.Cancels a ∨ s.memory = .nan ∧ a ≠ .memoryClear := by
  have hentry := Entry.value_ne_nan s.entry
  cases a with
  | memoryAdd =>
    change s.memory + Entry.value s.entry = .nan ↔ _
    simp [Binary64.add_eq_nan, hentry, Cancels, or_comm]
  | memorySubtract =>
    change s.memory - Entry.value s.entry = .nan ↔ _
    simp [Binary64.sub_eq_nan, hentry, Cancels, or_comm]
  | memoryClear => simp [press, Cancels, Binary64.zero]
  | equals =>
    rcases s.calculate_cases with ⟨v, -, h⟩ | ⟨fault, -, h⟩ <;> rw [press, h] <;> simp [Cancels]
  | digit | operator | clearAll | clearEntry | backspace | memoryRecall =>
    simp [press, type, commit, Cancels]

/-- **When the memory is no number.** After any sequence of actions the register is `nan` exactly
if at some point infinities cancelled out in it and it was not cleared since. What is shown, typed
or recalled does not matter otherwise. -/
theorem run_memory_nan_iff (limit : Nat) (actions : List Action) :
    ((start limit).run actions).memory = .nan ↔
      ∃ before a after, actions = before ++ a :: after ∧
        ((start limit).run before).Cancels a ∧ .memoryClear ∉ after := by
  induction actions using List.reverseRecOn with
  | nil => simp [run, start, Binary64.zero]
  | append_singleton actions a ih =>
    rw [run_concat, memory_press_eq_nan, ih]
    constructor
    · rintro (hcancels | ⟨⟨before, b, after, rfl, hcancels, hclear⟩, ha⟩)
      · exact ⟨actions, a, [], rfl, hcancels, List.not_mem_nil⟩
      · exact ⟨before, b, after ++ [a], by simp, hcancels, by simp [hclear, ha.symm]⟩
    · rintro ⟨before, b, after, hsplit, hcancels, hclear⟩
      -- The cancelling action is the last one, or it came before it.
      rcases List.eq_nil_or_concat after with rfl | ⟨rest, c, rfl⟩
      · obtain ⟨rfl, hab⟩ := List.append_inj' hsplit rfl
        obtain rfl : a = b := by simpa using hab
        exact .inl hcancels
      · have hsplit' : actions ++ [a] = (before ++ b :: rest) ++ [c] := by simpa using hsplit
        obtain ⟨rfl, hac⟩ := List.append_inj' hsplit' rfl
        obtain rfl : a = c := by simpa using hac
        rw [List.concat_eq_append, List.mem_append, List.mem_singleton, not_or] at hclear
        exact .inr ⟨⟨before, b, rest, rfl, hcancels, hclear.1⟩, Ne.symm hclear.2⟩

/-- A number of 309 nines is infinite; added to the memory and taken away again it leaves `nan`. -/
theorem memory_nan_of_long_entry :
    ((start 5).run
      (List.replicate 309 (.digit '9') ++ [.memoryAdd, .memorySubtract])).memory = .nan := by
  decide +kernel

end Session

end PocketCalc
