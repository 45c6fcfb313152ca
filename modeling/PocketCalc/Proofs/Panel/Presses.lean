import PocketCalc.Panel.State

/-!
# Keys on the panel

What a key does to the session of a panel, and what several keys do one after another. The note
about a screen that is too small is never read by a key: `unsized_pressAll`.
-/

namespace PocketCalc.Panel

/-! ## The session -/

theorem session_control (p : Panel) (k : Key) : (p.control k).session = p.session := by
  unfold control
  split
  · split <;> rfl
  all_goals rfl

/-- While the help is closed a key does to the session what its action does. -/
theorem session_press {p : Panel} (h : p.helpOpen = false) (k : Key) :
    (p.press k).session = p.session.run (action? k).toList := by
  rw [press, h]
  cases action? k with
  | some a => rfl
  | none => exact p.session_control k

/-! ## Several keys -/

def pressAll (p : Panel) (keys : List Key) : Panel :=
  keys.foldl press p

theorem pressAll_append (p : Panel) (keys more : List Key) :
    p.pressAll (keys ++ more) = (p.pressAll keys).pressAll more :=
  List.foldl_append

/-! ## The note about the size of the screen -/

/-- The panel without the note about the size of the screen. -/
def unsized (p : Panel) : Panel :=
  { p with tooSmall := false }

theorem unsized_pressInHelp (p : Panel) (k : Key) :
    (p.pressInHelp k).unsized = p.unsized.pressInHelp k := by
  unfold pressInHelp
  split <;> simp_all [unsized]

theorem unsized_control (p : Panel) (k : Key) : (p.control k).unsized = p.unsized.control k := by
  unfold control
  split <;> simp_all [unsized]
  split <;> simp_all

theorem unsized_press (p : Panel) (k : Key) : (p.press k).unsized = p.unsized.press k := by
  have hopen : p.unsized.helpOpen = p.helpOpen := rfl
  rw [press, press, hopen]
  split
  · exact p.unsized_pressInHelp k
  · cases action? k with
    | some a => rfl
    | none => exact p.unsized_control k

/-- **Keys do not read the note about the size of the screen**, and they leave it as it is. -/
theorem unsized_pressAll (p : Panel) (keys : List Key) :
    (p.pressAll keys).unsized = p.unsized.pressAll keys := by
  induction keys generalizing p with
  | nil => rfl
  | cons k keys ih =>
    change ((p.press k).pressAll keys).unsized = (p.unsized.press k).pressAll keys
    rw [ih, unsized_press]

end PocketCalc.Panel
