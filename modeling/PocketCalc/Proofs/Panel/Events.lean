import PocketCalc.Panel.Run
import PocketCalc.Proofs.Panel.HelpScreen

/-!
# The events of a run

What decides about a run: the keys that its events press, the sizes that they give to the screen,
and how many of them are consumed before the panel quits (`consumed_spec`). On the way through them
the panel may come to a point where it cannot be drawn (`AbortsOn`).
-/

namespace PocketCalc.Panel

def Event.pressed? : Event → Option Key
  | .key k .press => some k
  | _ => none

def Event.size? : Event → Option Size
  | .resize size => some size
  | _ => none

/-- Whether an event presses a key or brings a new size. -/
def Event.isSignificant (e : Event) : Bool :=
  e.pressed?.isSome || e.size?.isSome

def pressed (events : List Event) : List Key :=
  events.filterMap Event.pressed?

def lastSize (size : Size) (events : List Event) : Size :=
  (events.filterMap Event.size?).getLastD size

/-- The events that a panel consumes: none once it is quitting. -/
def consumed (p : Panel) : List Event → List Event
  | [] => []
  | e :: rest => if p.quitting then [] else e :: consumed (p.pressAll e.pressed?.toList) rest

/-- The keys that a panel is given: none once it is quitting. -/
def given (p : Panel) : List Key → List Key
  | [] => []
  | k :: rest => if p.quitting then [] else k :: given (p.press k) rest

theorem pressed_cons (e : Event) (events : List Event) :
    pressed (e :: events) = e.pressed?.toList ++ pressed events := by
  rw [pressed, pressed, List.filterMap_cons]
  cases e.pressed? <;> rfl

theorem lastSize_cons (size : Size) (e : Event) (events : List Event) :
    lastSize size (e :: events) = lastSize (e.size?.getD size) events := by
  rw [lastSize, lastSize, List.filterMap_cons]
  cases e.size? with
  | none => rfl
  | some new => exact List.getLastD_cons ..

theorem pressed_append (events more : List Event) :
    pressed (events ++ more) = pressed events ++ pressed more :=
  List.filterMap_append

theorem lastSize_concat (size new : Size) (events : List Event) :
    lastSize size (events ++ [.resize new]) = new := by
  rw [lastSize, List.filterMap_append]
  exact List.getLastD_concat ..

theorem consumed_of_quitting {p : Panel} (h : p.quitting = true) (events : List Event) :
    p.consumed events = [] := by
  cases events <;> simp [consumed, h]

theorem given_of_quitting {p : Panel} (h : p.quitting = true) (keys : List Key) :
    p.given keys = [] := by
  cases keys <;> simp [given, h]

/-- Which keys a panel is given is decided by the key presses alone. -/
theorem pressed_consumed (p : Panel) (events : List Event) :
    pressed (p.consumed events) = p.given (pressed events) := by
  induction events generalizing p with
  | nil => rfl
  | cons e events ih =>
    by_cases hquit : p.quitting = true
    · rw [consumed_of_quitting hquit, given_of_quitting hquit]
      rfl
    · rw [consumed, if_neg hquit, pressed_cons, pressed_cons, ih]
      cases e.pressed? with
      | none => rfl
      | some k =>
        simp only [Option.toList, List.singleton_append, given, if_neg hquit]
        rfl

/-- **The events that a panel consumes** are the first ones: all of them, or those up to one after
which it is quitting. It is not quitting before any of them. -/
theorem consumed_spec (p : Panel) (events : List Event) :
    (∃ unread, events = p.consumed events ++ unread ∧
        (unread ≠ [] → (p.pressAll (pressed (p.consumed events))).quitting = true)) ∧
      ∀ front e back, p.consumed events = front ++ e :: back →
        (p.pressAll (pressed front)).quitting = false := by
  induction events generalizing p with
  | nil => exact ⟨⟨[], rfl, fun h => absurd rfl h⟩, by simp [consumed]⟩
  | cons e events ih =>
    by_cases hquit : p.quitting = true
    · rw [consumed_of_quitting hquit]
      exact ⟨⟨e :: events, rfl, fun _ => hquit⟩, by simp⟩
    · obtain ⟨⟨unread, hevents, hunread⟩, hfront⟩ := ih (p.pressAll e.pressed?.toList)
      rw [consumed, if_neg hquit]
      refine ⟨⟨unread, ?_, ?_⟩, ?_⟩
      · rw [List.cons_append, ← hevents]
      · rw [pressed_cons, pressAll_append]
        exact hunread
      · intro front f back hsplit
        -- Before the first event the panel is not quitting; before later ones, by induction.
        cases front with
        | nil => simpa [pressed, pressAll] using hquit
        | cons g front =>
          obtain ⟨rfl, hrest⟩ := List.cons.inj hsplit
          rw [pressed_cons, pressAll_append]
          exact hfront front f back hrest

/-- A panel that is not quitting in the end has consumed all events. -/
theorem consumed_eq_self {p : Panel} (hp : p.Positioned) {events : List Event}
    (h : (p.pressAll (pressed events)).quitting = false) : p.consumed events = events := by
  induction events generalizing p with
  | nil => rfl
  | cons e events ih =>
    have hquit : ¬p.quitting = true := by
      intro hquit
      rw [hp.quitting_pressAll hquit] at h
      cases h
    rw [pressed_cons, pressAll_append] at h
    rw [consumed, if_neg hquit, ih (hp.pressAll _) h]

/-- Before the events or after one of them, the panel cannot be drawn at the size that the screen
has then. -/
def AbortsOn (p : Panel) (size : Size) (events : List Event) : Prop :=
  ∃ front back, events = front ++ back ∧
    (p.pressAll (pressed front)).picture (lastSize size front) = none

theorem abortsOn_nil {p : Panel} {size : Size} : p.AbortsOn size [] ↔ p.picture size = none := by
  constructor
  · rintro ⟨front, back, hsplit, hnone⟩
    obtain ⟨rfl, -⟩ := List.append_eq_nil_iff.1 hsplit.symm
    exact hnone
  · exact fun hnone => ⟨[], [], rfl, hnone⟩

theorem abortsOn_of_picture {p : Panel} {size : Size} (h : p.picture size = none)
    (events : List Event) : p.AbortsOn size events :=
  ⟨[], events, rfl, h⟩

theorem abortsOn_cons {p : Panel} {size : Size} {e : Event} {events : List Event} :
    p.AbortsOn size (e :: events) ↔ p.picture size = none ∨
      (p.pressAll e.pressed?.toList).AbortsOn (e.size?.getD size) events := by
  constructor
  · rintro ⟨front, back, hsplit, hnone⟩
    cases front with
    | nil => exact .inl hnone
    | cons e' front =>
      obtain ⟨rfl, hrest⟩ := List.cons.inj hsplit
      rw [pressed_cons, pressAll_append, lastSize_cons] at hnone
      exact .inr ⟨front, back, hrest, hnone⟩
  · rintro (hnone | ⟨front, back, hrest, hnone⟩)
    · exact ⟨[], e :: events, rfl, hnone⟩
    · refine ⟨e :: front, back, congrArg (e :: ·) hrest, ?_⟩
      rwa [pressed_cons, pressAll_append, lastSize_cons]

def presses (keys : List Key) : List Event :=
  keys.map fun k => .key k .press

theorem pressed_presses (keys : List Key) : pressed (presses keys) = keys := by
  rw [pressed, presses, List.filterMap_map]
  exact List.filterMap_some

theorem lastSize_presses (size : Size) (keys : List Key) : lastSize size (presses keys) = size := by
  induction keys with
  | nil => rfl
  | cons k keys ih => exact (lastSize_cons ..).trans ih

theorem abortsOn_presses {p : Panel} {size : Size} {keys : List Key} :
    p.AbortsOn size (presses keys) ↔ ¬p.DrawnOn size keys := by
  constructor
  · rintro ⟨front, back, hsplit, hnone⟩ hdrawn
    obtain ⟨before, after, rfl, rfl, rfl⟩ := List.map_eq_append_iff.1 hsplit
    change (p.pressAll (pressed (presses before))).picture (lastSize size (presses before)) = none
      at hnone
    rw [pressed_presses, lastSize_presses] at hnone
    exact hdrawn before after rfl hnone
  · intro hkeys
    by_contra habort
    refine hkeys fun before after hsplit hnone => habort ⟨presses before, presses after, ?_, ?_⟩
    · rw [hsplit, presses, List.map_append]
      rfl
    · rwa [pressed_presses, lastSize_presses]

end PocketCalc.Panel
