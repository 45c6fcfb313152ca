import Mathlib.Data.List.Induction
import PocketCalc.Proofs.Panel.Presses

/-!
# Keys with the help open and closed

While the help is open it takes every key: the arrow and page keys scroll it, F1 and Escape close
it, and nothing else happens (`press_of_open`). So whether it is open follows from these two keys
alone (`helpOpen_pressAll`), the session runs through the actions of the keys that come while it is
closed (`session_pressAll`), and its position is that of the keys since it was opened
(`helpScroll_of_open`).
-/

namespace PocketCalc.Panel

/-! ## What the keys say about the help -/

/-- Whether the help is open after a key: F1 opens or closes it, Escape closes it. -/
def turnHelp (isOpen : Bool) (k : Key) : Bool :=
  match k.code with
  | .function 1 => !isOpen
  | .escape => false
  | _ => isOpen

def helpAfter (isOpen : Bool) (keys : List Key) : Bool :=
  keys.foldl turnHelp isOpen

def keysOutsideHelp (isOpen : Bool) : List Key → List Key
  | [] => []
  | k :: rest => (if isOpen then [] else [k]) ++ keysOutsideHelp (turnHelp isOpen k) rest

/-- The lines that a key scrolls the help down by. -/
def scrollStep (k : Key) : Int :=
  match k.code with
  | .down => 1
  | .up => -1
  | .pageDown => 10
  | .pageUp => -10
  | _ => 0

/-- The position of the help after a key, never above its beginning and never beyond the limit. -/
def scroll (position : Nat) (k : Key) : Nat :=
  min (position + scrollStep k).toNat scrollLimit

theorem scroll_le (position : Nat) (k : Key) : scroll position k ≤ scrollLimit :=
  Nat.min_le_right _ _

theorem scroll_of_step_zero {position : Nat} {k : Key} (h : position ≤ scrollLimit)
    (hk : scrollStep k = 0) : scroll position k = position := by
  rw [scroll, hk]
  omega

theorem turnHelp_false {k : Key} : turnHelp false k = true ↔ k.code = .function 1 := by
  unfold turnHelp
  split <;> simp_all

/-! ## One key -/

section

variable {p : Panel}

/-- **All that a key does while the help is open**: it closes the help, or scrolls it. -/
theorem press_of_open (h : p.helpOpen = true) (hlimit : p.helpScroll ≤ scrollLimit) (k : Key) :
    p.press k =
      if turnHelp true k then { p with helpScroll := scroll p.helpScroll k }
      else { p with helpOpen := false, helpScroll := 0 } := by
  have hstay : scrollStep k = 0 → p = { p with helpScroll := scroll p.helpScroll k } := by
    intro hk
    rw [scroll_of_step_zero hlimit hk]
  rw [press, if_pos h]
  obtain ⟨code, control, alt, shift⟩ := k
  cases code with
  | down | pageDown => rfl
  | up | pageUp =>
    -- The position is a natural number, so that going up stops at the beginning by itself.
    refine congrArg (fun position => { p with helpScroll := position }) ?_
    simp only [scroll, scrollStep, scrollUp, scrollPage]
    omega
  | escape => rfl
  | function n =>
    by_cases hn : n = 1
    · subst hn
      rfl
    · have hturn : turnHelp true ⟨.function n, control, alt, shift⟩ = true := by
        simp [turnHelp, hn]
      rw [if_pos hturn, ← hstay rfl]
      simp [pressInHelp, hn]
  | char | enter | backspace | delete | left | right | home | lineEnd | tab | insert =>
    exact hstay rfl

theorem control_of_ne {k : Key} (hk : k.code ≠ .function 1) :
    (p.control k).helpOpen = p.helpOpen ∧ (p.control k).helpScroll = p.helpScroll := by
  unfold control
  split
  · split <;> exact ⟨rfl, rfl⟩
  · exact ⟨rfl, rfl⟩
  · exact ⟨rfl, rfl⟩
  · rename_i hcode
    exact absurd hcode hk
  · exact ⟨rfl, rfl⟩
  · exact ⟨rfl, rfl⟩

/-- While the help is closed only F1 opens it, at its beginning, and no key scrolls it. -/
theorem press_of_closed (h : p.helpOpen = false) (k : Key) :
    (p.press k).helpOpen = turnHelp false k ∧
      (p.press k).helpScroll = if turnHelp false k then 0 else p.helpScroll := by
  rw [press, if_neg (by simp [h])]
  by_cases hk : k.code = .function 1
  · have haction : action? k = none := by rw [action?, hk]; rfl
    rw [turnHelp_false.2 hk, haction]
    simp [control, hk]
  · rw [Bool.eq_false_iff.2 (mt turnHelp_false.1 hk)]
    cases action? k with
    | some a => exact ⟨h, rfl⟩
    | none =>
      obtain ⟨hopen, hscroll⟩ := control_of_ne (p := p) hk
      exact ⟨hopen.trans h, hscroll⟩

/-- **While the help is open** no key changes the session, the details or whether the panel is
quitting. -/
theorem kept_of_open (h : p.helpOpen = true) (hlimit : p.helpScroll ≤ scrollLimit) (k : Key) :
    (p.press k).session = p.session ∧ (p.press k).detailsOpen = p.detailsOpen ∧
      (p.press k).quitting = p.quitting := by
  rw [press_of_open h hlimit]
  split <;> exact ⟨rfl, rfl, rfl⟩

theorem quitting_control (h : p.quitting = true) (k : Key) : (p.control k).quitting = true := by
  unfold control
  split
  · split
    · rfl
    · exact h
  · rfl
  · rfl
  all_goals exact h

/-- The help is scrolled no further than the limit, and not at all while it is closed. -/
structure Positioned (p : Panel) : Prop where
  le_limit : p.helpScroll ≤ scrollLimit
  closed : p.helpOpen = false → p.helpScroll = 0

theorem positioned_start (limit : Nat) : (start limit).Positioned :=
  ⟨Nat.zero_le _, fun _ => rfl⟩

theorem Positioned.press (h : p.Positioned) (k : Key) : (p.press k).Positioned := by
  cases hopen : p.helpOpen with
  | true =>
    rw [press_of_open hopen h.le_limit]
    split
    · exact ⟨scroll_le _ _, fun hclosed => absurd (hopen.symm.trans hclosed) (by decide)⟩
    · exact ⟨Nat.zero_le _, fun _ => rfl⟩
  | false =>
    have hscroll := (press_of_closed hopen k).2
    rw [h.closed hopen, ite_self] at hscroll
    exact ⟨by rw [hscroll]; exact Nat.zero_le _, fun _ => hscroll⟩

theorem Positioned.helpOpen_press (h : p.Positioned) (k : Key) :
    (p.press k).helpOpen = turnHelp p.helpOpen k := by
  cases hopen : p.helpOpen with
  | true =>
    rw [press_of_open hopen h.le_limit]
    split
    · rename_i hturn
      exact hopen.trans hturn.symm
    · rename_i hturn
      exact (Bool.eq_false_iff.2 hturn).symm
  | false => exact (press_of_closed hopen k).1

theorem Positioned.quitting_press (h : p.Positioned) (hquit : p.quitting = true) (k : Key) :
    (p.press k).quitting = true := by
  cases hopen : p.helpOpen with
  | true => exact (kept_of_open hopen h.le_limit k).2.2.trans hquit
  | false =>
    rw [Panel.press, if_neg (by simp [hopen])]
    cases action? k with
    | some a => exact hquit
    | none => exact quitting_control hquit k

/-! ## Any number of keys -/

theorem Positioned.pressAll (h : p.Positioned) (keys : List Key) :
    (p.pressAll keys).Positioned := by
  induction keys generalizing p with
  | nil => exact h
  | cons k keys ih => exact ih (h.press k)

/-- Whether the help is open follows from the keys F1 and Escape. -/
theorem Positioned.helpOpen_pressAll (h : p.Positioned) (keys : List Key) :
    (p.pressAll keys).helpOpen = helpAfter p.helpOpen keys := by
  induction keys generalizing p with
  | nil => rfl
  | cons k keys ih =>
    change ((p.press k).pressAll keys).helpOpen = helpAfter (turnHelp p.helpOpen k) keys
    rw [ih (h.press k), h.helpOpen_press]

theorem Positioned.quitting_pressAll (h : p.Positioned) (hquit : p.quitting = true)
    (keys : List Key) : (p.pressAll keys).quitting = true := by
  induction keys generalizing p with
  | nil => exact hquit
  | cons k keys ih => exact ih (h.press k) (h.quitting_press hquit k)

/-- **The session runs through the actions of the keys that come while the help is closed.** -/
theorem Positioned.session_pressAll (h : p.Positioned) (keys : List Key) :
    (p.pressAll keys).session =
      p.session.run ((keysOutsideHelp p.helpOpen keys).filterMap action?) := by
  induction keys generalizing p with
  | nil => rfl
  | cons k keys ih =>
    have hrest : (p.pressAll (k :: keys)).session = (p.press k).session.run
        ((keysOutsideHelp (turnHelp p.helpOpen k) keys).filterMap action?) := by
      rw [← h.helpOpen_press]
      exact ih (h.press k)
    rw [hrest, keysOutsideHelp, List.filterMap_append, Session.run_append]
    congr 1
    cases hopen : p.helpOpen with
    | true => exact (kept_of_open hopen h.le_limit k).1
    | false =>
      rw [session_press hopen]
      cases haction : action? k <;> simp [haction]

end

/-- **The position of the open help** is that after scrolling by the keys that came since F1 opened
it. -/
theorem helpScroll_of_open {limit : Nat} {keys : List Key}
    (hopen : ((start limit).pressAll keys).helpOpen = true) :
    ∃ before opener since, keys = before ++ opener :: since ∧ helpAfter false before = false ∧
      opener.code = .function 1 ∧ (∀ k ∈ since, turnHelp true k = true) ∧
      ((start limit).pressAll keys).helpScroll = since.foldl scroll 0 := by
  induction keys using List.reverseRecOn with
  | nil => cases hopen
  | append_singleton keys k ih =>
    have hpos := (positioned_start limit).pressAll keys
    have hlast : (start limit).pressAll (keys ++ [k]) = ((start limit).pressAll keys).press k :=
      pressAll_append _ _ _
    rw [hlast, hpos.helpOpen_press] at hopen
    rw [hlast]
    -- The last key opens the help, or it comes while the help is open and leaves it open.
    cases hbefore : ((start limit).pressAll keys).helpOpen with
    | false =>
      rw [hbefore] at hopen
      have hscroll := (press_of_closed hbefore k).2
      rw [if_pos hopen] at hscroll
      have hclosed := ((positioned_start limit).helpOpen_pressAll keys).symm.trans hbefore
      exact ⟨keys, k, [], rfl, hclosed, turnHelp_false.1 hopen, by simp, hscroll⟩
    | true =>
      rw [hbefore] at hopen
      obtain ⟨before, opener, since, hkeys, hclosed, hopener, hsince, hscroll⟩ := ih hbefore
      refine ⟨before, opener, since ++ [k], ?_, hclosed, hopener, ?_, ?_⟩
      · rw [hkeys, List.append_assoc, List.cons_append]
      · simpa [or_imp, forall_and] using ⟨hsince, hopen⟩
      · rw [press_of_open hbefore hpos.le_limit, if_pos hopen, List.foldl_append]
        exact congrArg (scroll · k) hscroll

/-- **The help takes keys away from the session.** After any keys the help is open or closed as F1
and Escape say, and the session has run through the actions of the keys that came while it was
closed, and no others. The help is at its beginning while it is closed; while it is open it is where
the keys since it was opened have scrolled it to, and no key changes the session, the details or
whether the panel is quitting. A panel that is quitting goes on quitting. -/
theorem pressAll_by_help (limit : Nat) (keys : List Key) :
    let p := (Panel.start limit).pressAll keys
    p.helpOpen = helpAfter false keys ∧
      p.session = (Session.start limit).run ((keysOutsideHelp false keys).filterMap action?) ∧
      (p.helpOpen = false → p.helpScroll = 0) ∧
      (p.helpOpen = true →
        (∃ before opener since, keys = before ++ opener :: since ∧ helpAfter false before = false ∧
          opener.code = .function 1 ∧ (∀ k ∈ since, turnHelp true k = true) ∧
          p.helpScroll = since.foldl scroll 0) ∧
        ∀ k, (p.press k).session = p.session ∧ (p.press k).detailsOpen = p.detailsOpen ∧
          (p.press k).quitting = p.quitting) ∧
      ∀ more, p.quitting = true → (p.pressAll more).quitting = true := by
  intro p
  have hstart := positioned_start limit
  have hpos : p.Positioned := hstart.pressAll keys
  exact ⟨hstart.helpOpen_pressAll keys, hstart.session_pressAll keys, hpos.closed,
    fun hopen => ⟨helpScroll_of_open hopen, kept_of_open hopen hpos.le_limit⟩,
    fun more hquit => hpos.quitting_pressAll hquit more⟩

end PocketCalc.Panel
