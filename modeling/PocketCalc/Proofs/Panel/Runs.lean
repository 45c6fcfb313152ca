import PocketCalc.Proofs.Panel.Events

/-!
# What a run depends on

A run of the panel draws a scene before every event, and drawing makes a note in the panel. Yet the
panel that a run ends with is that of the key presses alone, up to this note, and the last picture
is drawn from it at the last size (`Run.foldlM_spec`). Events that press no key and bring no new
size leave no trace in the last scene at all (`Settled.foldlM_filter`).

Whether a run comes to its end is another matter: it is aborted as soon as one of its scenes cannot
be drawn (`Run.foldlM_eq_none_iff`), and for that every size counts that the screen has had, not
only the last one. `run_depends_on_presses` compares whole runs.
-/

namespace PocketCalc.Panel

/-! ## Scenes -/

theorem unsized_noted (p : Panel) (size : Size) : (p.noted size).unsized = p.unsized := by
  rw [noted]
  split <;> rfl

theorem noted_noted (p : Panel) (size : Size) : (p.noted size).noted size = p.noted size := by
  by_cases hopen : p.helpOpen = true <;> simp [noted, hopen]

namespace Scene

/-- A scene that drawing again does not change. -/
def Settled (c : Scene) : Prop :=
  draw c.panel c.size = some c

theorem draw_eq_none_iff {p : Panel} {size : Size} :
    draw p size = none ↔ p.picture size = none := by
  rw [← picture_congr (p.unsized_noted size), picture_eq_none_iff_overflows, draw]
  split <;> simp_all

/-- What has been drawn is the panel, up to the note about the size, at the size that was given. -/
theorem draw_eq_some {p : Panel} {size : Size} {c : Scene} (h : draw p size = some c) :
    c.panel.unsized = p.unsized ∧ c.size = size ∧ c.Settled := by
  have hc : c.panel = p.noted size ∧ c.size = size := by
    rw [draw] at h
    split at h
    · cases h
    · cases h
      exact ⟨rfl, rfl⟩
  refine ⟨by rw [hc.1, unsized_noted], hc.2, ?_⟩
  rw [Settled, ← h, hc.1, hc.2]
  simp only [draw, noted_noted]

theorem some_picture (c : Scene) : some c.picture = c.panel.picture c.size :=
  Option.some_get c.drawn

theorem next_eq (c : Scene) (e : Event) :
    c.next e = draw (c.panel.pressAll e.pressed?.toList) (e.size?.getD c.size) := by
  cases e with
  | key k phase => cases phase <;> rfl
  | idle => rfl
  | resize size => rfl

/-- The next scene, unless the panel is quitting. -/
def step (c : Scene) (e : Event) : Option Scene :=
  if c.panel.quitting then some c else c.next e

theorem Settled.step {c d : Scene} (h : c.Settled) {e : Event} (hd : c.step e = some d) :
    d.Settled := by
  rw [Scene.step] at hd
  split at hd
  · cases hd
    exact h
  · rw [next_eq] at hd
    exact (draw_eq_some hd).2.2

/-- Drawing once more without a key press or a new size changes nothing. -/
theorem Settled.step_of_not_significant {c : Scene} (h : c.Settled) {e : Event}
    (he : e.isSignificant = false) : c.step e = some c := by
  simp only [Event.isSignificant, Bool.or_eq_false_iff, Option.isSome_eq_false_iff,
    Option.isNone_iff_eq_none] at he
  rw [Scene.step, next_eq, he.1, he.2]
  split
  · rfl
  · exact h

/-- **Events that press no key and bring no new size can be left out.** -/
theorem Settled.foldlM_filter {c : Scene} (h : c.Settled) (events : List Event) :
    (events.filter Event.isSignificant).foldlM Scene.step c = events.foldlM Scene.step c := by
  induction events generalizing c with
  | nil => rfl
  | cons e events ih =>
    by_cases he : e.isSignificant = true
    · rw [List.filter_cons_of_pos he, List.foldlM_cons, List.foldlM_cons]
      cases hstep : c.step e with
      | none => rfl
      | some d => exact ih (h.step hstep)
    · have hstep := h.step_of_not_significant (Bool.eq_false_iff.2 he)
      rw [List.filter_cons_of_neg he, ih h, List.foldlM_cons, hstep]
      rfl

end Scene

/-! ## Runs -/

namespace Run

theorem step_of_quitting {r : Run} (h : r.current.panel.quitting = true) (e : Event) :
    r.step e = some r := by
  rw [step, if_pos h]

theorem foldlM_of_quitting {r : Run} (h : r.current.panel.quitting = true) (events : List Event) :
    events.foldlM step r = some r := by
  induction events with
  | nil => rfl
  | cons e events ih =>
    rw [List.foldlM_cons, step_of_quitting h]
    exact ih

theorem current_foldlM (r : Run) (events : List Event) :
    (events.foldlM step r).map Run.current = events.foldlM Scene.step r.current := by
  induction events generalizing r with
  | nil => rfl
  | cons e events ih =>
    rw [List.foldlM_cons, List.foldlM_cons, step, Scene.step]
    split
    · exact ih r
    · cases r.current.next e with
      | none => rfl
      | some c => exact ih ⟨c, r.current :: r.earlier⟩

section

variable {r : Run} {p : Panel}

theorem quitting_congr (h : r.current.panel.unsized = p.unsized) :
    r.current.panel.quitting = p.quitting := by
  simpa [unsized] using congrArg Panel.quitting h

theorem picture_ne_none (h : r.current.panel.unsized = p.unsized) :
    p.picture r.current.size ≠ none := by
  rw [← picture_congr h, ← r.current.some_picture]
  exact Option.some_ne_none _

/-- The next scene is that of the panel after the key press, if it can be drawn at the new size. -/
theorem next_spec (h : r.current.panel.unsized = p.unsized) (e : Event) :
    (r.current.next e = none ↔
        (p.pressAll e.pressed?.toList).picture (e.size?.getD r.current.size) = none) ∧
      ∀ c, r.current.next e = some c → c.panel.unsized = (p.pressAll e.pressed?.toList).unsized ∧
        c.size = e.size?.getD r.current.size := by
  have hpress : (r.current.panel.pressAll e.pressed?.toList).unsized =
      (p.pressAll e.pressed?.toList).unsized := by
    rw [unsized_pressAll, h, ← unsized_pressAll]
  rw [Scene.next_eq]
  refine ⟨Scene.draw_eq_none_iff.trans (by rw [picture_congr hpress]), fun c hc => ?_⟩
  obtain ⟨hpanel, hsize, -⟩ := Scene.draw_eq_some hc
  exact ⟨hpanel.trans hpress, hsize⟩

/-- **When a run is aborted.** -/
theorem foldlM_eq_none_iff (h : r.current.panel.unsized = p.unsized) (events : List Event) :
    events.foldlM step r = none ↔ p.AbortsOn r.current.size (p.consumed events) := by
  induction events generalizing r p with
  | nil => exact iff_of_false nofun (mt abortsOn_nil.1 (picture_ne_none h))
  | cons e events ih =>
    -- A panel that is quitting consumes no event, and the run stays as it is.
    by_cases hquit : p.quitting = true
    · rw [foldlM_of_quitting ((quitting_congr h).trans hquit), consumed_of_quitting hquit]
      exact iff_of_false nofun (mt abortsOn_nil.1 (picture_ne_none h))
    · obtain ⟨hnone, hsome⟩ := next_spec h e
      rw [consumed, if_neg hquit, abortsOn_cons, or_iff_right (picture_ne_none h),
        List.foldlM_cons, step, if_neg (by rwa [quitting_congr h])]
      cases hnext : r.current.next e with
      | none => exact iff_of_true rfl (abortsOn_of_picture (hnone.1 hnext) _)
      | some c =>
        obtain ⟨hpanel, hsize⟩ := hsome c hnext
        rw [← hsize]
        exact ih (r := ⟨c, r.current :: r.earlier⟩) hpanel

/-- **What a run comes to**, if it is not aborted. The panel at the end is that of the keys pressed,
up to the note about the size; the size is the last one; and every event consumed has added a
scene. -/
theorem foldlM_spec (h : r.current.panel.unsized = p.unsized) {events : List Event} {s : Run}
    (hs : events.foldlM step r = some s) :
    s.current.panel.unsized = (p.pressAll (pressed (p.consumed events))).unsized ∧
      s.current.size = lastSize r.current.size (p.consumed events) ∧
      s.earlier.length = r.earlier.length + (p.consumed events).length := by
  induction events generalizing r p with
  | nil =>
    cases hs
    exact ⟨h, rfl, rfl⟩
  | cons e events ih =>
    by_cases hquit : p.quitting = true
    · rw [foldlM_of_quitting ((quitting_congr h).trans hquit)] at hs
      cases hs
      rw [consumed_of_quitting hquit]
      exact ⟨h, rfl, rfl⟩
    · rw [List.foldlM_cons, step, if_neg (by rwa [quitting_congr h])] at hs
      cases hnext : r.current.next e with
      | none =>
        rw [hnext] at hs
        cases hs
      | some c =>
        obtain ⟨hnew, hsize⟩ := (next_spec h e).2 c hnext
        rw [hnext] at hs
        obtain ⟨hpanel, hlast, hlength⟩ := ih (r := ⟨c, r.current :: r.earlier⟩) hnew hs
        rw [consumed, if_neg hquit]
        refine ⟨?_, ?_, ?_⟩
        · rw [hpanel, pressed_cons, pressAll_append]
        · rw [hlast, lastSize_cons, hsize]
        · rw [hlength, List.length_cons, List.length_cons]
          omega

end

end Run

section

variable {p : Panel} {size : Size} {events : List Event}

theorem run_eq_none_iff : run p size events = none ↔ p.AbortsOn size (p.consumed events) := by
  rw [run, Run.start]
  cases hdraw : Scene.draw p size with
  | none => exact iff_of_true rfl (abortsOn_of_picture (Scene.draw_eq_none_iff.1 hdraw) _)
  | some c =>
    obtain ⟨hpanel, rfl, -⟩ := Scene.draw_eq_some hdraw
    exact Run.foldlM_eq_none_iff hpanel events

theorem run_eq_some {r : Run} (h : run p size events = some r) :
    r.current.panel.unsized = (p.pressAll (pressed (p.consumed events))).unsized ∧
      r.current.size = lastSize size (p.consumed events) ∧
      r.scenes.length = (p.consumed events).length + 1 := by
  obtain ⟨s, hstart, hs⟩ := Option.bind_eq_some_iff.1 h
  obtain ⟨c, hdraw, rfl⟩ := Option.map_eq_some_iff.1 hstart
  obtain ⟨hpanel, rfl, -⟩ := Scene.draw_eq_some hdraw
  obtain ⟨hfinal, hlast, hlength⟩ := Run.foldlM_spec hpanel hs
  refine ⟨hfinal, hlast, ?_⟩
  rw [Run.scenes, List.length_reverse, List.length_cons, hlength]
  exact congrArg (· + 1) (Nat.zero_add _)

theorem current_run : (run p size events).map Run.current =
    (Scene.draw p size).bind fun c => events.foldlM Scene.step c := by
  rw [run, Run.start]
  cases Scene.draw p size with
  | none => rfl
  | some c => exact Run.current_foldlM ⟨c, []⟩ events

/-- Events that press no key and bring no new size can be left out of a run. -/
theorem current_run_filter : (run p size (events.filter Event.isSignificant)).map Run.current =
    (run p size events).map Run.current := by
  rw [current_run, current_run]
  cases hdraw : Scene.draw p size with
  | none => rfl
  | some c => exact (Scene.draw_eq_some hdraw).2.2.foldlM_filter events

theorem run_append_of_quitting {r : Run} (h : run p size events = some r)
    (hquit : r.current.panel.quitting = true) (more : List Event) :
    run p size (events ++ more) = some r := by
  obtain ⟨s, hstart, hs⟩ := Option.bind_eq_some_iff.1 h
  rw [run, hstart, Option.bind_some, List.foldlM_append, hs]
  exact Run.foldlM_of_quitting hquit more

end

section

-- Keys that open the help and scroll it down, on a screen that is tall first or low throughout.
variable {limit : Nat} {downs : List Key} {tall low : Size}

/-- The panel whose help has been opened and scrolled down. -/
theorem pressAll_helpKey (hdown : ∀ k ∈ downs, ScrollsDown k) :
    (start limit).pressAll (helpKey :: downs) =
      { start limit with helpOpen := true, helpScroll := min (0 + downLines downs) scrollLimit } :=
  pressAll_of_scrollsDown (p := (start limit).press helpKey) rfl (Nat.zero_le _) hdown

theorem consumed_helpKey (hdown : ∀ k ∈ downs, ScrollsDown k) {events : List Event}
    (hevents : pressed events = helpKey :: downs) :
    (start limit).consumed events = events := by
  refine consumed_eq_self (positioned_start limit) ?_
  rw [hevents, pressAll_helpKey hdown]
  rfl

/-- On a tall screen the help cannot be scrolled down so far, whatever happens afterwards. -/
theorem run_tall (hdown : ∀ k ∈ downs, ScrollsDown k) (hcolumns : 2 < tall.columns)
    (hrows : 2 < tall.rows) (hlines : downLines downs ≤ 65535)
    (hover : 65535 < downLines downs + (tall.rows - 2)) (events : List Event)
    (hevents : pressed events = []) :
    run (start limit) tall (presses (helpKey :: downs) ++ events) = none := by
  have hpressed : pressed (presses (helpKey :: downs) ++ events) = helpKey :: downs := by
    rw [pressed_append, pressed_presses, hevents, List.append_nil]
  rw [run_eq_none_iff, consumed_helpKey hdown hpressed]
  refine ⟨presses (helpKey :: downs), events, rfl, ?_⟩
  rw [pressed_presses, lastSize_presses, pressAll_helpKey hdown, picture_eq_none_iff]
  refine ⟨rfl, hcolumns, hrows, ?_⟩
  simp only [scrollLimit, UInt64.size]
  omega

/-- On a screen that is made low first the help can be scrolled down so far. -/
theorem run_low (hdown : ∀ k ∈ downs, ScrollsDown k)
    (hroom : downLines downs + (low.rows - 2) ≤ 65535) :
    ∃ r, run (start limit) tall (.resize low :: presses (helpKey :: downs)) = some r ∧
      r.scenes.length = downs.length + 3 ∧ r.current.panel.helpScroll = downLines downs := by
  have hpressed : pressed (.resize low :: presses (helpKey :: downs)) = helpKey :: downs :=
    (pressed_cons ..).trans (pressed_presses _)
  have hopened : ((start limit).press helpKey).DrawnOn low downs :=
    drawnOn_of_le rfl (Nat.zero_le _) hdown (by rwa [show helpScroll _ = 0 from rfl, Nat.zero_add])
  -- Nothing can abort the two scenes before the help is open.
  have hdrawn : run (start limit) tall (.resize low :: presses (helpKey :: downs)) ≠ none := by
    rw [ne_eq, run_eq_none_iff, consumed_helpKey hdown hpressed, abortsOn_cons,
      or_iff_right (picture_ne_none_of_closed rfl), presses, List.map_cons, abortsOn_cons,
      or_iff_right (picture_ne_none_of_closed rfl)]
    exact mt abortsOn_presses.1 (not_not_intro hopened)
  obtain ⟨r, hr⟩ := Option.ne_none_iff_exists'.1 hdrawn
  obtain ⟨hpanel, -, hlength⟩ := run_eq_some hr
  rw [consumed_helpKey hdown hpressed] at hpanel hlength
  refine ⟨r, hr, ?_, ?_⟩
  · rw [hlength, presses]
    simp
  · have hscroll := congrArg helpScroll hpanel
    rw [hpressed, pressAll_helpKey hdown] at hscroll
    simp only [unsized, scrollLimit, UInt64.size] at hscroll
    omega

end

/-- **A run depends on its key presses and the last size alone, unless it is aborted**, and whether
it is aborted depends on every size. It is aborted if and only if after some of the events consumed
the help is open, the screen has room inside the frame, and the rows there cannot be added to the
offset in 16 bits.

Leaving out or putting in events that neither press a key nor bring a new size changes nothing in
the last scene, or in the abortion. If the run is not aborted, then however often it was drawn, the
panel at the end has the state that the keys pressed lead to, and the last picture is drawn from
that state at the last size. New sizes change nothing but the note about the size and the picture,
as long as they do not abort the run. The run consumes events up to the key press that quits and
none after it, and draws one scene more than that. -/
theorem run_depends_on_presses (limit : Nat) (size : Size) (events : List Event) :
    let p := Panel.start limit
    let used := p.consumed events
    let final := p.pressAll (pressed used)
    (run p size events = none ↔ ∃ front back, used = front ++ back ∧
        let q := p.pressAll (pressed front)
        let s := lastSize size front
        q.helpOpen = true ∧ 2 < s.columns ∧ 2 < s.rows ∧
          65535 < q.helpScroll % 65536 + (s.rows - 2)) ∧
      (∀ others, others.filter Event.isSignificant = events.filter Event.isSignificant →
        (run p size others).map Run.current = (run p size events).map Run.current) ∧
      (∃ unread, events = used ++ unread ∧ (unread ≠ [] → final.quitting = true)) ∧
      (∀ front e back, used = front ++ e :: back →
        (p.pressAll (pressed front)).quitting = false) ∧
      ∀ r, run p size events = some r →
        (r.current.panel.unsized = final ∧ r.current.size = lastSize size used ∧
          some r.current.picture = final.picture (lastSize size used)) ∧
        (∀ others s, pressed others = pressed events → run p size others = some s →
          s.current.panel.unsized = final ∧
            some s.current.picture = final.picture (lastSize size (p.consumed others))) ∧
        (∀ more, r.current.panel.quitting = true → run p size (events ++ more) = some r) ∧
        r.scenes.length = used.length + 1 := by
  intro p used final
  have hfinal : final.unsized = final := p.unsized_pressAll (pressed used)
  have hends : ∀ others s, pressed others = pressed events → run p size others = some s →
      s.current.panel.unsized = final ∧
        some s.current.picture = final.picture (lastSize size (p.consumed others)) := by
    intro others s hpressed hs
    obtain ⟨hpanel, hsize, -⟩ := run_eq_some hs
    -- The keys that are pressed decide by themselves which of them the panel is given.
    rw [pressed_consumed, hpressed, ← pressed_consumed] at hpanel
    refine ⟨hpanel.trans hfinal, ?_⟩
    rw [Scene.some_picture, hsize, picture_congr hpanel]
  refine ⟨?_, ?_, (consumed_spec p events).1, (consumed_spec p events).2, ?_⟩
  · rw [run_eq_none_iff]
    simp only [AbortsOn, picture_eq_none_iff]
    exact Iff.rfl
  · intro others hfilter
    rw [← current_run_filter, hfilter, current_run_filter]
  · intro r hr
    obtain ⟨-, hsize, hlength⟩ := run_eq_some hr
    obtain ⟨hpanel, hpicture⟩ := hends events r rfl hr
    exact ⟨⟨hpanel, hsize, hpicture⟩, hends, fun more hquit => run_append_of_quitting hr hquit more,
      hlength⟩

/-- Two runs with the same key presses and the same last size. The help is opened and scrolled down
by 6552 pages; the one run is made low in the end, and is aborted before, the other is low all along
and is not. -/
theorem run_depends_on_earlier_size :
    let keys := helpKey :: List.replicate 6552 { code := .pageDown }
    let low : Event := .resize ⟨80, 10⟩
    let events := presses keys ++ [low]
    let others := low :: presses keys
    pressed others = pressed events ∧ lastSize ⟨80, 24⟩ others = lastSize ⟨80, 24⟩ events ∧
      run (start 5) ⟨80, 24⟩ events = none ∧
      ∃ r, run (start 5) ⟨80, 24⟩ others = some r ∧ r.scenes.length = 6555 ∧
        r.current.panel.helpScroll = 65520 := by
  intro keys low events others
  have hdown : ∀ k ∈ List.replicate 6552 ({ code := .pageDown } : Key), ScrollsDown k :=
    scrollsDown_replicate 6552 (.inr rfl)
  have hlines : downLines (List.replicate 6552 { code := .pageDown }) = 65520 :=
    (downLines_replicate 6552 _).trans (by decide)
  have habort : run (start 5) ⟨80, 24⟩ events = none :=
    run_tall hdown (by decide) (by decide) (by rw [hlines]; decide) (by rw [hlines]; decide)
      [low] rfl
  obtain ⟨r, hr, hlength, hscroll⟩ := @run_low 5 _ ⟨80, 24⟩ ⟨80, 10⟩ hdown (by rw [hlines]; decide)
  rw [List.length_replicate] at hlength
  refine ⟨?_, ?_, habort, r, hr, hlength, hscroll.trans hlines⟩
  · rw [pressed_cons, pressed_append]
    exact (List.append_nil (pressed (presses keys))).symm
  · rw [lastSize_cons, lastSize_presses, lastSize_concat]
    rfl

end PocketCalc.Panel
