import PocketCalc.Panel.Help

/-!
# Running the panel

The panel is drawn before every event and once more after the last one. Only key presses change
it; a released or repeating key, a moment without any event and a new screen size leave it alone,
and after a key that quits nothing more is handled. A panel that cannot be drawn aborts the run.
-/

namespace PocketCalc.Panel

open Screen

inductive KeyPhase where
  | press
  | repeated
  | release
deriving DecidableEq, Repr

/-- What comes from the terminal. -/
inductive Event where
  | key (k : Key) (phase : KeyPhase)
  /-- A while passed and nothing happened. -/
  | idle
  | resize (size : Size)
deriving DecidableEq, Repr

/-- The panel with the note that drawing makes in it: whether the screen is too small for the
session. -/
def noted (p : Panel) (size : Size) : Panel :=
  if p.helpOpen then p else { p with tooSmall := size.tooSmall }

/-- A panel as it was drawn on a screen of some size. -/
structure Scene where
  panel : Panel
  size : Size
  drawn : (panel.picture size).isSome
deriving DecidableEq

namespace Scene

/-- The scene of a panel, if it can be drawn. -/
def draw (p : Panel) (size : Size) : Option Scene :=
  if h : (p.noted size).overflows size then none
  else some ⟨p.noted size, size, by rw [isSome_picture, Bool.eq_false_iff.2 h]; rfl⟩

def picture (s : Scene) : List Row :=
  (s.panel.picture s.size).get s.drawn

def next (s : Scene) : Event → Option Scene
  | .key k .press => draw (s.panel.press k) s.size
  | .key _ _ | .idle => draw s.panel s.size
  | .resize size => draw s.panel size

end Scene

/-- The scenes of a run: the current one and the earlier ones, the latest first. -/
structure Run where
  current : Scene
  earlier : List Scene
deriving DecidableEq

namespace Run

/-- A run that has drawn its first scene. -/
def start (p : Panel) (size : Size) : Option Run :=
  (Scene.draw p size).map fun s => ⟨s, []⟩

/-- The run after one more event, which is not handled if the panel is quitting. -/
def step (r : Run) (e : Event) : Option Run :=
  if r.current.panel.quitting then some r
  else (r.current.next e).map fun s => ⟨s, r.current :: r.earlier⟩

/-- The scenes in the order in which they were drawn. -/
def scenes (r : Run) : List Scene :=
  (r.current :: r.earlier).reverse

end Run

/-- The run of a panel on the given events (`run_ui_loop`), unless it is aborted. -/
def run (p : Panel) (size : Size) (events : List Event) : Option Run :=
  (Run.start p size).bind fun r => events.foldlM Run.step r

end PocketCalc.Panel
