import Mathlib.Algebra.Ring.Nat
import PocketCalc.Proofs.Panel.HelpKeys
import PocketCalc.Proofs.Panel.Picture
import PocketCalc.Proofs.Screen.Rows

/-!
# The help screen, scrolled down

The rows of the help screen show its wrapped lines from the offset on (`row?_of_open`). The offset
is the position of the help in laps of `2 ^ 16` lines, so that scrolling down moves the help down
(`helpOffset_le_of_lap_eq`) until the position comes into the next lap, and there the help starts
over (`goesBack_iff`). Over any number of keys, the help goes back if and only if the position has
come into a later lap (`exists_goesBack_iff`).

Just before the next lap most screens cannot be drawn. On a screen that is drawn all the way the
help goes back only if a page down jumps over those positions, for which the screen has to be lower
than the main screen needs it (`goesBack_iff_of_drawn`).
-/

namespace PocketCalc.Panel

open Screen

/-! ## The rows -/

/-- The row of the help screen that shows the wrapped line with the given number, blank where there
is no such line. -/
def helpRow (columns number : Nat) : Row :=
  side .double ((Style.colored .yellow).apply helpGround) columns
    (lay helpGround (columns - 2) .left ((wrapLines (columns - 2) helpLines)[number]?.getD []))

/-- **The help screen shows its lines from the offset on**, one line to a row. -/
theorem row?_of_open {p : Panel} (hopen : p.helpOpen = true) {size : Size}
    (hdrawn : p.picture size ≠ none) {i : Nat} (hi : i + 2 < size.rows) :
    p.row? size (i + 1) = some (helpRow size.columns (p.helpOffset + i)) := by
  have hrow : i < size.rows - 2 := by omega
  rw [picture, if_pos hopen, helpScreen, scrolledParagraph] at hdrawn
  rw [row?, picture, if_pos hopen, helpScreen, scrolledParagraph]
  split
  · rename_i hover
    rw [if_pos hover] at hdrawn
    exact absurd rfl hdrawn
  · refine getElem?_frame _ _ _ _ (by omega) ?_
    rw [getElem?_paragraph_getD _ _ _ _ hrow, List.getElem?_drop]

/-! ## Scrolling down -/

def helpKey : Key :=
  { code := .function 1 }

def ScrollsDown (k : Key) : Prop :=
  k.code = .down ∨ k.code = .pageDown

instance (k : Key) : Decidable (ScrollsDown k) :=
  inferInstanceAs (Decidable (_ ∨ _))

/-- The lines that keys scroll the help down by. -/
def downLines (keys : List Key) : Nat :=
  (keys.map fun k => (scrollStep k).toNat).sum

theorem scrollsDown_replicate (n : Nat) {k : Key} (hk : ScrollsDown k) :
    ∀ k' ∈ List.replicate n k, ScrollsDown k' := by
  intro k' hk'
  rwa [List.eq_of_mem_replicate hk']

theorem downLines_replicate (n : Nat) (k : Key) :
    downLines (List.replicate n k) = n * (scrollStep k).toNat := by
  rw [downLines, List.map_replicate, List.sum_replicate_nat]

theorem downLines_append (keys more : List Key) :
    downLines (keys ++ more) = downLines keys + downLines more := by
  rw [downLines, List.map_append, List.sum_append]
  rfl

theorem ScrollsDown.scrollStep_bounds {k : Key} (h : ScrollsDown k) :
    0 < (scrollStep k).toNat ∧ (scrollStep k).toNat ≤ scrollPage := by
  rcases h with h | h <;> simp [scrollStep, h, scrollPage]

theorem ScrollsDown.scroll_eq {k : Key} (h : ScrollsDown k) (position : Nat) :
    scroll position k = min (position + (scrollStep k).toNat) scrollLimit := by
  have hstep := h.scrollStep_bounds
  rw [scroll]
  congr 1
  omega

theorem ScrollsDown.turnHelp {k : Key} (h : ScrollsDown k) : turnHelp true k = true := by
  rcases h with h | h <;> simp [Panel.turnHelp, h]

/-- Scrolling down again and again is scrolling down once by all the lines. -/
theorem foldl_scroll_down {position : Nat} (hposition : position ≤ scrollLimit) {keys : List Key}
    (hdown : ∀ k ∈ keys, ScrollsDown k) :
    keys.foldl scroll position = min (position + downLines keys) scrollLimit := by
  induction keys generalizing position with
  | nil => exact (Nat.min_eq_left hposition).symm
  | cons k keys ih =>
    have hrest := ih (scroll_le position k) fun k' hk' => hdown k' (List.mem_cons_of_mem k hk')
    have hlines : downLines (k :: keys) = (scrollStep k).toNat + downLines keys := List.sum_cons
    rw [List.foldl_cons, hrest, (hdown k List.mem_cons_self).scroll_eq, hlines]
    omega

section

variable {p : Panel}

theorem press_of_scrollsDown (hopen : p.helpOpen = true) (hlimit : p.helpScroll ≤ scrollLimit)
    {k : Key} (hk : ScrollsDown k) :
    p.press k = { p with helpScroll := scroll p.helpScroll k } := by
  rw [press_of_open hopen hlimit, if_pos hk.turnHelp]

/-- Keys that scroll down move the help down and do nothing else. -/
theorem pressAll_of_scrollsDown (hopen : p.helpOpen = true) (hlimit : p.helpScroll ≤ scrollLimit)
    {keys : List Key} (hdown : ∀ k ∈ keys, ScrollsDown k) :
    p.pressAll keys =
      { p with helpScroll := min (p.helpScroll + downLines keys) scrollLimit } := by
  rw [← foldl_scroll_down hlimit hdown]
  induction keys generalizing p with
  | nil => rfl
  | cons k keys ih =>
    have hrest := ih (p := { p with helpScroll := scroll p.helpScroll k }) hopen (scroll_le _ k)
      fun k' hk' => hdown k' (List.mem_cons_of_mem k hk')
    change (p.press k).pressAll keys = _
    rw [press_of_scrollsDown hopen hlimit (hdown k List.mem_cons_self), hrest]
    rfl

/-- What keys that scroll down leave alone before any of them. -/
theorem midway_of_scrollsDown (hopen : p.helpOpen = true) (hlimit : p.helpScroll ≤ scrollLimit)
    {keys before after : List Key} {k : Key} (hdown : ∀ k ∈ keys, ScrollsDown k)
    (hkeys : keys = before ++ k :: after) :
    (p.pressAll before).helpOpen = true ∧ (p.pressAll before).helpScroll ≤ scrollLimit ∧
      ScrollsDown k := by
  have hbefore : ∀ k' ∈ before, ScrollsDown k' := fun k' hk' => hdown k' (by simp [hkeys, hk'])
  rw [pressAll_of_scrollsDown hopen hlimit hbefore]
  exact ⟨hopen, Nat.min_le_right _ _, hdown k (by simp [hkeys])⟩

/-! ## Laps -/

/-- The number of times that the help has started over. -/
def lap (p : Panel) : Nat :=
  p.helpScroll / scrollPeriod

/-- A key takes the help back to lines above its first line on the screen. -/
def GoesBack (p : Panel) (k : Key) : Prop :=
  (p.press k).helpOffset < p.helpOffset

/-- Within a lap the help that is farther down shows lines that are farther down. -/
theorem helpOffset_le_of_lap_eq {q : Panel} (hscroll : p.helpScroll ≤ q.helpScroll)
    (hlap : p.lap = q.lap) : p.helpOffset ≤ q.helpOffset := by
  simp only [lap, scrollPeriod, UInt16.size] at hlap
  simp only [helpOffset, scrollPeriod, UInt16.size]
  omega

/-- **One key that scrolls down**: it never takes the help to an earlier lap, and takes it back if
and only if it takes it to the next lap, where the help is at most a page below its beginning. -/
theorem goesBack_iff (hopen : p.helpOpen = true) (hlimit : p.helpScroll ≤ scrollLimit) {k : Key}
    (hk : ScrollsDown k) :
    p.lap ≤ (p.press k).lap ∧ (p.GoesBack k ↔ p.lap < (p.press k).lap) ∧
      (p.GoesBack k → (p.press k).helpOffset < scrollPage) := by
  have hstep := hk.scrollStep_bounds
  simp only [GoesBack, press_of_scrollsDown hopen hlimit hk, hk.scroll_eq]
  simp only [lap, helpOffset, scrollPeriod, UInt16.size]
  simp only [scrollPage, scrollLimit, UInt64.size] at hstep hlimit ⊢
  omega

/-- **One key on a screen that has room for the help and is drawn.** Only a page down takes the help
back, from the last ten offsets, and there only a low screen can be drawn. -/
theorem goesBack_iff_of_drawn (hopen : p.helpOpen = true) (hlimit : p.helpScroll ≤ scrollLimit)
    {k : Key} (hk : ScrollsDown k) {size : Size} (hcolumns : 2 < size.columns)
    (hrows : 2 < size.rows) (hdrawn : p.picture size ≠ none) :
    p.GoesBack k ↔ size.rows ≤ 11 ∧ k.code = .pageDown ∧ 65526 ≤ p.helpOffset ∧
      p.helpScroll + scrollPage ≤ scrollLimit := by
  have hroom : p.helpScroll % 65536 + (size.rows - 2) ≤ 65535 := by
    by_contra hover
    exact hdrawn (picture_eq_none_iff.2 ⟨hopen, hcolumns, hrows, Nat.lt_of_not_le hover⟩)
  simp only [GoesBack, press_of_scrollsDown hopen hlimit hk, hk.scroll_eq]
  simp only [helpOffset, scrollPeriod, UInt16.size, scrollPage, scrollLimit, UInt64.size]
    at hlimit ⊢
  -- The rows inside the frame keep the offset below 65535, so one line down stays in the lap.
  rcases hk with hcode | hcode
  · simp [scrollStep, hcode]
    omega
  · simp [scrollStep, hcode]
    omega

theorem exists_goesBack_cons {k : Key} {keys : List Key} :
    (∃ before k' after, k :: keys = before ++ k' :: after ∧ (p.pressAll before).GoesBack k') ↔
      p.GoesBack k ∨ ∃ before k' after,
        keys = before ++ k' :: after ∧ ((p.press k).pressAll before).GoesBack k' := by
  constructor
  · rintro ⟨before, k', after, hkeys, h⟩
    cases before with
    | nil =>
      obtain ⟨rfl, rfl⟩ := List.cons.inj hkeys
      exact .inl h
    | cons _ before =>
      obtain ⟨rfl, htail⟩ := List.cons.inj hkeys
      exact .inr ⟨before, k', after, htail, h⟩
  · rintro (h | ⟨before, k', after, hkeys, h⟩)
    · exact ⟨[], k, keys, rfl, h⟩
    · exact ⟨k :: before, k', after, congrArg (k :: ·) hkeys, h⟩

/-- **Any number of keys that scroll down** take the help back at some point if and only if they
take it to a later lap. -/
theorem exists_goesBack_iff (hopen : p.helpOpen = true) (hlimit : p.helpScroll ≤ scrollLimit)
    {keys : List Key} (hdown : ∀ k ∈ keys, ScrollsDown k) :
    p.lap ≤ (p.pressAll keys).lap ∧
      ((∃ before k after, keys = before ++ k :: after ∧ (p.pressAll before).GoesBack k) ↔
        p.lap < (p.pressAll keys).lap) := by
  induction keys generalizing p with
  | nil => simp [pressAll]
  | cons k keys ih =>
    have hk := hdown k List.mem_cons_self
    obtain ⟨hle, hback, -⟩ := goesBack_iff hopen hlimit hk
    have hpress := press_of_scrollsDown hopen hlimit hk
    obtain ⟨hrest, hbacks⟩ := ih (p := p.press k) (by rw [hpress]; exact hopen)
      (by rw [hpress]; exact scroll_le _ k) fun k' hk' => hdown k' (List.mem_cons_of_mem k hk')
    change p.lap ≤ ((p.press k).pressAll keys).lap ∧ (_ ↔ p.lap < ((p.press k).pressAll keys).lap)
    rw [exists_goesBack_cons, hback, hbacks]
    omega

/-! ## Drawn all the way -/

/-- The panel can be drawn before each of the keys and after the last one. -/
def DrawnOn (p : Panel) (size : Size) (keys : List Key) : Prop :=
  ∀ before after, keys = before ++ after → (p.pressAll before).picture size ≠ none

theorem drawnOn_concat {size : Size} {keys : List Key} {k : Key} (h : p.DrawnOn size keys)
    (hlast : (p.pressAll (keys ++ [k])).picture size ≠ none) : p.DrawnOn size (keys ++ [k]) := by
  intro before after hkeys
  rcases List.eq_nil_or_concat after with rfl | ⟨after, k', rfl⟩
  · rwa [← List.append_nil before, ← hkeys]
  · rw [List.concat_eq_append, ← List.append_assoc] at hkeys
    exact h before after (List.append_inj' hkeys rfl).1

/-- The help is drawn while the position and the rows of the screen can be added up. -/
theorem drawnOn_of_le (hopen : p.helpOpen = true) (hlimit : p.helpScroll ≤ scrollLimit)
    {keys : List Key} (hdown : ∀ k ∈ keys, ScrollsDown k) {size : Size}
    (hroom : p.helpScroll + downLines keys + (size.rows - 2) ≤ 65535) : p.DrawnOn size keys := by
  intro before after hkeys hnone
  have hlines : downLines keys = downLines before + downLines after := by
    rw [hkeys, downLines_append]
  rw [pressAll_of_scrollsDown hopen hlimit fun k' hk' => hdown k' (by simp [hkeys, hk']),
    picture_eq_none_iff] at hnone
  obtain ⟨-, -, -, hover⟩ := hnone
  simp only at hover
  omega

/-- **On a screen that the main screen fits on** the help never goes back while it is drawn: the
drawing is aborted before. -/
theorem DrawnOn.helpOffset_le {size : Size} {keys : List Key} (h : p.DrawnOn size keys)
    (hopen : p.helpOpen = true) (hlimit : p.helpScroll ≤ scrollLimit)
    (hdown : ∀ k ∈ keys, ScrollsDown k) (hcolumns : 2 < size.columns) (hrows : 12 ≤ size.rows) :
    p.helpOffset ≤ (p.pressAll keys).helpOffset := by
  obtain ⟨hle, hback⟩ := exists_goesBack_iff hopen hlimit hdown
  have hpress := pressAll_of_scrollsDown hopen hlimit hdown
  refine helpOffset_le_of_lap_eq (by rw [hpress]; simp only; omega) (Nat.le_antisymm hle ?_)
  by_contra hlap
  -- A later lap takes a key that goes back, and that takes eleven rows at most.
  obtain ⟨before, k, after, hkeys, hgoes⟩ := hback.2 (Nat.lt_of_not_le hlap)
  obtain ⟨hopen', hlimit', hk⟩ := midway_of_scrollsDown hopen hlimit hdown hkeys
  have hlow := (goesBack_iff_of_drawn hopen' hlimit' hk hcolumns (by omega)
    (h before (k :: after) hkeys)).1 hgoes
  omega

end

/-- **Scrolling down, exactly.** While the help is open, the keys that scroll down add up to one
position, no farther than the limit. The drawing is aborted exactly where the position in its lap
and the rows inside the frame do not add up to a number of 16 bits; elsewhere the screen shows the
wrapped lines from the position in its lap on. Within a lap no line above the first line on the
screen comes back. One comes back if and only if the keys take the help to a later lap: at that key
the help starts over, less than a page below its beginning.

On a screen that is drawn all the way this happens only at a page down from the last ten positions
of a lap, which takes a screen lower than the main screen needs it; on the others the drawing is
aborted first. -/
theorem scrolled_down_iff_lap {limit : Nat} {keys downs : List Key}
    (hopen : ((start limit).pressAll keys).helpOpen = true) (hdown : ∀ k ∈ downs, ScrollsDown k) :
    let p := (start limit).pressAll keys
    let q := p.pressAll downs
    q.helpScroll = min (p.helpScroll + downLines downs) scrollLimit ∧
      (∀ size : Size, q.picture size = none ↔ 2 < size.columns ∧ 2 < size.rows ∧
        65535 < q.helpScroll % 65536 + (size.rows - 2)) ∧
      (∀ (size : Size) (i : Nat), q.picture size ≠ none → i + 2 < size.rows →
        q.row? size (i + 1) = some (helpRow size.columns (q.helpScroll % 65536 + i))) ∧
      (p.lap = q.lap → p.helpOffset ≤ q.helpOffset) ∧
      ((∃ before k after, downs = before ++ k :: after ∧ (p.pressAll before).GoesBack k) ↔
        p.lap < q.lap) ∧
      (∀ before k after, downs = before ++ k :: after → (p.pressAll before).GoesBack k →
        ((p.pressAll before).press k).helpOffset < scrollPage) ∧
      ∀ size : Size, 2 < size.columns → 2 < size.rows → p.DrawnOn size downs →
        (∀ before k after, downs = before ++ k :: after →
          ((p.pressAll before).GoesBack k ↔ size.rows ≤ 11 ∧ k.code = .pageDown ∧
            65526 ≤ (p.pressAll before).helpOffset ∧
            (p.pressAll before).helpScroll + scrollPage ≤ scrollLimit)) ∧
          (12 ≤ size.rows → p.helpOffset ≤ q.helpOffset) := by
  intro p q
  have hlimit : p.helpScroll ≤ scrollLimit := ((positioned_start limit).pressAll keys).le_limit
  have hq : q = { p with helpScroll := min (p.helpScroll + downLines downs) scrollLimit } :=
    pressAll_of_scrollsDown hopen hlimit hdown
  have hscroll : q.helpScroll = min (p.helpScroll + downLines downs) scrollLimit :=
    congrArg helpScroll hq
  have hqopen : q.helpOpen = true := by rw [hq]; exact hopen
  refine ⟨hscroll, fun size => ?_, fun size i hdrawn hi => row?_of_open hqopen hdrawn hi,
    helpOffset_le_of_lap_eq (by omega), (exists_goesBack_iff hopen hlimit hdown).2, ?_, ?_⟩
  · rw [picture_eq_none_iff, hqopen]
    simp
  · intro before k after hkeys hback
    obtain ⟨hopen', hlimit', hk⟩ := midway_of_scrollsDown hopen hlimit hdown hkeys
    exact (goesBack_iff hopen' hlimit' hk).2.2 hback
  · intro size hcolumns hrows hdrawn
    refine ⟨fun before k after hkeys => ?_,
      hdrawn.helpOffset_le hopen hlimit hdown hcolumns⟩
    obtain ⟨hopen', hlimit', hk⟩ := midway_of_scrollsDown hopen hlimit hdown hkeys
    exact goesBack_iff_of_drawn hopen' hlimit' hk hcolumns hrows (hdrawn before (k :: after) hkeys)

/-- The help after it was opened and scrolled down by a page. -/
def onePageDown : Panel :=
  (start 5).pressAll [helpKey, { code := .pageDown }]

/-- From one page down to the beginning of the next lap: 6551 pages and six lines more, and then a
page down. -/
def downToNextLap : List Key :=
  List.replicate 6551 { code := .pageDown } ++ List.replicate 6 { code := .down } ++
    [{ code := .pageDown }]

theorem scrollsDown_downToNextLap : ∀ k ∈ downToNextLap, ScrollsDown k := by
  intro k hk
  simp only [downToNextLap, List.mem_append, List.mem_replicate, List.mem_singleton] at hk
  rcases hk with (⟨-, rfl⟩ | ⟨-, rfl⟩) | rfl
  · exact .inr rfl
  · exact .inl rfl
  · exact .inr rfl

theorem pressAll_downToNextLap :
    onePageDown.pressAll downToNextLap = { onePageDown with helpScroll := 65536 } := by
  have hlines : downLines downToNextLap = 65526 := by
    rw [downToNextLap, downLines_append, downLines_append, downLines_replicate,
      downLines_replicate]
    decide
  have hposition : min (onePageDown.helpScroll + 65526) scrollLimit = 65536 := by decide
  rw [pressAll_of_scrollsDown (p := onePageDown) rfl (by decide) scrollsDown_downToNextLap, hlines,
    hposition]

/-- On eleven rows the drawing is never aborted on this way: the last six lines lead to the last
position that these rows can be added to. -/
theorem drawnOn_downToNextLap : onePageDown.DrawnOn ⟨80, 11⟩ downToNextLap := by
  refine drawnOn_concat (drawnOn_of_le rfl (by decide) ?_ ?_) ?_
  · exact fun k hk => scrollsDown_downToNextLap k (List.mem_append_left _ hk)
  · rw [downLines_append, downLines_replicate, downLines_replicate]
    decide
  · change (onePageDown.pressAll downToNextLap).picture ⟨80, 11⟩ ≠ none
    rw [pressAll_downToNextLap, ne_eq, picture_eq_none_iff]
    decide

/-- On eleven rows, drawn all the way, the help comes to the next lap and goes back. -/
theorem scrolled_down_to_next_lap :
    let q := onePageDown.pressAll downToNextLap
    onePageDown.helpOpen = true ∧ (∀ k ∈ downToNextLap, ScrollsDown k) ∧
      onePageDown.DrawnOn ⟨80, 11⟩ downToNextLap ∧ q.helpScroll = 65536 ∧
      ∃ before k after, downToNextLap = before ++ k :: after ∧
        (onePageDown.pressAll before).GoesBack k := by
  intro q
  obtain ⟨-, -, -, -, hback, -⟩ := @scrolled_down_iff_lap 5
    [helpKey, { code := .pageDown }] downToNextLap rfl scrollsDown_downToNextLap
  have hq : q = { onePageDown with helpScroll := 65536 } := pressAll_downToNextLap
  have hlap : onePageDown.lap < q.lap := by
    rw [hq]
    decide
  have hposition : q.helpScroll = 65536 := by
    rw [hq]
  exact ⟨rfl, scrollsDown_downToNextLap, drawnOn_downToNextLap, hposition, hback.2 hlap⟩

/-- Scrolling down takes the first line of the screen from the eleventh line of the help back to its
first. -/
theorem help_goes_back_to_its_beginning :
    let q := onePageDown.pressAll downToNextLap
    let firstRow := fun r : Panel => (r.row? ⟨80, 11⟩ 1).map Row.text
    onePageDown.helpOpen = true ∧ q.helpOpen = true ∧ (∀ k ∈ downToNextLap, ScrollsDown k) ∧
      onePageDown.DrawnOn ⟨80, 11⟩ downToNextLap ∧ onePageDown.helpScroll ≤ q.helpScroll ∧
      onePageDown.helpOffset = 10 ∧ q.helpOffset = 0 ∧
      firstRow onePageDown = some ("║Precedence:".toList.rightpad 79 ' ' ++ ['║']) ∧
      firstRow q = some ("║keycalc - Keypad Calculator".toList.rightpad 79 ' ' ++ ['║']) := by
  intro q firstRow
  have hq : q = { onePageDown with helpScroll := 65536 } := pressAll_downToNextLap
  rw [hq]
  exact ⟨rfl, rfl, scrollsDown_downToNextLap, drawnOn_downToNextLap, by decide, by decide,
    by decide, by decide +kernel, by decide +kernel⟩

end PocketCalc.Panel
