import PocketCalc.Proofs.Panel.Highlight
import PocketCalc.Proofs.Panel.Picture
import PocketCalc.Proofs.Screen.Rows
import PocketCalc.Proofs.Session.Printable

/-!
# The main screen keeps the latest characters

Texts are clipped to the room that a frame leaves for them, so that the frame cuts nothing more off.
Both texts of the display end next to its right side (`text_displayRows`), and a record stands
whole, or with its end, behind its mark (`text_historyRows`). `getElem?_mainScreen_display` and
`getElem?_mainScreen_middle` say where these rows are on the screen, and the steps beside the
history do not move it (`text_mainScreen_history`). `picture_keeps_latest` is the whole.
-/

namespace PocketCalc.Panel

open Screen

/-! ## The display -/

def displayTexts (s : Session) : List Text :=
  [s.pendingText, s.entry]

theorem text_displayLines (s : Session) (columns : Nat) :
    (displayLines s columns).map (fun l => l.flatMap Span.text) =
      (displayTexts s).map (Text.clip (columns - 1)) := by
  simp [displayLines, displayTexts, text_highlight, plainLine]

/-- **A text on the display** ends next to the right side, after as many of its last characters as
there is room for. -/
theorem text_displayRows {s : Session} {columns i : Nat} {t : Text} (hcolumns : 4 ≤ columns)
    (hi : (displayTexts s)[i]? = some t) (ht : Text.IsPrintable t) :
    ((displayRows s columns)[i + 1]?).map Row.text =
      some ('│' :: (Text.abridged (columns - 3) t).leftpad (columns - 2) ' ' ++ ['│']) := by
  have htwo : i < 2 := (List.getElem?_eq_some_iff.1 hi).1
  have hclip : Text.clip (columns - 2 - 1) t = Text.abridged (columns - 3) t :=
    ht.clip_eq_abridged (by omega)
  obtain ⟨l, hl, htext⟩ : ∃ l, (displayLines s (columns - 2))[i]? = some l ∧
      l.flatMap Span.text = Text.abridged (columns - 3) t := by
    have hline := congrArg (·[i]?) (text_displayLines s (columns - 2))
    simp only [List.getElem?_map, hi, Option.map_some, hclip, Option.map_eq_some_iff] at hline
    exact hline
  have hlength : (Text.abridged (columns - 3) t).length ≤ columns - 3 :=
    Text.length_abridged_le (by omega) t
  exact text_frame_right .single frameLook {} _ (by omega) htwo hl htext (by omega)

/-! ## The history -/

theorem text_recordLine (columns : Nat) (r : Record) (position : Nat) :
    (recordLine columns r position).flatMap Span.text =
      (recordMark position).text ++ Text.clip (columns - 2) r.text := by
  rw [recordLine, List.flatMap_cons, text_highlight]

theorem length_recordMark (position : Nat) : (recordMark position).text.length = 2 := by
  unfold recordMark
  split <;> rfl

theorem length_shown_le {columns : Nat} (hcolumns : 5 ≤ columns) (r : Record) (position : Nat) :
    ((recordMark position).text ++ Text.abridged (columns - 4) r.text).length ≤ columns - 2 := by
  have habridged : (Text.abridged (columns - 4) r.text).length ≤ columns - 4 :=
    Text.length_abridged_le (by omega) r.text
  rw [List.length_append, length_recordMark]
  omega

/-- **A record in the history** stands behind its mark, with as many of its last characters as there
is room for. -/
theorem text_historyRows {s : Session} {columns rows i : Nat} {r : Record} (hcolumns : 5 ≤ columns)
    (hi : i < rows - 2) (hr : s.history.reverse[i]? = some r) (ht : Text.IsPrintable r.text) :
    ((historyRows s columns rows)[i + 1]?).map Row.text =
      some ('│' :: ((recordMark i).text ++ Text.abridged (columns - 4) r.text).rightpad
        (columns - 2) ' ' ++ ['│']) := by
  have hne : s.history.isEmpty = false := by
    cases hhistory : s.history with
    | nil => simp [hhistory] at hr
    | cons => rfl
  have hclip : Text.clip (columns - 2 - 2) r.text = Text.abridged (columns - 4) r.text :=
    ht.clip_eq_abridged (by omega)
  have htext := text_recordLine (columns - 2) r i
  rw [hclip] at htext
  have hline : (s.history.reverse.zipIdx.map fun q => recordLine (columns - 2) q.1 q.2)[i]? =
      some (recordLine (columns - 2) r i) := by
    rw [List.getElem?_map, List.getElem?_zipIdx, hr]
    simp
  rw [historyRows, historyInside, hne]
  exact text_frame_left .single frameLook {} _ (by omega) hi hline htext
    (length_shown_le hcolumns r i)

/-! ## The screen -/

theorem length_displayRows (s : Session) (columns : Nat) : (displayRows s columns).length = 4 :=
  length_frame _ _ _ _ (by decide) (length_paragraph ..)

theorem length_historyRows (s : Session) (columns : Nat) {rows : Nat} (h : 2 ≤ rows) :
    (historyRows s columns rows).length = rows := by
  refine length_frame _ _ _ _ h ?_
  unfold historyInside
  split <;> exact length_paragraph ..

theorem length_stepRows (s : Session) (columns : Nat) {rows : Nat} (h : 2 ≤ rows) :
    (stepRows s columns rows).length = rows :=
  length_frame _ _ _ _ h (length_paragraph ..)

/-- The columns of the history, with or without the steps beside it. -/
def boxColumns (p : Panel) (size : Size) : Nat :=
  if p.detailsOpen then historyColumns size.columns else size.columns

/-- The rows between the display and the hints: the history, with or without the steps beside it. -/
def middleRows (p : Panel) (size : Size) : List Row :=
  let history := historyRows p.session (p.boxColumns size) (size.rows - 6)
  if p.detailsOpen then
    List.zipWith (· ++ ·) history
      (stepRows p.session (size.columns - historyColumns size.columns) (size.rows - 6))
  else
    history

theorem mainScreen_eq (p : Panel) (size : Size) :
    p.mainScreen size = memoryRow p.session size.columns ::
      (displayRows p.session size.columns ++ (p.middleRows size ++ [hintRow size.columns])) := by
  by_cases hdetails : p.detailsOpen = true <;>
    simp [mainScreen, middleRows, boxColumns, hdetails]

/-- A row of the history is at the left of its row. -/
theorem getElem?_middleRows (p : Panel) {size : Size} (hrows : 8 ≤ size.rows) {j : Nat} {r : Row}
    (hr : (historyRows p.session (p.boxColumns size) (size.rows - 6))[j]? = some r) :
    ∃ beside, (p.middleRows size)[j]? = some (r ++ beside) := by
  rw [middleRows]
  split
  · have hj := (List.getElem?_eq_some_iff.1 hr).1
    rw [length_historyRows _ _ (by omega)] at hj
    obtain ⟨beside, hbeside⟩ : ∃ beside, (stepRows p.session
        (size.columns - historyColumns size.columns) (size.rows - 6))[j]? = some beside := by
      refine ⟨_, List.getElem?_eq_getElem ?_⟩
      rw [length_stepRows _ _ (by omega)]
      exact hj
    exact ⟨beside, List.getElem?_zipWith_eq_some.2 ⟨r, beside, hr, hbeside, rfl⟩⟩
  · exact ⟨[], by rw [List.append_nil, hr]⟩

theorem getElem?_mainScreen_display (p : Panel) (size : Size) {j : Nat} (hj : j < 4) :
    (p.mainScreen size)[j + 1]? = (displayRows p.session size.columns)[j]? := by
  rw [mainScreen_eq, List.getElem?_cons_succ, List.getElem?_append_left]
  rw [length_displayRows]
  exact hj

theorem getElem?_mainScreen_middle (p : Panel) (size : Size) {j : Nat} {r : Row}
    (hr : (p.middleRows size)[j]? = some r) : (p.mainScreen size)[j + 5]? = some r := by
  have hj := (List.getElem?_eq_some_iff.1 hr).1
  have hindex : j + 4 - (displayRows p.session size.columns).length = j := by
    rw [length_displayRows]
    omega
  rw [mainScreen_eq, List.getElem?_cons_succ, List.getElem?_append_right, hindex,
    List.getElem?_append_left hj, hr]
  rw [length_displayRows]
  omega

/-- **A record on the main screen**, in the columns of the history. -/
theorem text_mainScreen_history {p : Panel} {size : Size} (hcolumns : 5 ≤ p.boxColumns size)
    {i : Nat} (hi : i < size.rows - 8) {r : Record} (hr : p.session.history.reverse[i]? = some r)
    (ht : Text.IsPrintable r.text) :
    let shown := (recordMark i).text ++ Text.abridged (p.boxColumns size - 4) r.text
    ((p.mainScreen size)[i + 6]?).map (fun row => row.text.take (p.boxColumns size)) =
      some ('│' :: shown.rightpad (p.boxColumns size - 2) ' ' ++ ['│']) := by
  intro shown
  have hlength : (shown.rightpad (p.boxColumns size - 2) ' ').length = p.boxColumns size - 2 := by
    rw [List.length_rightpad, Nat.max_eq_left (length_shown_le hcolumns r i)]
  have hshown : _ = some ('│' :: shown.rightpad (p.boxColumns size - 2) ' ' ++ ['│']) :=
    text_historyRows hcolumns (show i < size.rows - 6 - 2 by omega) hr ht
  obtain ⟨row, hrow, htext⟩ := Option.map_eq_some_iff.1 hshown
  obtain ⟨beside, hbeside⟩ := p.getElem?_middleRows (by omega) hrow
  have hbox : row.text.length = p.boxColumns size := by
    rw [htext]
    simp only [List.length_cons, List.length_append, hlength, List.length_nil]
    omega
  rw [p.getElem?_mainScreen_middle size hbeside, Option.map_some, text_append,
    List.take_left' hbox, htext]

/-- On a size that it fits on, the main screen is what is drawn while the help is closed. -/
theorem picture_eq_mainScreen {p : Panel} {size : Size} (hopen : p.helpOpen = false)
    (hcolumns : 40 ≤ size.columns) (hrows : 12 ≤ size.rows) :
    p.picture size = some (p.mainScreen size) := by
  have hfits : size.tooSmall = false := by
    change (decide (size.columns < 40) || decide (size.rows < 12)) = false
    simp [hcolumns, hrows]
  simp [picture, hopen, hfits]

theorem row?_eq_mainScreen {p : Panel} {size : Size} (hopen : p.helpOpen = false)
    (hcolumns : 40 ≤ size.columns) (hrows : 12 ≤ size.rows) (i : Nat) :
    p.row? size i = (p.mainScreen size)[i]? := by
  rw [row?, picture_eq_mainScreen hopen hcolumns hrows, Option.bind_some]

/-- **The latest characters are never lost.** On every size that the main screen fits on, the
pending expression and the entry are on rows 2 and 3, ending in the last column inside the frame:
whole if one column is left free in front of them, else the mark and the end. The history has the
width of the screen, or three fifths of it beside the steps, and from row 6 on it shows the records,
the latest first: behind `> ` or two blanks, whole if there is room, else the mark and the end. -/
theorem picture_keeps_latest {limit : Nat} {actions : List Action} {p : Panel} {size : Size}
    (hsession : p.session = (Session.start limit).run actions) (hopen : p.helpOpen = false)
    (hcolumns : 40 ≤ size.columns) (hrows : 12 ≤ size.rows) :
    let W := size.columns
    let H := size.rows
    let B := if p.detailsOpen then historyColumns W else W
    let row := fun i => (p.row? size i).map Row.text
    let pending := Text.abridged (W - 3) p.session.pendingText
    let entry := Text.abridged (W - 3) p.session.entry
    (pending.length ≤ W - 3 ∧ row 2 = some ('│' :: pending.leftpad (W - 2) ' ' ++ ['│'])) ∧
      (entry.length ≤ W - 3 ∧ row 3 = some ('│' :: entry.leftpad (W - 2) ' ' ++ ['│'])) ∧
      (10 * historyColumns W ≤ 6 * W + 5 ∧ 6 * W < 10 * historyColumns W + 5) ∧
      ∀ i r, i < H - 8 → p.session.history.reverse[i]? = some r →
        let shown := (if i = 0 then ['>', ' '] else [' ', ' ']) ++ Text.abridged (B - 4) r.text
        shown.length ≤ B - 2 ∧
          (row (6 + i)).map (List.take B) = some ('│' :: shown.rightpad (B - 2) ' ' ++ ['│']) := by
  intro W H B row pending entry
  have hprintable : p.session.Printable := by
    rw [hsession]
    exact Session.run_printable limit actions
  have hrow : ∀ j, row j = ((p.mainScreen size)[j]?).map Row.text :=
    fun j => congrArg (Option.map Row.text) (row?_eq_mainScreen hopen hcolumns hrows j)
  have hdisplay : ∀ i t, (displayTexts p.session)[i]? = some t → Text.IsPrintable t →
      (Text.abridged (W - 3) t).length ≤ W - 3 ∧ row (i + 2) =
        some ('│' :: (Text.abridged (W - 3) t).leftpad (W - 2) ' ' ++ ['│']) := by
    intro i t hi ht
    have htwo : i < 2 := (List.getElem?_eq_some_iff.1 hi).1
    refine ⟨Text.length_abridged_le (by omega) t, ?_⟩
    rw [hrow, getElem?_mainScreen_display p size (by omega)]
    exact text_displayRows (by omega) hi ht
  have hbox : 10 * historyColumns W ≤ 6 * W + 5 ∧ 6 * W < 10 * historyColumns W + 5 := by
    unfold historyColumns
    omega
  refine ⟨hdisplay 0 _ rfl ?_, hdisplay 1 _ rfl ?_, hbox, ?_⟩
  · exact Text.isPrintable_unwords hprintable.shaped.isPrintable_pendingEntries
  · exact hprintable.shaped.entry.isPrintable
  · intro i r hi hr shown
    -- Even three fifths of 40 columns have room for a frame and a mark.
    have hwide : 5 ≤ B := by
      change 5 ≤ if p.detailsOpen then historyColumns W else W
      split <;> omega
    have hmark : shown = (recordMark i).text ++ Text.abridged (B - 4) r.text := by
      simp only [shown, recordMark]
    have hrecord := text_mainScreen_history (p := p) hwide hi hr
      (hprintable.records r (List.mem_reverse.1 (List.mem_of_getElem? hr)))
    rw [Nat.add_comm 6 i, hrow, Option.map_map, hmark]
    exact ⟨length_shown_le hwide r i, hrecord⟩

/-- On the smallest screen, beside the steps: the pending expression is whole, the entry and the
record have lost their beginnings. -/
theorem picture_keeps_latest_beside_steps :
    let keys := "1+1+1+1+1+1=+1111111111222222222233333333334444444444".toList
    let p : Panel :=
      { Panel.start 3 with session := (Session.start 3).typeText keys, detailsOpen := true }
    let row := fun i => (p.row? ⟨40, 12⟩ i).map Row.text
    p.session = (Session.start 3).run (keys.filterMap Action.ofChar?) ∧ p.helpOpen = false ∧
      row 2 = some "│                                   6 +│".toList ∧
      row 3 = some "│ <111111222222222233333333334444444444│".toList ∧
      (row 6).map (List.take 24) = some "│> <+ 1 + 1 + 1 + 1 = 6│".toList := by
  intro keys p row
  obtain ⟨⟨-, hpending⟩, ⟨-, hentry⟩, -, hrecords⟩ :=
    @picture_keeps_latest 3 (keys.filterMap Action.ofChar?) p ⟨40, 12⟩ rfl rfl (by decide)
      (by decide)
  have hrecord := (hrecords 0
    ⟨"1 + 1 + 1 + 1 + 1 + 1".toList, ['6']⟩ (by decide) (by decide +kernel)).2
  exact ⟨rfl, rfl, hpending.trans (by decide +kernel), hentry.trans (by decide +kernel),
    hrecord.trans (by decide +kernel)⟩

end PocketCalc.Panel
