import PocketCalc.Screen.Frame
import PocketCalc.Screen.Paragraph

/-!
# The rows of a frame

What the rows of a picture read as. A line that fits on its row is shown whole, with the rest of
the row blank (`text_lay`), and each row inside a frame shows a line of the paragraph there between
the sides of the frame (`text_frame_left`, `text_frame_right`).
-/

namespace PocketCalc.Screen

/-! ## Lines -/

theorem text_append (r s : Row) : Row.text (r ++ s) = r.text ++ s.text :=
  List.map_append

theorem text_blank (look : Look) (n : Nat) : (Row.blank look n).text = List.replicate n ' ' :=
  List.map_replicate

theorem text_styled (ground : Look) (line : List StyledChar) :
    Row.text (line.map fun (c, style) => (⟨c, style.apply ground⟩ : Cell)) = line.map Prod.fst := by
  simp [Row.text]

theorem Line.text_chars (l : Line) : l.chars.map Prod.fst = l.flatMap Span.text := by
  simp only [Line.chars, Span.chars, List.map_flatMap, List.map_map]
  exact congrArg l.flatMap (funext fun s => List.map_id s.text)

/-- A line that fits is shown whole, blank in front of it and behind it. -/
theorem text_lay (ground : Look) {columns : Nat} (a : Alignment) {l : Line} {t : Text}
    (ht : l.flatMap Span.text = t) (h : t.length ≤ columns) :
    (lay ground columns a l.chars).text =
      List.replicate (a.offset columns t.length) ' ' ++ t ++
        List.replicate (columns - a.offset columns t.length - t.length) ' ' := by
  have hchars : l.chars.map Prod.fst = t := l.text_chars.trans ht
  have hlength : l.chars.length = t.length := by rw [← hchars, List.length_map]
  have htake : l.chars.take columns = l.chars := List.take_of_length_le (by omega)
  simp only [lay, htake, text_append, text_blank, text_styled, List.length_map, hchars, hlength]

/-- Of a line that does not fit the beginning is shown, wherever it is written. -/
theorem text_lay_of_le (ground : Look) {columns : Nat} (a : Alignment) {l : Line} {t : Text}
    (ht : l.flatMap Span.text = t) (h : columns ≤ t.length) :
    (lay ground columns a l.chars).text = t.take columns := by
  have hchars : l.chars.map Prod.fst = t := l.text_chars.trans ht
  have hlength : (l.chars.take columns).length = columns := by
    rw [List.length_take, Nat.min_eq_left]
    rwa [← l.chars.length_map, hchars]
  have hoffset : a.offset columns columns = 0 := by
    cases a <;> simp [Alignment.offset]
  simp only [lay, List.length_map, hlength, hoffset, text_append, text_blank, text_styled]
  simp [List.map_take, hchars]

theorem lay_nil (ground : Look) (columns : Nat) (a : Alignment) :
    lay ground columns a [] = Row.blank ground columns := by
  have hoffset : a.offset columns 0 ≤ columns := by
    cases a <;> simp only [Alignment.offset] <;> omega
  simp [lay, Row.blank, hoffset]

/-- The rows of a paragraph show its lines in order; after the last line they are blank. -/
theorem getElem?_paragraph_getD (ground : Look) (columns : Nat) {rows i : Nat} (a : Alignment)
    (lines : List (List StyledChar)) (hi : i < rows) :
    (paragraph ground columns rows a lines)[i]? =
      some (lay ground columns a (lines[i]?.getD [])) := by
  have hlength : ((lines.take rows).map (lay ground columns a)).length = min rows lines.length := by
    rw [List.length_map, List.length_take]
  by_cases hlast : i < lines.length
  · rw [paragraph, List.getElem?_append_left (by omega), List.getElem?_map,
      List.getElem?_take_of_lt hi, List.getElem?_eq_getElem hlast, Option.map_some,
      Option.getD_some]
  · rw [paragraph, List.getElem?_append_right (by omega),
      List.getElem?_replicate_of_lt (by omega), List.getElem?_eq_none (Nat.not_lt.1 hlast),
      Option.getD_none, lay_nil]

/-- The rows of a paragraph show its lines in order, as far as they go. -/
theorem getElem?_paragraph (ground : Look) (columns : Nat) {rows i : Nat} (a : Alignment)
    {lines : List Line} {l : Line} (hi : i < rows) (hl : lines[i]? = some l) :
    (paragraph ground columns rows a (lines.map Line.chars))[i]? =
      some (lay ground columns a l.chars) := by
  rw [getElem?_paragraph_getD ground columns a _ hi, List.getElem?_map, hl, Option.map_some,
    Option.getD_some]

/-! ## Frames -/

/-- A frame of two rows or more has an upper edge, the rows inside, and a lower edge. -/
theorem frame_eq (b : Border) (look : Look) (title : Text) (columns : Nat) {rows : Nat}
    (hrows : 2 ≤ rows) (inside : List Row) :
    ∃ top bottom, frame b look title columns rows inside =
      top :: (inside.map (side b look columns) ++ [bottom]) := by
  obtain ⟨n, rfl⟩ := Nat.exists_eq_add_of_le' hrows
  exact ⟨_, _, rfl⟩

theorem length_frame (b : Border) (look : Look) (title : Text) (columns : Nat) {rows : Nat}
    (hrows : 2 ≤ rows) {inside : List Row} (hinside : inside.length = rows - 2) :
    (frame b look title columns rows inside).length = rows := by
  obtain ⟨top, bottom, hframe⟩ := frame_eq b look title columns hrows inside
  simp only [hframe, List.length_cons, List.length_append, List.length_map, List.length_nil]
  omega

theorem getElem?_frame (b : Border) (look : Look) (title : Text) (columns : Nat) {rows i : Nat}
    (hrows : 2 ≤ rows) {inside : List Row} {r : Row} (hr : inside[i]? = some r) :
    (frame b look title columns rows inside)[i + 1]? = some (side b look columns r) := by
  obtain ⟨top, bottom, hframe⟩ := frame_eq b look title columns hrows inside
  have hside : (inside.map (side b look columns))[i]? = some (side b look columns r) := by
    rw [List.getElem?_map, hr, Option.map_some]
  obtain ⟨hlt, -⟩ := List.getElem?_eq_some_iff.1 hside
  rw [hframe, List.getElem?_cons_succ, List.getElem?_append_left hlt, hside]

theorem text_side (b : Border) (look : Look) {columns : Nat} (hcolumns : 2 ≤ columns)
    (inside : Row) :
    (side b look columns inside).text = b.vertical :: inside.text ++ [b.vertical] := by
  obtain ⟨n, rfl⟩ := Nat.exists_eq_add_of_le' hcolumns
  simp [side, Row.text]

section

variable (b : Border) (look ground : Look) (title : Text) {columns rows i : Nat}
  {lines : List Line} {l : Line} {t : Text}

/-- A row inside a frame reads as the row of the paragraph there, between the sides. -/
theorem text_frame_paragraph (a : Alignment) (hcolumns : 2 ≤ columns) (hi : i < rows - 2)
    (hl : lines[i]? = some l) :
    ((frame b look title columns rows
        (paragraph ground (columns - 2) (rows - 2) a
          (lines.map Line.chars)))[i + 1]?).map Row.text =
      some (b.vertical :: (lay ground (columns - 2) a l.chars).text ++ [b.vertical]) := by
  rw [getElem?_frame b look title columns (by omega) (getElem?_paragraph ground _ a hi hl),
    Option.map_some, text_side b look hcolumns]

/-- **A line at the left of a frame** that fits inside is shown whole, blanks behind it. -/
theorem text_frame_left (hcolumns : 2 ≤ columns) (hi : i < rows - 2) (hl : lines[i]? = some l)
    (ht : l.flatMap Span.text = t) (hfits : t.length ≤ columns - 2) :
    ((frame b look title columns rows
        (paragraph ground (columns - 2) (rows - 2) .left
          (lines.map Line.chars)))[i + 1]?).map Row.text =
      some (b.vertical :: t.rightpad (columns - 2) ' ' ++ [b.vertical]) := by
  rw [text_frame_paragraph b look ground title .left hcolumns hi hl, text_lay ground .left ht hfits]
  simp [Alignment.offset, List.rightpad]

/-- **A line at the right of a frame** that fits inside is shown whole, blanks in front of it. -/
theorem text_frame_right (hcolumns : 2 ≤ columns) (hi : i < rows - 2) (hl : lines[i]? = some l)
    (ht : l.flatMap Span.text = t) (hfits : t.length ≤ columns - 2) :
    ((frame b look title columns rows
        (paragraph ground (columns - 2) (rows - 2) .right
          (lines.map Line.chars)))[i + 1]?).map Row.text =
      some (b.vertical :: t.leftpad (columns - 2) ' ' ++ [b.vertical]) := by
  have hrest : columns - 2 - (columns - 2 - t.length) - t.length = 0 := by omega
  rw [text_frame_paragraph b look ground title .right hcolumns hi hl,
    text_lay ground .right ht hfits]
  simp [Alignment.offset, List.leftpad, hrest]

end

end PocketCalc.Screen
