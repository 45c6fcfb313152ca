import PocketCalc.Proofs.Decimal.Beginnings
import PocketCalc.Proofs.Panel.MainScreen
import PocketCalc.Proofs.Panel.Presses

/-!
# The memory on the main screen

The text of the memory is not clipped to its row: a text that is wider than the screen is cut at the
right edge, without a mark (`memoryRow_of_lt`). What is left of the number then reads as another
one, so that the row shows the memory exactly when the whole text fits.
-/

namespace PocketCalc

/-- Numbers are shown without the mark of a clipped text. -/
theorem Binary64.cutMark_notMem_shown (x : Binary64) : Text.cutMark ∉ x.shown := by
  cases x with
  | nan => decide
  | infinite s => cases s <;> decide
  | finite s m =>
    obtain ⟨t, htext, ht⟩ := text_finite s m
    have hdigits := mem_positional ht
    rw [Binary64.shown, htext]
    split
    · decide
    · intro hmem
      rcases List.mem_append.1 hmem with hsign | hmem
      · cases s <;> revert hsign <;> decide
      · exact absurd (hdigits _ hmem) (by decide)

namespace Panel

open Screen

/-! ## The row -/

section

variable {s : Session} {columns : Nat}

theorem text_memoryLine (s : Session) :
    (plainLine s.memoryText .plain).flatMap Span.text = s.memoryText := by
  simp [plainLine]

/-- A text of the memory that fits is shown whole, at the right edge. -/
theorem text_memoryRow (h : s.memoryText.length ≤ columns) :
    (memoryRow s columns).text = s.memoryText.leftpad columns ' ' := by
  have hrest : columns - (columns - s.memoryText.length) - s.memoryText.length = 0 := by omega
  rw [memoryRow, text_lay _ .right (text_memoryLine s) h]
  simp [Alignment.offset, List.leftpad, hrest]

/-- Of a text of the memory that does not fit the beginning is shown: the label and the first
characters of the number. -/
theorem text_memoryRow_of_lt (hcolumns : 3 ≤ columns) (h : columns < s.memoryText.length) :
    (memoryRow s columns).text = "M: ".toList ++ s.memory.shown.take (columns - 3) := by
  have hlabel : "M: ".toList.length = 3 := rfl
  rw [memoryRow, text_lay_of_le _ .right (text_memoryLine s) h.le, Session.memoryText,
    List.take_append, hlabel, List.take_of_length_le (hlabel.trans_le hcolumns)]

end

/-! ## The screen -/

section

variable {p : Panel} {size : Size}

theorem text_row?_memory (hopen : p.helpOpen = false) (hcolumns : 40 ≤ size.columns)
    (hrows : 12 ≤ size.rows) :
    (p.row? size 0).map Row.text = some (memoryRow p.session size.columns).text := by
  rw [row?_eq_mainScreen hopen hcolumns hrows, mainScreen_eq]
  rfl

/-- A memory that does not fit loses its end, and nothing marks the loss. -/
theorem memoryRow_of_lt (hcolumns : 40 ≤ size.columns)
    (h : size.columns < p.session.memoryText.length) :
    ∃ cut, (memoryRow p.session size.columns).text = "M: ".toList ++ cut ∧
      cut <+: p.session.memory.shown ∧ cut ≠ p.session.memory.shown ∧
      Text.cutMark ∉ "M: ".toList ++ cut := by
  have hlength : p.session.memoryText.length = 3 + p.session.memory.shown.length :=
    List.length_append
  have hpart : p.session.memory.shown.take (size.columns - 3) <+: p.session.memory.shown :=
    List.take_prefix _ _
  refine ⟨_, text_memoryRow_of_lt (by omega) h, hpart, ?_, ?_⟩
  · intro heq
    have := congrArg List.length heq
    rw [List.length_take] at this
    omega
  · intro hmark
    rcases List.mem_append.1 hmark with hlabel | hnumber
    · exact absurd hlabel (by decide)
    · exact p.session.memory.cutMark_notMem_shown (hpart.subset hnumber)

/-- **The memory on the main screen.** While the help is closed, the topmost row shows the memory
whole, at the right edge, if its text is no wider than the screen, and what is shown reads as the
memory. If the text is wider, its beginning fills the row, without the mark of a clipped text, and
what is left of the number reads as another one. So the row shows all of the memory, or a marked end
of it, exactly when the text fits. -/
theorem memory_shown_iff_fits (hopen : p.helpOpen = false) (hcolumns : 40 ≤ size.columns)
    (hrows : 12 ≤ size.rows) :
    let W := size.columns
    let memory := p.session.memory
    let text := p.session.memoryText
    let row := (p.row? size 0).map Row.text
    (text.length ≤ W → row = some (("M: ".toList ++ memory.shown).leftpad W ' ') ∧
        (memory ≠ .nan → Binary64.SameValue (Binary64.ofText memory.shown) memory)) ∧
      (W < text.length → ∃ cut, row = some ("M: ".toList ++ cut) ∧ cut <+: memory.shown ∧
        Text.cutMark ∉ "M: ".toList ++ cut ∧
        ¬ Binary64.SameValue (Binary64.ofText cut) memory) ∧
      (row = some (text.leftpad W ' ') ∨
          (∃ before tail, row = some (before ++ Text.cutMark :: tail)) ↔
        text.length ≤ W) := by
  intro W memory text row
  have hrow : row = some (memoryRow p.session W).text := text_row?_memory hopen hcolumns hrows
  have hwhole : text.length ≤ W → row = some (text.leftpad W ' ') := by
    intro h
    rw [hrow, text_memoryRow h]
  refine ⟨fun h => ⟨hwhole h, Binary64.sameValue_ofText_shown⟩, fun h => ?_, ?_,
    fun h => .inl (hwhole h)⟩
  · obtain ⟨cut, hcut, hpart, hne, hmark⟩ := memoryRow_of_lt hcolumns h
    rw [hrow, hcut]
    exact ⟨cut, rfl, hpart, hmark, Binary64.not_sameValue_beginning hpart hne⟩
  · intro hclaim
    by_contra hwide
    obtain ⟨cut, hcut, -, hne, hmark⟩ := memoryRow_of_lt hcolumns (Nat.lt_of_not_le hwide)
    rw [hcut] at hrow
    -- The row has no room for the whole text, and what it shows has no mark.
    rcases hclaim with hall | ⟨before, tail, htail⟩
    · have hpad : text.leftpad W ' ' = "M: ".toList ++ memory.shown := by
        rw [List.leftpad, Nat.sub_eq_zero_of_le (by omega)]
        rfl
      rw [hrow, hpad, Option.some_inj] at hall
      exact hne (List.append_cancel_left hall)
    · rw [hrow, Option.some_inj] at htail
      rw [htail] at hmark
      simp at hmark

end

/-- The keys that put `10 ^ 45` into the memory and clear the entry. -/
def bigMemoryKeys : List Key :=
  ('1' :: List.replicate 45 '0').map (fun c => { code := .char c }) ++
    [{ code := .function 7 }, { code := .delete }]

/-- On a wide screen the memory `10 ^ 45` is whole. -/
theorem memory_shown_on_wide_screen :
    let p := (start 5).pressAll bigMemoryKeys
    p.helpOpen = false ∧ (p.row? ⟨60, 12⟩ 0).map Row.text =
      some (("M: 1".toList ++ List.replicate 45 '0').leftpad 60 ' ') := by
  intro p
  have hopen : p.helpOpen = false := by decide +kernel
  have htext : p.session.memory.shown = '1' :: List.replicate 45 '0' := by decide +kernel
  have hfits : p.session.memoryText.length ≤ 60 := by
    rw [Session.memoryText, htext]
    decide
  obtain ⟨hwhole, -, -⟩ :=
    @memory_shown_iff_fits p ⟨60, 12⟩ hopen (by decide) (by decide)
  have hrow := (hwhole hfits).1
  rw [htext] at hrow
  exact ⟨hopen, hrow⟩

/-- On the smallest screen the memory `10 ^ 45` is shown as `10 ^ 36`. -/
theorem memory_cut_on_small_screen :
    let p := (start 5).pressAll bigMemoryKeys
    let row := "M: 1".toList ++ List.replicate 36 '0'
    p.helpOpen = false ∧ p.session.memory.shown = '1' :: List.replicate 45 '0' ∧
      (p.row? ⟨40, 12⟩ 0).map Row.text = some row ∧
      row ≠ p.session.memoryText.leftpad 40 ' ' ∧ Text.cutMark ∉ row ∧
      Binary64.ofText ('1' :: List.replicate 36 '0') ≠ p.session.memory := by
  decide +kernel

end Panel

end PocketCalc
