import PocketCalc.Proofs.Session.Printable

/-!
# The history can be read off its line

The history is written on one line without escaping anything. No record of a session has the bullet
of the separator in it, and no expression or result an equals sign, since neither can be typed into
an operand or be left of a marker. So splitting the line gives the records, each of which has one
place only to be split at (`Record.IsPlain.eq_of_text`), and two sessions whose histories read the
same have the same history (`run_historyText_split`).
-/

namespace PocketCalc

/-! ## Plain records -/

/-- What stands between the expression and the result of a record. -/
def equalsSeparator : Text :=
  " = ".toList

/-- A record whose text can be told from a separator. -/
structure Record.IsPlain (r : Record) : Prop where
  expression : '=' ∉ r.expression
  result : '=' ∉ r.result
  text : '•' ∉ r.text

theorem Record.text_eq_join (r : Record) :
    r.text = Text.join equalsSeparator [r.expression, r.result] := by
  rw [Text.join_cons_cons, Text.join, List.intercalate_singleton]
  rfl

namespace Record.IsPlain

variable {r : Record}

theorem split_text (h : r.IsPlain) :
    Text.split equalsSeparator r.text = [r.expression, r.result] := by
  have hpieces : ∀ p ∈ [r.expression, r.result], '=' ∉ p := by
    simpa using ⟨h.expression, h.result⟩
  have hmark : '=' ∈ equalsSeparator := by decide
  rw [text_eq_join, Text.split_join hmark (by simp) hpieces]

/-- The text of a record has the equals sign in one place. -/
theorem eq_of_text (h : r.IsPlain) {before after : Text}
    (heq : r.text = before ++ equalsSeparator ++ after) :
    before = r.expression ∧ after = r.result := by
  have hsides : (r.expression ++ [' ']) ++ '=' :: (' ' :: r.result) =
      (before ++ [' ']) ++ '=' :: (' ' :: after) := by
    simpa [Record.text, equalsSeparator] using heq
  have hleft : '=' ∉ r.expression ++ [' '] := by simpa using h.expression
  have hright : '=' ∉ ' ' :: r.result := by simpa using h.result
  obtain ⟨hbefore, -, hafter⟩ := (List.append_cons_inj_of_notMem hleft hright).1 hsides
  exact ⟨(List.append_cancel_right hbefore).symm, (List.cons.inj hafter).2.symm⟩

end Record.IsPlain

/-! ## Lines of plain records -/

section

variable {history : List Record}

theorem split_historyText (hne : history ≠ []) (h : ∀ r ∈ history, r.IsPlain) :
    Text.split historySeparator (historyText history) = history.reverse.map Record.text := by
  have hmark : '•' ∈ historySeparator := by decide
  have hpieces : ∀ p ∈ history.reverse.map Record.text, '•' ∉ p := by
    intro p hp
    obtain ⟨r, hr, rfl⟩ := List.mem_map.1 hp
    exact (h r (List.mem_reverse.1 hr)).text
  exact Text.split_join hmark (by simpa using hne) hpieces

theorem historyText_ne_nil (hne : history ≠ []) : historyText history ≠ [] := by
  have hreverse : history.reverse ≠ [] := by simpa using hne
  exact List.ne_nil_of_mem (equals_mem_join hreverse)

theorem eq_of_map_text {others : List Record} (h : ∀ r ∈ history, r.IsPlain)
    (heq : others.map Record.text = history.map Record.text) : others = history := by
  induction history generalizing others with
  | nil => exact List.map_eq_nil_iff.1 heq
  | cons r history ih =>
    obtain ⟨r', others, rfl, htext, hrest⟩ := List.map_eq_cons_iff.1 heq
    obtain ⟨hexpression, hresult⟩ := (h r List.mem_cons_self).eq_of_text htext.symm
    have hrecord : r' = r := by
      cases r
      cases r'
      exact congrArg₂ Record.mk hexpression hresult
    rw [hrecord, ih (fun x hx => h x (List.mem_cons_of_mem r hx)) hrest]

/-- **Histories of plain records that read the same are the same.** -/
theorem historyText_inj {others : List Record} (h : ∀ r ∈ history, r.IsPlain)
    (hothers : ∀ r ∈ others, r.IsPlain) (heq : historyText others = historyText history) :
    others = history := by
  by_cases hnil : history = []
  · by_contra hne
    rw [hnil] at heq
    exact historyText_ne_nil (fun hothers => hne (hothers.trans hnil.symm)) heq
  · have hne : others ≠ [] := by
      rintro rfl
      exact historyText_ne_nil hnil heq.symm
    have htexts : others.reverse.map Record.text = history.reverse.map Record.text := by
      rw [← split_historyText hne hothers, heq, split_historyText hnil h]
    exact List.reverse_injective
      (eq_of_map_text (fun r hr => h r (List.mem_reverse.1 hr)) htexts)

end

/-! ## Sessions -/

theorem Entry.Shaped.equals_notMem {w : Text} (h : Entry.Shaped w) : '=' ∉ w := by
  have hmarkers : ∀ m ∈ Entry.markers, '=' ∉ m := by decide
  have hdigit : ¬ ('='.isDigit ∨ '=' = '.') := by decide
  have hchars : ∀ c ∈ w, '=' ≠ c :=
    h.forall_mem (fun m hm _ hc heq => hmarkers m hm (heq ▸ hc)) fun _ hc heq => hdigit (heq ▸ hc)
  exact fun hmem => hchars '=' hmem rfl

theorem Operator.equals_ne_symbol (o : Operator) : '=' ∉ [o.symbol] := by
  cases o <;> decide

namespace Session

theorem Shaped.isPlain_of_finished {s : Session} (h : Shaped s) {a : Action} {r : Record}
    (hr : s.finished? a = some r) : r.IsPlain := by
  have htext : '•' ∉ r.text := fun hmem =>
    absurd (h.isPrintable_finished hr '•' hmem) (by decide)
  obtain ⟨-, v, -, rfl⟩ := finished?_eq_some.1 hr
  refine ⟨fun hmem => ?_, (Entry.shaped_shown _).equals_notMem, htext⟩
  rcases Text.of_mem_join hmem with hspace | ⟨w, hw, hmem⟩
  · exact absurd hspace (by decide)
  · exact h.forall_mem_entries (fun _ hw => hw.equals_notMem) Operator.equals_ne_symbol w hw hmem

theorem run_isPlain (limit : Nat) (actions : List Action) :
    ∀ r ∈ ((start limit).run actions).history, r.IsPlain :=
  run_forall_history (fun h _ _ => h.isPlain_of_finished) limit actions

/-- **The history can be read off its line.** In every session the line splits at the separator into
the texts of the records, the latest first, unless there are none; the text of a record splits at
the equals sign into its expression and its result, and nowhere else; and two sessions with the same
line have the same history. -/
theorem run_historyText_split (limit : Nat) (actions : List Action) :
    let s := (start limit).run actions
    (s.history ≠ [] →
        Text.split historySeparator s.historyText = s.history.reverse.map Record.text) ∧
      (∀ r ∈ s.history, Text.split equalsSeparator r.text = [r.expression, r.result] ∧
        ∀ before after, r.text = before ++ equalsSeparator ++ after →
          before = r.expression ∧ after = r.result) ∧
      ∀ limit' actions', ((start limit').run actions').historyText = s.historyText →
        ((start limit').run actions').history = s.history := by
  intro s
  have hplain : ∀ r ∈ s.history, r.IsPlain := run_isPlain limit actions
  refine ⟨fun hne => split_historyText hne hplain, fun r hr => ?_, fun limit' actions' heq => ?_⟩
  · exact ⟨(hplain r hr).split_text, fun before after heq => (hplain r hr).eq_of_text heq⟩
  · exact historyText_inj hplain (run_isPlain limit' actions') heq

/-- Four calculations, one of them without a result, and room for two records: the first record is
gone. Another session that makes only the calculations of the two others reads the same. -/
theorem run_historyText_split_two :
    let s := (start 2).run
      [.digit '1', .equals, .operator .sub, .digit '3', .equals, .operator .div, .digit '0', .equals,
        .clearEntry, .digit '.', .digit '5', .operator .mul, .digit '2', .equals]
    let other := (start 7).run
      [.digit '1', .operator .sub, .digit '3', .equals, .clearEntry, .digit '.', .digit '5',
        .operator .mul, .digit '2', .equals]
    let r : Record := ⟨"0.5 * 2".toList, "1".toList⟩
    s.historyText = "0.5 * 2 = 1  •  1 - 3 = -2".toList ∧
      Text.split historySeparator s.historyText =
        ["0.5 * 2 = 1".toList, "1 - 3 = -2".toList] ∧
      s.history = [⟨"1 - 3".toList, "-2".toList⟩, r] ∧
      Text.split equalsSeparator r.text = [r.expression, r.result] ∧
      other.historyText = s.historyText ∧ other.history = s.history := by
  intro s other r
  have hhistory : s.history = [⟨"1 - 3".toList, "-2".toList⟩, r] := by decide +kernel
  have hother : other.historyText = s.historyText := by decide +kernel
  obtain ⟨hline, hrecords, hsame⟩ := run_historyText_split 2
    [.digit '1', .equals, .operator .sub, .digit '3', .equals, .operator .div, .digit '0', .equals,
      .clearEntry, .digit '.', .digit '5', .operator .mul, .digit '2', .equals]
  have hne : s.history ≠ [] := by simp [hhistory]
  have hr : r ∈ s.history := by simp [hhistory]
  have hsplit : Text.split historySeparator s.historyText = s.history.reverse.map Record.text :=
    hline hne
  rw [hhistory] at hsplit
  exact ⟨by decide +kernel, hsplit, hhistory, (hrecords r hr).1, hother, hsame 7 _ hother⟩

end Session

end PocketCalc
