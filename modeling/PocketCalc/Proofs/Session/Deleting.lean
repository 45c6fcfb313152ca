import PocketCalc.Proofs.Session.EntryShape

/-!
# Deleting what was typed

Typing can put a character behind the entry, in the place of a lone `0`, or nowhere; deleting takes
the last character away or puts a `0` in the place of the only one. Still, deleting undoes typing,
one character at a time (`Entry.backspace_append`), as long as no character is refused: a refused
one leaves nothing to delete. So a text that was typed can be deleted again from the back
(`run_deletes_typed`), whatever was on the display before it.
-/

namespace PocketCalc

namespace Entry

/-- A character that typing does not refuse: a digit, or a first point. -/
def Takes (entry : Text) (c : Char) : Prop :=
  c.isDigit ∨ c = '.' ∧ '.' ∉ entry

instance (entry : Text) (c : Char) : Decidable (Takes entry c) :=
  inferInstanceAs (Decidable (_ ∨ _))

def TakesAll (entry : Text) : Text → Prop
  | [] => True
  | c :: rest => Takes entry c ∧ TakesAll (append entry c) rest

instance TakesAll.decidable : ∀ (entry t : Text), Decidable (TakesAll entry t)
  | _, [] => isTrue trivial
  | entry, c :: rest =>
    have := TakesAll.decidable (append entry c) rest
    inferInstanceAs (Decidable (_ ∧ _))

/-- A character that is taken stands behind the entry, or in the place of a lone `0`. -/
theorem Takes.append_cases {entry : Text} {c : Char} (h : Takes entry c) :
    append entry c = entry ++ [c] ∨ entry = start ∧ append entry c = [c] := by
  rcases h with hdigit | hpoint
  · by_cases hstart : entry = start
    · exact .inr ⟨hstart, by rw [append, if_pos hdigit, if_pos hstart]⟩
    · exact .inl (by rw [append, if_pos hdigit, if_neg hstart])
  · have hdigit : ¬ c.isDigit := by
      rw [hpoint.1]
      decide
    exact .inl (by rw [append, if_neg hdigit, if_pos hpoint])

/-- **Deleting undoes typing**, one character at a time. -/
theorem backspace_append {entry : Text} (hne : entry ≠ []) {c : Char} (h : Takes entry c) :
    backspace (append entry c) = entry := by
  rcases h.append_cases with happend | ⟨rfl, happend⟩ <;> rw [happend]
  · have hlength : 0 < entry.length := List.length_pos_iff.2 hne
    have hlong : ¬ (entry ++ [c]).length ≤ 1 := by
      rw [List.length_append, List.length_singleton]
      omega
    rw [backspace, if_neg hlong, List.dropLast_concat]
  · rfl

end Entry

namespace Session

variable {s : Session} {t : Text}

theorem press_backspace_type (hne : s.entry ≠ []) {c : Char} (h : Entry.Takes s.entry c) :
    (s.type c).press .backspace = s := by
  change { s with entry := Entry.backspace (Entry.append s.entry c) } = s
  rw [Entry.backspace_append hne h]

/-- The last character typed is the first one deleted. -/
theorem run_backspaces (hne : s.entry ≠ []) (h : Entry.TakesAll s.entry t) :
    (s.run (t.map .digit)).run (List.replicate t.length .backspace) = s := by
  induction t generalizing s with
  | nil => rfl
  | cons c rest ih =>
    have hrest : ((s.type c).run (rest.map .digit)).run (List.replicate rest.length .backspace) =
        s.type c := ih (Entry.append_ne_nil hne c) h.2
    change ((s.type c).run (rest.map .digit)).run (List.replicate (rest.length + 1) .backspace) = s
    rw [List.replicate_succ', run_concat, hrest, press_backspace_type hne h.1]

/-- **A text that was typed can be deleted again.** In every session, after a text of which no
character is refused, as many deletions as it has characters leave the session as it was. -/
theorem run_deletes_typed (limit : Nat) (actions : List Action) (t : Text) :
    let s := (start limit).run actions
    Entry.TakesAll s.entry t →
      (s.run (t.map .digit)).run (List.replicate t.length .backspace) = s := by
  intro s h
  exact run_backspaces (run_shaped limit actions).entry.ne_nil h

/-- Typing goes on behind the marker of a fault, and on a `0` it begins anew: zeros there are taken
and leave no trace. -/
theorem run_deletes_typed_after_fault :
    let failed := (start 5).run [.digit '1', .operator .div, .digit '0', .equals]
    let cleared := failed.run [.clearEntry]
    failed.entry = "Error (div by 0)".toList ∧
      (failed.run ("70.5".toList.map .digit)).entry = "Error (div by 0)70.5".toList ∧
      (failed.run ("70.5".toList.map .digit)).run (List.replicate 4 .backspace) = failed ∧
      (cleared.run ("0070".toList.map .digit)).entry = "70".toList ∧
      (cleared.run ("0070".toList.map .digit)).run (List.replicate 4 .backspace) = cleared := by
  intro failed cleared
  have hfailed := run_deletes_typed 5 [.digit '1', .operator .div, .digit '0', .equals]
    "70.5".toList (by decide +kernel)
  have hcleared := run_deletes_typed 5
    [.digit '1', .operator .div, .digit '0', .equals, .clearEntry] "0070".toList
    (by decide +kernel)
  exact ⟨by decide +kernel, by decide +kernel, hfailed, by decide +kernel, hcleared⟩

end Session

end PocketCalc
