import PocketCalc.Proofs.Session.Records
import PocketCalc.Proofs.Text.Abridged

/-!
# What a session shows is printable

Entries, operands and operator symbols consist of printable ASCII characters, and so do the texts
that are joined from them: the pending expression and the records (`run_printable`).
-/

namespace PocketCalc

/-- What holds of the characters of markers, of digits and of the point holds of all characters of a
shaped text. -/
theorem Entry.Shaped.forall_mem {w : Text} (h : Entry.Shaped w) {P : Char → Prop}
    (hmarkers : ∀ m ∈ Entry.markers, ∀ c ∈ m, P c) (hdigits : ∀ c, c.isDigit ∨ c = '.' → P c) :
    ∀ c ∈ w, P c := by
  obtain ⟨-, -, p, d, rfl, hd, hpd⟩ := h
  intro c hc
  rcases List.mem_append.1 hc with hc | hc
  · rcases hpd with ⟨-, m, hm, hpm⟩ | ⟨rfl, -⟩
    · exact hmarkers m hm c (hpm.subset hc)
    · cases hc
  · exact hdigits c (hd c hc)

theorem Entry.Shaped.isPrintable {w : Text} (h : Entry.Shaped w) : Text.IsPrintable w := by
  have hmarkers : ∀ m ∈ Entry.markers, Text.IsPrintable m := by decide
  exact h.forall_mem hmarkers fun _ => Text.isPrintable_of_digit

theorem Operator.isPrintable_symbol (o : Operator) : Text.IsPrintable [o.symbol] := by
  cases o <;> decide

namespace Session

theorem Shaped.isPrintable_entries {s : Session} (h : Shaped s) :
    ∀ w ∈ s.entries, Text.IsPrintable w :=
  h.forall_mem_entries (fun _ hw => hw.isPrintable) Operator.isPrintable_symbol

theorem Shaped.isPrintable_pendingEntries {s : Session} (h : Shaped s) :
    ∀ w ∈ s.pendingEntries, Text.IsPrintable w :=
  fun w hw => h.isPrintable_entries w (List.mem_append_left _ hw)

theorem Shaped.isPrintable_finished {s : Session} (h : Shaped s) {a : Action} {r : Record}
    (hr : s.finished? a = some r) : Text.IsPrintable r.text := by
  obtain ⟨-, v, -, rfl⟩ := finished?_eq_some.1 hr
  have hequals : Text.IsPrintable " = ".toList := by decide
  have hresult : Text.IsPrintable v.shownResult := (Entry.shaped_shown _).isPrintable
  exact ((Text.isPrintable_unwords h.isPrintable_entries).append hequals).append hresult

/-- Entries and operands are shaped, and all records are printable. -/
structure Printable (s : Session) : Prop where
  shaped : Shaped s
  records : ∀ r ∈ s.history, Text.IsPrintable r.text

theorem run_printable (limit : Nat) (actions : List Action) :
    Printable ((start limit).run actions) :=
  ⟨run_shaped limit actions, run_forall_history (fun h _ _ => h.isPrintable_finished) limit actions⟩

end Session

end PocketCalc
