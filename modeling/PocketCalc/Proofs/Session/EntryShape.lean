import PocketCalc.Proofs.Decimal.NumberText
import PocketCalc.Session.Basic

/-!
# The shape of entries

Typing goes on behind whatever the display shows: a number, the marker of a fault, an infinity or
`NaN` that was recalled. Deleting can leave a beginning of any of these. `Shaped` is what all these
texts have in common, and every action keeps it: a beginning of a marker, followed by digits and at
most one point, or a number typed from its first digit on.

`run_shaped`: in every session the entry and all committed operands are shaped. Such a text is an
operator symbol only if it is a lone minus sign (`Shaped.ofText?_eq_some`).
-/

namespace PocketCalc

namespace Entry

/-! ## Shaped texts -/

/-- The texts, numbers apart, that an action can put in place of the entry. -/
def markers : List Text :=
  [divisionMarker, "inf".toList, "-inf".toList, "NaN".toList]

/-- What typing and deleting leave of a marker: a beginning of it, not empty. -/
def IsBeginning (p : Text) : Prop :=
  p ≠ [] ∧ ∃ m ∈ markers, p <+: m

/-- A first digit, and after a `0` nothing or a point. -/
def StartsNumber (d : Text) : Prop :=
  ∃ c r, d = c :: r ∧ c.isDigit ∧ (c = '0' → r = [] ∨ ∃ f, r = '.' :: f)

/-- What every entry looks like: digits and at most one point, alone or behind a beginning of a
marker. -/
structure Shaped (w : Text) : Prop where
  ne_nil : w ≠ []
  points : w.count '.' ≤ 1
  parts : ∃ p d, w = p ++ d ∧ (∀ c ∈ d, c.isDigit ∨ c = '.') ∧
    (IsBeginning p ∨ p = [] ∧ StartsNumber d)

theorem shaped_start : Shaped start :=
  ⟨by decide, by decide, [], start, rfl, by simp [start],
    .inr ⟨rfl, '0', [], rfl, by decide, by simp⟩⟩

/-- A beginning of a marker is shaped, with no digits behind it. -/
theorem IsBeginning.shaped {p : Text} (h : IsBeginning p) : Shaped p := by
  have hpoints : p.count '.' = 0 := by
    obtain ⟨-, m, hm, hpm⟩ := h
    have hnone : ∀ m ∈ markers, '.' ∉ m := by decide
    exact List.count_eq_zero.2 fun hp => hnone m hm (hpm.subset hp)
  exact ⟨h.1, by omega, p, [], by simp, by simp, .inl h⟩

/-! ## Typing and deleting -/

theorem StartsNumber.append {d : Text} (h : StartsNumber d) {c : Char}
    (hc : c = '.' ∨ d ≠ start) : StartsNumber (d ++ [c]) := by
  obtain ⟨x, r, rfl, hx, hzero⟩ := h
  refine ⟨x, r ++ [c], rfl, hx, fun h0 => .inr ?_⟩
  rcases hzero h0 with rfl | ⟨f, rfl⟩
  · rcases hc with rfl | hne
    · exact ⟨[], rfl⟩
    · exact absurd (by rw [h0]; rfl) hne
  · exact ⟨f ++ [c], rfl⟩

theorem StartsNumber.dropLast {d : Text} (h : StartsNumber d) (hlen : 1 < d.length) :
    StartsNumber d.dropLast := by
  obtain ⟨x, r, rfl, hx, hzero⟩ := h
  have hr : r ≠ [] := by
    rintro rfl
    simp at hlen
  refine ⟨x, r.dropLast, List.dropLast_cons_of_ne_nil hr, hx, fun h0 => ?_⟩
  obtain ⟨f, rfl⟩ := (hzero h0).resolve_left hr
  cases f with
  | nil => exact .inl rfl
  | cons y f => exact .inr ⟨(y :: f).dropLast, rfl⟩

theorem IsBeginning.dropLast {p : Text} (h : IsBeginning p) (hlen : 1 < p.length) :
    IsBeginning p.dropLast := by
  obtain ⟨-, m, hm, hpm⟩ := h
  refine ⟨List.ne_nil_of_length_pos ?_, m, hm, (List.dropLast_prefix p).trans hpm⟩
  rw [List.length_dropLast]
  omega

/-- One more character behind a shaped text: a digit, unless the text is `0`, or a first point. -/
theorem Shaped.push {w : Text} (h : Shaped w) {c : Char}
    (hc : c.isDigit ∧ w ≠ start ∨ c = '.' ∧ '.' ∉ w) : Shaped (w ++ [c]) := by
  obtain ⟨hne, hpoints, p, d, rfl, hd, hpd⟩ := h
  refine ⟨by simp, ?_, p, d ++ [c], by simp, ?_, ?_⟩
  · rw [List.count_append]
    rcases hc with ⟨hdigit, -⟩ | ⟨rfl, hnone⟩
    · have : c ≠ '.' := by
        rintro rfl
        exact absurd hdigit (by decide)
      simpa [this] using hpoints
    · simp [List.count_eq_zero.2 hnone]
  · intro x hx
    rcases List.mem_append.1 hx with hx | hx
    · exact hd x hx
    · rw [List.mem_singleton.1 hx]
      exact hc.imp And.left And.left
  · rcases hpd with hp | ⟨rfl, hstart⟩
    · exact .inl hp
    · refine .inr ⟨rfl, hstart.append ?_⟩
      rcases hc with ⟨-, hw⟩ | ⟨hpoint, -⟩
      · exact .inr (by simpa using hw)
      · exact .inl hpoint

theorem shaped_append {w : Text} (h : Shaped w) (c : Char) : Shaped (append w c) := by
  unfold append
  split
  · rename_i hc
    split
    · have hpoint : c ≠ '.' := by
        rintro rfl
        exact absurd hc (by decide)
      exact ⟨by simp, by simp [hpoint], [], [c], rfl, by simp [hc],
        .inr ⟨rfl, c, [], rfl, hc, by simp⟩⟩
    · rename_i hw
      exact h.push (.inl ⟨hc, hw⟩)
  · split
    · rename_i hc
      exact h.push (.inr hc)
    · exact h

theorem shaped_backspace {w : Text} (h : Shaped w) : Shaped (backspace w) := by
  unfold backspace
  split
  · exact shaped_start
  · rename_i hlen
    obtain ⟨hne, hpoints, p, d, rfl, hd, hpd⟩ := h
    have hlt : 1 < (p ++ d).length := by omega
    by_cases hnil : d = []
    · -- Only the beginning of a marker is left, and it gets shorter.
      subst hnil
      rw [List.append_nil] at hlt ⊢
      rcases hpd with hp | ⟨rfl, c, r, hcr, -⟩
      · exact (hp.dropLast hlt).shaped
      · cases hcr
    · rw [List.dropLast_append_of_ne_nil hnil]
      refine ⟨?_, ?_, p, d.dropLast, rfl, fun c hc => hd c (List.dropLast_subset d hc), ?_⟩
      · rw [← List.dropLast_append_of_ne_nil hnil]
        refine List.ne_nil_of_length_pos ?_
        rw [List.length_dropLast]
        omega
      · rw [← List.dropLast_append_of_ne_nil hnil]
        exact Nat.le_trans ((List.dropLast_sublist _).count_le _) hpoints
      · refine hpd.imp id fun ⟨hp, hstart⟩ => ⟨hp, hstart.dropLast ?_⟩
        simpa [hp] using hlt

/-! ## Results, recalled numbers and markers -/

theorem shaped_marker {α : Type} (fault : Fault α) : Shaped fault.marker := by
  have hdivision : IsBeginning divisionMarker :=
    ⟨by decide, divisionMarker, by decide, List.prefix_rfl⟩
  have herror : IsBeginning errorMarker :=
    ⟨by decide, divisionMarker, by decide, by decide⟩
  cases fault with
  | divisionByZero => exact hdivision.shaped
  | malformed | nonFinite => exact herror.shaped

theorem count_point_of_digits {d : Text} (hd : ∀ c ∈ d, c.isDigit) : d.count '.' = 0 :=
  List.count_eq_zero.2 fun hpoint => absurd (hd _ hpoint) (by decide)

theorem startsNumber_positional {t : Text} (ht : IsPositional t) : StartsNumber t := by
  obtain ⟨w, ⟨c, r, rfl, hdigits, hzero⟩, hw⟩ := ht
  have hc : c.isDigit := hdigits c (by simp)
  rcases hw with rfl | ⟨f, -, rfl⟩
  · exact ⟨c, r, rfl, hc, fun h0 => .inl (hzero h0)⟩
  · exact ⟨c, r ++ '.' :: f, rfl, hc, fun h0 => .inr ⟨f, by rw [hzero h0]; rfl⟩⟩

theorem count_point_positional {t : Text} (ht : IsPositional t) : t.count '.' ≤ 1 := by
  obtain ⟨w, ⟨c, r, rfl, hdigits, -⟩, hw⟩ := ht
  have hwhole := count_point_of_digits hdigits
  rcases hw with rfl | ⟨f, hf, rfl⟩
  · omega
  · have hfraction := count_point_of_digits hf
    rw [List.count_append, List.count_cons_self]
    omega

/-- A positional text, alone or behind a minus sign. -/
theorem shaped_positional {t : Text} (ht : IsPositional t) (s : Bool) :
    Shaped (Binary64.signText s ++ t) := by
  have hstart := startsNumber_positional ht
  cases s with
  | false =>
    have hne : t ≠ [] := by
      obtain ⟨c, r, rfl, -⟩ := hstart
      simp
    exact ⟨hne, count_point_positional ht, [], t, rfl, mem_positional ht, .inr ⟨rfl, hstart⟩⟩
  | true =>
    have hminus : IsBeginning ['-'] := ⟨by decide, "-inf".toList, by decide, by decide⟩
    refine ⟨by simp [Binary64.signText], ?_, ['-'], t, rfl, mem_positional ht, .inl hminus⟩
    have hsign : (Binary64.signText true).count '.' = 0 := by decide
    have hpoints := count_point_positional ht
    rw [List.count_append]
    omega

/-- **Numbers are shown as shaped texts**, the numbers that are not finite included. -/
theorem shaped_shown (x : Binary64) : Shaped x.shown := by
  unfold Binary64.shown
  split
  · exact shaped_start
  · cases x with
    | nan => exact IsBeginning.shaped ⟨by decide, "NaN".toList, by decide, List.prefix_rfl⟩
    | infinite s =>
      cases s
      · exact IsBeginning.shaped ⟨by decide, "inf".toList, by decide, List.prefix_rfl⟩
      · exact IsBeginning.shaped ⟨by decide, "-inf".toList, by decide, List.prefix_rfl⟩
    | finite s m =>
      obtain ⟨t, htext, ht⟩ := text_finite s m
      rw [htext]
      exact shaped_positional ht s

/-! ## Shaped texts and operator symbols -/

/-- The first character of a shaped text is a digit, or the first character of a marker. -/
theorem Shaped.head {w : Text} (h : Shaped w) :
    ∃ c r, w = c :: r ∧ (c.isDigit ∨ ∃ m ∈ markers, m.head? = some c) := by
  obtain ⟨-, -, p, d, rfl, -, hpd⟩ := h
  rcases hpd with ⟨hne, m, hm, hpm⟩ | ⟨rfl, c, r, rfl, hc, -⟩
  · obtain ⟨c, r, rfl⟩ := List.exists_cons_of_ne_nil hne
    obtain ⟨t, rfl⟩ := hpm
    exact ⟨c, r ++ d, rfl, .inr ⟨_, hm, rfl⟩⟩
  · exact ⟨c, r, rfl, .inl hc⟩

/-- **The only shaped text that is an operator symbol is a lone minus sign.** -/
theorem Shaped.ofText?_eq_some {w : Text} (h : Shaped w) {o : Operator}
    (ho : Operator.ofText? w = some o) : w = ['-'] := by
  obtain ⟨c, r, rfl, hc⟩ := h.head
  cases r with
  | cons x r => simp [Operator.ofText?] at ho
  | nil =>
    obtain rfl : c = o.symbol :=
      Operator.ofChar?_eq_some_iff.1 (by simpa [Operator.ofText?] using ho)
    have hdigit : ∀ o : Operator, ¬ o.symbol.isDigit := by
      intro o
      cases o <;> decide
    have hminus : ∀ o : Operator, ∀ m ∈ markers, m.head? = some o.symbol → o = .sub := by
      intro o
      cases o <;> decide
    obtain ⟨m, hm, hhead⟩ := hc.resolve_left (hdigit o)
    rw [hminus o m hm hhead]
    rfl

end Entry

/-! ## Sessions -/

namespace Session

/-- The entry and all committed operands are shaped. -/
structure Shaped (s : Session) : Prop where
  entry : Entry.Shaped s.entry
  pending : ∀ c ∈ s.pending, Entry.Shaped c.operand

theorem shaped_calculate {s : Session} : Shaped s.calculate.2 := by
  rcases s.calculate_cases with ⟨v, -, h⟩ | ⟨fault, -, h⟩
  · rw [h]
    exact ⟨Entry.shaped_shown _, by simp⟩
  · rw [h]
    exact ⟨Entry.shaped_marker fault, by simp⟩

theorem shaped_press (s : Session) (a : Action) (h : Shaped s) : Shaped (s.press a) := by
  cases a with
  | digit c => exact ⟨Entry.shaped_append h.entry c, h.pending⟩
  | operator o =>
    refine ⟨Entry.shaped_start, fun c hc => ?_⟩
    rcases List.mem_append.1 hc with hc | hc
    · exact h.pending c hc
    · rw [List.mem_singleton.1 hc]
      exact h.entry
  | equals => exact shaped_calculate
  | clearAll => exact ⟨Entry.shaped_start, by simp [press]⟩
  | clearEntry => exact ⟨Entry.shaped_start, h.pending⟩
  | backspace => exact ⟨Entry.shaped_backspace h.entry, h.pending⟩
  | memoryRecall => exact ⟨Entry.shaped_shown s.memory, h.pending⟩
  | memoryClear | memoryAdd | memorySubtract => exact ⟨h.entry, h.pending⟩

/-- **Every entry and operand of a session is shaped**, whatever was done before. -/
theorem run_shaped (limit : Nat) (actions : List Action) : Shaped ((start limit).run actions) :=
  run_induction (fun _ => ⟨Entry.shaped_start, by simp [start]⟩) shaped_press limit actions

/-! ### The committed entries by their places -/

theorem length_flatMap_entries (p : List Committed) :
    (p.flatMap Committed.entries).length = 2 * p.length := by
  induction p with
  | nil => rfl
  | cons c p ih =>
    rw [List.flatMap_cons, List.length_append, ih, List.length_cons]
    simp only [Committed.entries, List.length_cons, List.length_nil]
    omega

theorem getElem?_even (p : List Committed) (i : Nat) :
    (p.flatMap Committed.entries)[2 * i]? = p[i]?.map Committed.operand := by
  induction p generalizing i with
  | nil => simp
  | cons c p ih =>
    cases i with
    | zero => rfl
    | succ i => simpa [Committed.entries, Nat.mul_succ] using ih i

theorem getElem?_odd (p : List Committed) (i : Nat) :
    (p.flatMap Committed.entries)[2 * i + 1]? = p[i]?.map fun c => [c.operator.symbol] := by
  induction p generalizing i with
  | nil => simp
  | cons c p ih =>
    cases i with
    | zero => rfl
    | succ i => simpa [Committed.entries, Nat.mul_succ] using ih i

/-- **The shape of what was keyed in.** The committed entries are as many operands as operator
symbols, the symbols in the odd places. The entry and the operands in the even places are shaped;
none of them is `+`, `*` or `/`, and one that is taken for an operator is a lone minus sign. -/
theorem run_entries_shaped (limit : Nat) (actions : List Action) :
    let s := (start limit).run actions
    s.pendingEntries.length % 2 = 0 ∧
      (∀ i t, s.pendingEntries[2 * i + 1]? = some t → ∃ o : Operator, t = [o.symbol]) ∧
      ∀ w, (w = s.entry ∨ ∃ i, s.pendingEntries[2 * i]? = some w) →
        Entry.Shaped w ∧ w ∉ [['+'], ['*'], ['/']] ∧
          ∀ o, (Token.ofEntry w : Token Binary64) = .op o → w = ['-'] := by
  intro s
  have hs : Shaped s := run_shaped limit actions
  refine ⟨?_, ?_, ?_⟩
  · rw [pendingEntries, length_flatMap_entries]
    omega
  · intro i t ht
    rw [pendingEntries, getElem?_odd, Option.map_eq_some_iff] at ht
    obtain ⟨c, -, rfl⟩ := ht
    exact ⟨c.operator, rfl⟩
  · intro w hw
    have hshaped : Entry.Shaped w := by
      rcases hw with rfl | ⟨i, hi⟩
      · exact hs.entry
      · rw [pendingEntries, getElem?_even, Option.map_eq_some_iff] at hi
        obtain ⟨c, hc, rfl⟩ := hi
        exact hs.pending c (List.mem_of_getElem? hc)
    refine ⟨hshaped, fun hmem => ?_, fun o ho => ?_⟩
    · have hsymbols : ∀ t ∈ [['+'], ['*'], ['/']], t ≠ ['-'] ∧ (Operator.ofText? t).isSome := by
        decide
      obtain ⟨hne, hop⟩ := hsymbols w hmem
      obtain ⟨o, ho⟩ := Option.isSome_iff_exists.1 hop
      exact hne (hshaped.ofText?_eq_some ho)
    · exact hshaped.ofText?_eq_some (Token.ofEntry_eq_op.1 ho)

end Session

end PocketCalc
