import PocketCalc.Session.Basic

/-!
# Typing a text

The entry changes with every character that is typed into it. `Entry.normal` says at once what all
of them come to: points behind the first one do not count, neither do zeros in front of a digit,
and no number begins with its point. Typing one character more keeps the entry normal
(`append_normal`), so a whole text leaves the normal forms of its pieces between operator symbols,
with the symbols between them: `entries_typeText`.
-/

namespace PocketCalc

namespace Entry

/-! ## Normal forms -/

/-- The text without the points behind its first one. -/
def dropLaterPoints : Text → Text
  | [] => []
  | c :: r => if c = '.' then c :: r.filter (· ≠ '.') else c :: dropLaterPoints r

/-- The text without the zeros at its beginning that have a digit behind them. -/
def dropLeadingZeros : Text → Text
  | '0' :: c :: r => if c.isDigit then dropLeadingZeros (c :: r) else '0' :: c :: r
  | t => t

/-- The text with a zero in front if it is empty or begins with a point. -/
def padWhole (t : Text) : Text :=
  if t = [] ∨ t.head? = some '.' then '0' :: t else t

/-- What the entry is once the digits and points of the text are typed into it. -/
def normal (t : Text) : Text :=
  padWhole (dropLeadingZeros (dropLaterPoints t))

theorem dropLaterPoints_concat (t : Text) (c : Char) :
    dropLaterPoints (t ++ [c]) =
      if c = '.' ∧ '.' ∈ t then dropLaterPoints t else dropLaterPoints t ++ [c] := by
  induction t with
  | nil => simp [dropLaterPoints]
  | cons x r ih =>
    by_cases hx : x = '.'
    · subst hx
      by_cases hc : c = '.' <;> simp [dropLaterPoints, hc]
    · have hmem : '.' ∈ x :: r ↔ '.' ∈ r := by simp [Ne.symm hx]
      simp only [List.cons_append, dropLaterPoints, if_neg hx, ih, hmem]
      split <;> rfl

theorem dropLeadingZeros_concat (t : Text) (c : Char) :
    dropLeadingZeros (t ++ [c]) =
      if c.isDigit ∧ dropLeadingZeros t = start then [c] else dropLeadingZeros t ++ [c] := by
  fun_induction dropLeadingZeros t with
  | case1 x r hx ih => simpa [dropLeadingZeros, hx] using ih
  | case2 x r hx => simp [dropLeadingZeros, hx, start]
  | case3 t ht =>
    rcases t with _ | ⟨x, _ | ⟨y, r⟩⟩
    · simp [dropLeadingZeros, start]
    · by_cases hx : x = '0'
      · subst hx
        by_cases hc : c.isDigit <;> simp [dropLeadingZeros, start, hc]
      · simp [dropLeadingZeros, start, hx]
    · have hx : x ≠ '0' := by
        rintro rfl
        exact ht y r rfl
      simp [dropLeadingZeros, start, hx]

theorem padWhole_concat {t : Text} (ht : t ≠ []) (c : Char) :
    padWhole (t ++ [c]) = padWhole t ++ [c] := by
  obtain ⟨x, r, rfl⟩ := List.exists_cons_of_ne_nil ht
  by_cases hx : x = '.' <;> simp [padWhole, hx]

theorem padWhole_eq_start {t : Text} : padWhole t = start ↔ t = [] ∨ t = start := by
  unfold padWhole
  split
  · rename_i h
    rcases h with rfl | h
    · simp [start]
    · obtain ⟨r, rfl⟩ := List.head?_eq_some_iff.1 h
      simp [start]
  · rename_i h
    rw [not_or] at h
    simp [h.1]

theorem point_mem_dropLaterPoints {t : Text} : '.' ∈ dropLaterPoints t ↔ '.' ∈ t := by
  induction t with
  | nil => rfl
  | cons x r ih =>
    by_cases hx : x = '.'
    · simp [dropLaterPoints, hx]
    · simp [dropLaterPoints, hx, ih]

theorem point_mem_dropLeadingZeros {t : Text} : '.' ∈ dropLeadingZeros t ↔ '.' ∈ t := by
  fun_induction dropLeadingZeros t with
  | case1 x r hx ih => simpa using ih
  | case2 => rfl
  | case3 => rfl

theorem point_mem_padWhole {t : Text} : '.' ∈ padWhole t ↔ '.' ∈ t := by
  unfold padWhole
  split <;> simp

theorem point_mem_normal {t : Text} : '.' ∈ normal t ↔ '.' ∈ t := by
  rw [normal, point_mem_padWhole, point_mem_dropLeadingZeros, point_mem_dropLaterPoints]

theorem append_padWhole_digit (u : Text) {c : Char} (hc : c.isDigit) :
    append (padWhole u) c = padWhole (if u = start then [c] else u ++ [c]) := by
  have hsingle : padWhole [c] = [c] := by
    have hpoint : c ≠ '.' := by
      rintro rfl
      exact absurd hc (by decide)
    simp [padWhole, hpoint]
  rw [append, if_pos hc]
  by_cases hu : u = start
  · rw [if_pos hu, if_pos (padWhole_eq_start.2 (.inr hu)), hsingle]
  · rw [if_neg hu]
    by_cases hnil : u = []
    · rw [if_pos (padWhole_eq_start.2 (.inl hnil)), hnil, List.nil_append, hsingle]
    · rw [if_neg (by simp [padWhole_eq_start, hu, hnil]), padWhole_concat hnil]

theorem append_padWhole_point {u : Text} (hu : '.' ∉ u) :
    append (padWhole u) '.' = padWhole (u ++ ['.']) := by
  have hdigit : ¬ '.'.isDigit := by decide
  rw [append, if_neg hdigit, if_pos ⟨rfl, mt point_mem_padWhole.1 hu⟩]
  by_cases hnil : u = []
  · rw [hnil]
    rfl
  · rw [padWhole_concat hnil]

/-- **Typing keeps the entry normal**: one more character is taken as if all had been typed at
once. -/
theorem append_normal (t : Text) {c : Char} (hc : c.isDigit ∨ c = '.') :
    append (normal t) c = normal (t ++ [c]) := by
  rcases hc with hdigit | rfl
  · have hpoint : c ≠ '.' := by
      rintro rfl
      exact absurd hdigit (by decide)
    have hlater : dropLaterPoints (t ++ [c]) = dropLaterPoints t ++ [c] := by
      rw [dropLaterPoints_concat, if_neg (hpoint ·.1)]
    rw [normal, normal, append_padWhole_digit _ hdigit, hlater, dropLeadingZeros_concat]
    simp only [hdigit, true_and]
  · -- A second point is refused; a first one keeps a lone `0` in front of it.
    by_cases hmem : '.' ∈ t
    · have hlater : dropLaterPoints (t ++ ['.']) = dropLaterPoints t := by
        rw [dropLaterPoints_concat, if_pos ⟨rfl, hmem⟩]
      rw [append, if_neg (by decide), if_neg fun h => h.2 (point_mem_normal.2 hmem), normal, normal,
        hlater]
    · have hlater : dropLaterPoints (t ++ ['.']) = dropLaterPoints t ++ ['.'] := by
        rw [dropLaterPoints_concat, if_neg (hmem ·.2)]
      have hpoint : '.' ∉ dropLeadingZeros (dropLaterPoints t) := by
        rwa [point_mem_dropLeadingZeros, point_mem_dropLaterPoints]
      rw [normal, normal, append_padWhole_point hpoint, hlater, dropLeadingZeros_concat,
        if_neg fun h => absurd h.1 (by decide)]

end Entry

/-! ## Pieces between operators -/

def isOperator (c : Char) : Bool :=
  (Operator.ofChar? c).isSome

/-- The characters of a text that are typed into an expression: digits, points and operator
symbols. -/
def expressionKeys (t : Text) : Text :=
  t.filter fun c => c.isDigit || c == '.' || isOperator c

/-- Operands in order, with operator symbols in order between them. -/
def interleave : List Text → List Operator → List Text
  | x :: xs, o :: os => x :: [o.symbol] :: interleave xs os
  | xs, _ => xs

/-- The entries that a text spells: the normal forms of its pieces between operator symbols, and
the symbols. -/
def typedEntries (t : Text) : List Text :=
  let keys := expressionKeys t
  interleave ((keys.splitOnP isOperator).map Entry.normal) (keys.filterMap Operator.ofChar?)

theorem ofChar?_of_isDigit_or_point {c : Char} (hc : c.isDigit ∨ c = '.') :
    Operator.ofChar? c = none := by
  cases ho : Operator.ofChar? c with
  | none => rfl
  | some o =>
    obtain rfl := Operator.ofChar?_eq_some_iff.1 ho
    cases o <;> exact absurd hc (by decide)

theorem Action.ofChar?_symbol (o : Operator) : Action.ofChar? o.symbol = some (.operator o) := by
  cases o <;> rfl

theorem Action.ofChar?_of_isDigit_or_point {c : Char} (hc : c.isDigit ∨ c = '.') :
    Action.ofChar? c = some (.digit c) := by
  rw [Action.ofChar?, if_pos hc]

theorem Action.ofChar?_of_other {c : Char} (hc : ¬ (c.isDigit ∨ c = '.'))
    (ho : Operator.ofChar? c = none) (hequals : c ≠ '=' ∧ c ≠ '\n' ∧ c ≠ '\r') :
    Action.ofChar? c = none := by
  simp [Action.ofChar?, hc, ho, hequals]

namespace Session

/-- What is typed behind a normal entry comes to the same as if the piece of text for the entry had
been typed together with it. -/
theorem entries_typeText_of_normal {s : Session} (front : Text)
    (hfront : ∀ c ∈ front, isOperator c = false) (hs : s.entry = Entry.normal front) {t : Text}
    (ht : ∀ c ∈ t, c ≠ '=' ∧ c ≠ '\n' ∧ c ≠ '\r') :
    (s.typeText t).entries = s.pendingEntries ++
      interleave (((front ++ expressionKeys t).splitOnP isOperator).map Entry.normal)
        ((expressionKeys t).filterMap Operator.ofChar?) := by
  induction t generalizing s front with
  | nil =>
    simp [typeText, run, entries, hs, expressionKeys, List.splitOnP_eq_singleton hfront, interleave]
  | cons c t ih =>
    obtain ⟨hequals, hrest⟩ := List.forall_mem_cons.1 ht
    by_cases hc : c.isDigit ∨ c = '.'
    · have ho := ofChar?_of_isDigit_or_point hc
      have hkeys : expressionKeys (c :: t) = c :: expressionKeys t := by
        simp [expressionKeys, hc]
      have hpress : s.typeText (c :: t) = (s.type c).typeText t := by
        rw [typeText, List.filterMap_cons_some (Action.ofChar?_of_isDigit_or_point hc)]
        rfl
      have hentry : (s.type c).entry = Entry.normal (front ++ [c]) := by
        rw [← Entry.append_normal front hc, ← hs]
        rfl
      have hfront' : ∀ x ∈ front ++ [c], isOperator x = false := by
        rw [List.forall_mem_append, List.forall_mem_singleton]
        exact ⟨hfront, by simp [isOperator, ho]⟩
      rw [hpress, ih _ hfront' hentry hrest, hkeys, List.filterMap_cons_none ho, List.append_assoc]
      rfl
    · cases ho : Operator.ofChar? c with
      | some o =>
        obtain rfl := Operator.ofChar?_eq_some_iff.1 ho
        have hop : isOperator o.symbol = true := by simp [isOperator]
        have hkeys : expressionKeys (o.symbol :: t) = o.symbol :: expressionKeys t := by
          simp [expressionKeys, hop]
        have hpress : s.typeText (o.symbol :: t) = (s.commit o).typeText t := by
          rw [typeText, List.filterMap_cons_some (Action.ofChar?_symbol o)]
          rfl
        have hpending : (s.commit o).pendingEntries =
            s.pendingEntries ++ [Entry.normal front, [o.symbol]] := by
          simp [commit, pendingEntries, Committed.entries, hs]
        -- A new entry begins, for the empty piece of text.
        have hempty : (s.commit o).entry = Entry.normal [] := rfl
        rw [hpress, ih [] (by simp) hempty hrest, hpending, hkeys,
          List.splitOnP_append_cons_of_forall_mem hfront _ hop, List.filterMap_cons_some ho]
        simp [interleave]
      | none =>
        have hkeys : expressionKeys (c :: t) = expressionKeys t := by
          rw [not_or] at hc
          simp [expressionKeys, hc, isOperator, ho]
        have hpress : s.typeText (c :: t) = s.typeText t := by
          rw [typeText, List.filterMap_cons_none (Action.ofChar?_of_other hc ho hequals)]
          rfl
        rw [hpress, ih front hfront hs hrest, hkeys]

/-- **What a typed text comes to.** After everything is cleared, a text without the characters that
ask for a result leaves the entries that it spells, whatever the session was before. -/
theorem entries_typeText (s : Session) {t : Text} (ht : ∀ c ∈ t, c ≠ '=' ∧ c ≠ '\n' ∧ c ≠ '\r') :
    ((s.press .clearAll).typeText t).entries = typedEntries t :=
  entries_typeText_of_normal [] (by simp) rfl ht

/-- `007.5.2-x.*/e3` typed after a failed calculation: points and zeros that do not count are
gone, and between two operators stands a zero. -/
theorem entries_typeText_after_fault :
    let s := (start 5).run [.digit '5', .operator .div, .digit '0', .equals, .digit '9']
    let t := "007.5.2-x.*/e3".toList
    (∀ c ∈ t, c ≠ '=' ∧ c ≠ '\n' ∧ c ≠ '\r') ∧
      ((s.press .clearAll).typeText t).entries =
        ["7.52".toList, ['-'], "0.".toList, ['*'], ['0'], ['/'], ['3']] := by
  intro s t
  have ht : ∀ c ∈ t, c ≠ '=' ∧ c ≠ '\n' ∧ c ≠ '\r' := by simp [t]
  exact ⟨ht, (entries_typeText s ht).trans (by decide +kernel)⟩

end Session

end PocketCalc
