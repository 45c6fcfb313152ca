import PocketCalc.Proofs.Decimal.Places
import PocketCalc.Proofs.Expression.Finiteness
import PocketCalc.Proofs.Session.Records

/-!
# Asking for the result again

A result on the display is the text of a rounded number, which reads back as that number and is
rounded to itself. So calculating once more gives the same result again, any number of times:
`calculate_repeat`.
-/

namespace PocketCalc

/-- A single operand is its own value. -/
theorem evaluate_single {x : Text} (h : (Binary64.ofText x).isFinite = true) :
    (evaluate [x] : Evaluation Binary64) = ⟨.ok (Binary64.ofText x), []⟩ := by
  let c : Chain Text := ⟨x, []⟩
  have hc : ∀ y ∈ c.operands, Operator.ofText? y = none := by
    simpa [c, Chain.operands] using ofText?_of_isFinite h
  have hzero : ¬ (c.map Binary64.ofText).DividesByZero := by
    simp [c, Chain.map, Chain.DividesByZero]
  exact (evaluate_of_not_dividesByZero hc hzero).trans (if_pos h)

namespace Binary64

theorem isFinite_ofText_shownResult {v : Binary64} (hv : v.isFinite = true) :
    (ofText v.shownResult).isFinite = true := by
  rw [shownResult, ofText_shown]
  split
  · rfl
  · rw [isFinite_roundResult, hv]

theorem ne_nan_of_isFinite {x : Binary64} (h : x.isFinite = true) : x ≠ .nan := by
  rintro rfl
  cases h

end Binary64

namespace Session

theorem isFinite_of_calculate {s : Session} {v : Binary64} (h : s.calculate.1 = .ok v) :
    v.isFinite = true := by
  rw [calculate_fst] at h
  exact (evaluate_eq_ok.1 h).2

/-- A shown result is recorded as it stands. -/
theorem record_shownResult {v : Binary64} (hv : v.isFinite = true) :
    record [v.shownResult] (Binary64.ofText v.shownResult) = ⟨v.shownResult, v.shownResult⟩ := by
  have hnum : Binary64.ofText v.shownResult ≠ .nan :=
    Binary64.ne_nan_of_isFinite (Binary64.isFinite_ofText_shownResult hv)
  have hword : Text.IsWord v.shownResult :=
    Entry.Shaped.isWord (Entry.shaped_shown v.roundResult) hnum
  have htrim : Text.trim (Text.unwords [v.shownResult]) = Text.unwords [v.shownResult] :=
    Text.trim_unwords (List.forall_mem_singleton.2 hword)
  rw [record, htrim, Binary64.shownResult_ofText_shownResult]
  simp [Text.unwords, Text.join]

/-- A session that shows a result and nothing else shows it again. -/
theorem calculate_shownResult {t : Session} {v : Binary64} (hv : v.isFinite = true)
    (hentry : t.entry = v.shownResult) (hpending : t.pending = []) :
    t.calculate = (.ok (Binary64.ofText v.shownResult),
      { t with
        history := keepLast t.capacity (t.history ++ [⟨v.shownResult, v.shownResult⟩])
        lastSteps := [] }) := by
  have hentries : t.entries = [v.shownResult] := by
    simp [entries, pendingEntries, hentry, hpending]
  have hvalue := evaluate_single (Binary64.isFinite_ofText_shownResult hv)
  have hout : t.calculate.1 = .ok (Binary64.ofText v.shownResult) := by
    rw [calculate_fst, hentries, hvalue]
  have hnext := calculate_of_ok hout
  rw [hentries, hvalue, record_shownResult hv, Binary64.shownResult_ofText_shownResult, ← hentry,
    ← hpending] at hnext
  rw [← hentry] at hout ⊢
  exact Prod.ext hout hnext

theorem run_replicate_succ (s : Session) (a : Action) (n : Nat) :
    s.run (List.replicate (n + 1) a) = (s.run (List.replicate n a)).press a := by
  rw [List.replicate_succ', run_concat]

/-- A result stays on the display while it is asked for again. -/
theorem run_equals_of_ok {s : Session} {v : Binary64} (h : s.calculate.1 = .ok v) (n : Nat) :
    let t := s.calculate.2.run (List.replicate n .equals)
    t.entry = v.shownResult ∧ t.pending = [] ∧ t.memory = s.memory := by
  have hv := isFinite_of_calculate h
  induction n with
  | zero =>
    rw [calculate_of_ok h]
    exact ⟨rfl, rfl, rfl⟩
  | succ n ih =>
    obtain ⟨hentry, hpending, hmemory⟩ := ih
    rw [run_replicate_succ, press, calculate_shownResult hv hentry hpending]
    exact ⟨hentry, hpending, hmemory⟩

/-- **A result is stable.** After a calculation with a result, each further one, however many were
made before it, has a result that is the same number as the rounded value; it leaves the entry, the
empty expression and the memory as they are, makes no steps, and records that the shown result is
equal to itself. -/
theorem calculate_repeat {s : Session} {v : Binary64} (h : s.calculate.1 = .ok v) (n : Nat) :
    let shown := s.calculate.2.entry
    let t := s.calculate.2.run (List.replicate n .equals)
    (∃ w : Binary64, w.SameValue v.roundResult ∧
      t.calculate = (.ok w,
        { t with
          history := keepLast t.capacity (t.history ++ [⟨shown, shown⟩])
          lastSteps := [] })) ∧
      t.entry = shown ∧ t.pending = [] ∧ t.memory = s.memory := by
  intro shown t
  have hv := isFinite_of_calculate h
  have hround : v.roundResult ≠ .nan :=
    Binary64.ne_nan_of_isFinite (by rw [Binary64.isFinite_roundResult, hv])
  have hshown : shown = v.shownResult := congrArg Session.entry (calculate_of_ok h)
  obtain ⟨hentry, hpending, hmemory⟩ := run_equals_of_ok h n
  rw [hshown]
  exact ⟨⟨_, Binary64.sameValue_ofText_shown hround, calculate_shownResult hv hentry hpending⟩,
    hentry, hpending, hmemory⟩

/-- `0 - 2 = / 3 =` shows `-0.666666666667`, which is not the quotient; asking twice more changes
nothing. -/
theorem calculate_repeat_two_thirds :
    let s := (start 5).run [.operator .sub, .digit '2', .equals, .operator .div, .digit '3']
    let v := Binary64.ofText "-2".toList / Binary64.ofText "3".toList
    let shown := s.calculate.2.entry
    let t := s.calculate.2.run (List.replicate 2 .equals)
    s.calculate.1 = .ok v ∧ shown = "-0.666666666667".toList ∧ v.roundResult ≠ v ∧
      (∃ w : Binary64, w.SameValue v.roundResult ∧
        t.calculate = (.ok w,
          { t with
            history := keepLast t.capacity (t.history ++ [⟨shown, shown⟩])
            lastSteps := [] })) ∧
      t.entry = shown ∧ t.pending = [] ∧ t.memory = s.memory := by
  intro s v shown t
  have h : s.calculate.1 = .ok v := by decide +kernel
  have hshown : shown = "-0.666666666667".toList := by decide +kernel
  have hround : v.roundResult ≠ v := by decide +kernel
  exact ⟨h, hshown, hround, calculate_repeat h 2⟩

end Session

end PocketCalc
