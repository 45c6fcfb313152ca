import Mathlib.Data.List.Nodup
import Mathlib.Data.List.Perm.Basic
import PocketCalc.Options.Parse
import PocketCalc.Proofs.Decimal.NumberText

/-!
# Values and how they are written

A setting takes a value, and a value can be written in more than one way: a limit may have a plus
sign and leading zeros (`Value.IsWritten`). A text is examined in one place only, and what passes
there is exactly what is written so: `Choices.choose_eq_ok_iff`.
-/

namespace PocketCalc.Options

/-- A value of one of the settings. -/
inductive Value where
  | mode (mode : Mode)
  | historyLimit (limit : Nat)
  | logFile (path : Text)
deriving DecidableEq, Repr

def Value.setting : Value → Setting
  | .mode _ => .mode
  | .historyLimit _ => .historyLimit
  | .logFile _ => .logFile

/-- The texts that a value may be written as. -/
inductive Value.IsWritten : Value → Text → Prop
  | tui : IsWritten (.mode .tui) "tui".toList
  | line : IsWritten (.mode .line) "line".toList
  | limit {sign : Text} {n : Nat} (hsign : sign = [] ∨ sign = ['+']) (zeros : Nat) (hpos : 1 ≤ n)
      (hn : n < UInt64.size) :
      IsWritten (.historyLimit n) (sign ++ (List.replicate zeros '0' ++ Text.ofNat n))
  | path {t : Text} (ht : t ≠ []) : IsWritten (.logFile t) t

/-! ## What passes for a limit -/

/-- The number that digits are worth, if it is less than the bound. -/
def count? (ds : Text) : Option Nat :=
  if ds = [] ∨ ¬ ds.all Char.isDigit then none
  else if Numeral.digitsValue ds < limitBound then some (Numeral.digitsValue ds) else none

theorem count?_eq_some_iff {ds : Text} {n : Nat} (hpos : 1 ≤ n) :
    count? ds = some n ↔
      n < limitBound ∧ ∃ zeros, ds = List.replicate zeros '0' ++ Text.ofNat n := by
  simp only [count?, Option.ite_none_left_eq_some, Option.ite_none_right_eq_some,
    Option.some.injEq, not_or, Classical.not_not, List.all_eq_true]
  constructor
  · rintro ⟨⟨-, hds⟩, hlt, rfl⟩
    exact ⟨hlt, Numeral.exists_zeros_append hds hpos⟩
  · rintro ⟨hlt, zeros, rfl⟩
    rw [Numeral.digitsValue_zeros_append]
    exact ⟨⟨List.append_ne_nil_of_right_ne_nil _ (ofNat_ne_nil n),
      fun _ => isDigit_of_mem_zeros_append⟩, hlt, rfl⟩

/-- Without a plus sign the whole text counts. -/
theorem whole?_of_head {t : Text} (ht : t.head? ≠ some '+') : whole? t = count? t := by
  cases t with
  | nil => rfl
  | cons c r =>
    have hc : c ≠ '+' := by simpa using ht
    simp only [whole?]
    split
    · rename_i hplus
      exact absurd (List.cons.inj hplus).1 hc
    · rfl

theorem limit_eq_ok_iff_whole? {t : Text} {n : Nat} :
    limit t = .ok n ↔ 1 ≤ n ∧ whole? t = some n := by
  unfold limit
  split
  · rename_i hnone
    simp [hnone]
  · rename_i hzero
    simp only [hzero, reduceCtorEq, Option.some.injEq, false_iff]
    omega
  · rename_i k hzero hk
    simp only [hk, Except.ok.injEq, Option.some.injEq]
    constructor
    · rintro rfl
      exact ⟨Nat.pos_of_ne_zero hzero, rfl⟩
    · exact And.right

/-- **A limit is what is written as one**: any number from one that fits into 64 bits, with or
without a plus sign, after any number of zeros. -/
theorem limit_eq_ok_iff {t : Text} {n : Nat} :
    limit t = .ok n ↔ (Value.historyLimit n).IsWritten t := by
  rw [limit_eq_ok_iff_whole?]
  constructor
  · rintro ⟨hpos, h⟩
    by_cases hplus : t.head? = some '+'
    · obtain ⟨ds, rfl⟩ := List.head?_eq_some_iff.1 hplus
      obtain ⟨hlt, zeros, rfl⟩ := (count?_eq_some_iff hpos).1 h
      exact .limit (.inr rfl) zeros hpos hlt
    · rw [whole?_of_head hplus, count?_eq_some_iff hpos] at h
      obtain ⟨hlt, zeros, rfl⟩ := h
      exact .limit (.inl rfl) zeros hpos hlt
  · intro h
    cases h with
    | limit hsign zeros hpos hlt =>
      have hcount := (count?_eq_some_iff hpos).2 ⟨hlt, zeros, rfl⟩
      refine ⟨hpos, ?_⟩
      rcases hsign with rfl | rfl
      · refine (whole?_of_head fun hplus => ?_).trans hcount
        have hdigit := isDigit_of_mem_zeros_append (List.mem_of_mem_head? hplus)
        exact absurd hdigit (by decide)
      · exact hcount

theorem mode?_eq_some_iff {t : Text} {m : Mode} :
    mode? t = some m ↔ (Value.mode m).IsWritten t := by
  constructor
  · intro h
    unfold mode? at h
    split at h
    · rename_i ht
      cases h
      exact ht ▸ .tui
    · split at h
      · rename_i ht
        cases h
        exact ht ▸ .line
      · cases h
  · rintro (_ | _) <;> rfl

/-! ## Choosing a value -/

namespace Choices

def set (c : Choices) : Value → Choices
  | .mode m => { c with mode := some m }
  | .historyLimit n => { c with historyLimit := some n }
  | .logFile t => { c with logFile := some t }

def values (c : Choices) : List Value :=
  c.mode.toList.map .mode ++ c.historyLimit.toList.map .historyLimit ++
    c.logFile.toList.map .logFile

/-- **What is chosen**: a written value of the setting, if it has none yet. -/
theorem choose_eq_ok_iff {c d : Choices} {s : Setting} {t : Text} :
    c.choose s t = .ok d ↔
      c.has s = false ∧ ∃ v : Value, v.setting = s ∧ v.IsWritten t ∧ d = c.set v := by
  constructor
  · intro h
    unfold choose at h
    split at h
    · cases h
    · rename_i hnew
      refine ⟨by simpa using hnew, ?_⟩
      -- Each setting checks the text in its own way, and what fails the check is refused.
      cases s with
      | mode =>
        simp only at h
        split at h
        · rename_i m hm
          cases h
          exact ⟨.mode m, rfl, mode?_eq_some_iff.1 hm, rfl⟩
        · cases h
      | historyLimit =>
        simp only at h
        split at h
        · rename_i n hn
          cases h
          exact ⟨.historyLimit n, rfl, limit_eq_ok_iff.1 hn, rfl⟩
        · cases h
      | logFile =>
        simp only at h
        split at h
        · cases h
        · rename_i ht
          cases h
          exact ⟨.logFile t, rfl, .path ht, rfl⟩
  · rintro ⟨hnew, v, rfl, hv, rfl⟩
    unfold choose
    rw [hnew, if_neg Bool.false_ne_true]
    cases v with
    | mode m => simp only [Value.setting, mode?_eq_some_iff.2 hv, set]
    | historyLimit n => simp only [Value.setting, limit_eq_ok_iff.2 hv, set]
    | logFile path =>
      cases hv with
      | path ht => simp only [Value.setting, if_neg ht, set]

theorem has_set_of_ne {v : Value} {s : Setting} (c : Choices) (h : v.setting ≠ s) :
    (c.set v).has s = c.has s := by
  cases v <;> cases s <;> simp_all [set, has, Value.setting]

theorem set_comm {v w : Value} (c : Choices) (h : v.setting ≠ w.setting) :
    (c.set v).set w = (c.set w).set v := by
  cases v <;> cases w <;> simp_all [set, Value.setting]

@[simp] theorem mode_mem_values {c : Choices} {m : Mode} :
    .mode m ∈ c.values ↔ c.mode = some m := by
  simp [values]

@[simp] theorem historyLimit_mem_values {c : Choices} {n : Nat} :
    .historyLimit n ∈ c.values ↔ c.historyLimit = some n := by
  simp [values]

@[simp] theorem logFile_mem_values {c : Choices} {t : Text} :
    .logFile t ∈ c.values ↔ c.logFile = some t := by
  simp [values]

theorem mem_values_set {c : Choices} {v w : Value} (h : w ∈ (c.set v).values) :
    w = v ∨ w ∈ c.values := by
  cases v <;> cases w <;> simp_all [set]

theorem nodup_values (c : Choices) : (c.values.map Value.setting).Nodup := by
  obtain ⟨m, n, t⟩ := c
  cases m <;> cases n <;> cases t <;> simp [values, Value.setting]

theorem foldl_set {c : Choices} {vs : List Value} (h : vs.Perm c.values) : vs.foldl set {} = c := by
  have hnodup : (vs.map Value.setting).Nodup := (h.map _).nodup_iff.2 c.nodup_values
  have hcomm : ∀ v ∈ vs, ∀ w ∈ vs, ∀ d : Choices, (d.set v).set w = (d.set w).set v := by
    intro v hv w hw d
    by_cases heq : v.setting = w.setting
    · rw [List.inj_on_of_nodup_map hnodup hv hw heq]
    · exact d.set_comm heq
  rw [h.foldl_eq' hcomm]
  obtain ⟨m, n, t⟩ := c
  cases m <;> cases n <;> cases t <;> rfl

end Choices

theorem Value.IsWritten.choose {v : Value} {t : Text} (h : v.IsWritten t) {c : Choices}
    (hnew : c.has v.setting = false) : c.choose v.setting t = .ok (c.set v) :=
  Choices.choose_eq_ok_iff.2 ⟨hnew, v, rfl, h, rfl⟩

end PocketCalc.Options
