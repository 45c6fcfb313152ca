import PocketCalc.Text.Blank

/-!
# Texts joined by spaces

Pieces without blanks, none of them empty, can be read off their join: nothing is trimmed from it
(`trim_unwords`), and splitting it at the spaces gives the pieces back (`splitOn_unwords`).
-/

namespace PocketCalc.Text

theorem toNat_of_isDigit {c : Char} (hc : c.isDigit) : 48 ≤ c.toNat ∧ c.toNat ≤ 57 := by
  simpa [Char.isDigit, UInt32.le_iff_toNat_le] using hc

theorem isBlank_of_isDigit {c : Char} (hc : c.isDigit) : isBlank c = false := by
  have hrange := toNat_of_isDigit hc
  simp only [isBlank, inRanges, blankRanges, List.any_cons, List.any_nil, Bool.or_false,
    Bool.or_eq_false_iff, Bool.and_eq_false_iff, decide_eq_false_iff_not]
  omega

/-- A piece that stands as a word of its own: not empty, and without blanks. -/
def IsWord (w : Text) : Prop :=
  w ≠ [] ∧ ∀ c ∈ w, isBlank c = false

theorem IsWord.space_notMem {w : Text} (h : IsWord w) : ' ' ∉ w := fun hspace =>
  absurd (h.2 ' ' hspace) (by decide)

theorem unwords_cons_cons (w v : Text) (ws : List Text) :
    unwords (w :: v :: ws) = w ++ ' ' :: unwords (v :: ws) := by
  simp [unwords, join]

theorem unwords_concat {ws : List Text} (h : ws ≠ []) (v : Text) :
    unwords (ws ++ [v]) = unwords ws ++ ' ' :: v := by
  induction ws with
  | nil => exact absurd rfl h
  | cons w ws ih =>
    cases ws with
    | nil => simp [unwords, join]
    | cons u ws => simpa [unwords_cons_cons] using ih (by simp)

theorem unwords_ne_nil {w : Text} (hw : IsWord w) (ws : List Text) : unwords (w :: ws) ≠ [] := by
  cases ws with
  | nil => simpa [unwords, join] using hw.1
  | cons v ws => simp [unwords_cons_cons]

theorem head_unwords {w : Text} (hw : IsWord w) (ws : List Text) {c : Char}
    (hc : (unwords (w :: ws)).head? = some c) : isBlank c = false := by
  obtain ⟨x, r, rfl⟩ := List.exists_cons_of_ne_nil hw.1
  have hx : c = x := by
    cases ws with
    | nil => simpa [unwords, join, eq_comm] using hc
    | cons v ws => simpa [unwords_cons_cons, eq_comm] using hc
  rw [hx]
  exact hw.2 x (by simp)

theorem getLast_unwords {ws : List Text} (h : ∀ w ∈ ws, IsWord w) {c : Char}
    (hc : (unwords ws).getLast? = some c) : isBlank c = false := by
  induction ws with
  | nil => simp [unwords, join] at hc
  | cons w ws ih =>
    cases ws with
    | nil =>
      have hmem : c ∈ w := List.mem_of_getLast? (by simpa [unwords, join] using hc)
      exact (h w (by simp)).2 c hmem
    | cons v ws =>
      have hne := unwords_ne_nil (h v (by simp)) ws
      refine ih (fun u hu => h u (by simp [hu])) ?_
      rw [unwords_cons_cons, List.append_cons, List.getLast?_append] at hc
      cases hlast : (unwords (v :: ws)).getLast? with
      | none => exact absurd (List.getLast?_eq_none_iff.1 hlast) hne
      | some y => simpa [hlast] using hc

theorem trim_unwords {ws : List Text} (h : ∀ w ∈ ws, IsWord w) :
    trim (unwords ws) = unwords ws := by
  refine trim_eq_self (fun c hc => ?_) fun c hc => getLast_unwords h hc
  cases ws with
  | nil => simp [unwords, join] at hc
  | cons w ws => exact head_unwords (h w (by simp)) ws hc

theorem splitOn_unwords {ws : List Text} (hne : ws ≠ []) (h : ∀ w ∈ ws, IsWord w) :
    (unwords ws).splitOn ' ' = ws :=
  List.splitOn_intercalate ' ' (fun w hw => (h w hw).space_notMem) hne

end PocketCalc.Text
