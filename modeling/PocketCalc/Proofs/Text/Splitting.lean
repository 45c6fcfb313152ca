import Mathlib.Data.List.Basic
import PocketCalc.Text.Basic

/-!
# Joined texts and their pieces

A text can be split at every place where a separator stands, looked for from the left. Pieces that
were joined come back if they lack a character of the separator (`split_join`): no separator can
then begin inside a piece and end behind it.
-/

namespace PocketCalc.Text

variable {separator : Text}

/-! ## The characters of joined pieces -/

theorem join_cons_cons (separator p q : Text) (pieces : List Text) :
    join separator (p :: q :: pieces) = p ++ separator ++ join separator (q :: pieces) :=
  List.intercalate_cons_cons

/-- The characters of a joined text are those of its pieces and of the separator. -/
theorem of_mem_join {pieces : List Text} {c : Char} (h : c ∈ join separator pieces) :
    c ∈ separator ∨ ∃ p ∈ pieces, c ∈ p := by
  induction pieces with
  | nil => simp [join] at h
  | cons p pieces ih =>
    cases pieces with
    | nil => exact .inr ⟨p, List.mem_cons_self, by simpa [join] using h⟩
    | cons q pieces =>
      rw [join_cons_cons, List.mem_append, List.mem_append] at h
      rcases h with (h | h) | h
      · exact .inr ⟨p, List.mem_cons_self, h⟩
      · exact .inl h
      · exact (ih h).imp_right fun ⟨x, hx, hc⟩ => ⟨x, List.mem_cons_of_mem p hx, hc⟩

theorem mem_join {piece : Text} {pieces : List Text} (h : piece ∈ pieces) {c : Char}
    (hc : c ∈ piece) : c ∈ join separator pieces := by
  induction pieces with
  | nil => cases h
  | cons p pieces ih =>
    cases pieces with
    | nil =>
      rw [List.mem_singleton.1 h] at hc
      simpa [join] using hc
    | cons q pieces =>
      rw [join_cons_cons]
      rcases List.mem_cons.1 h with rfl | h
      · simp [hc]
      · exact List.mem_append_right _ (ih h)

/-! ## Splitting -/

/-- The pieces of a text between the places where the separator stands, after the first `skip`
characters are passed over. -/
def splitFrom (separator : Text) : Nat → Text → List Text
  | _, [] => [[]]
  | skip + 1, _ :: rest => splitFrom separator skip rest
  | 0, c :: rest =>
    if separator <+: c :: rest then [] :: splitFrom separator (separator.length - 1) rest
    else (splitFrom separator 0 rest).modifyHead (c :: ·)

/-- The pieces of a text between the places where the separator stands, from the left. A place is
looked for behind the end of the one before. -/
def split (separator t : Text) : List Text :=
  splitFrom separator 0 t

theorem splitFrom_length (separator t rest : Text) :
    splitFrom separator t.length (t ++ rest) = split separator rest := by
  induction t with
  | nil => rfl
  | cons c t ih => exact ih

theorem split_separator (h : separator ≠ []) (rest : Text) :
    split separator (separator ++ rest) = [] :: split separator rest := by
  obtain ⟨c, tail, rfl⟩ := List.exists_cons_of_ne_nil h
  have hstands : c :: tail <+: c :: (tail ++ rest) := List.prefix_append (c :: tail) rest
  rw [split, List.cons_append, splitFrom, if_pos hstands]
  exact congrArg ([] :: ·) (splitFrom_length (c :: tail) tail rest)

theorem split_cons {c : Char} {rest : Text} (h : ¬ separator <+: c :: rest) :
    split separator (c :: rest) = (split separator rest).modifyHead (c :: ·) := by
  rw [split, splitFrom, if_neg h]
  rfl

section

variable {mark : Char} (hmark : mark ∈ separator)
include hmark

/-- In front of a separator no other begins, if a character of it is missing there. -/
theorem not_isPrefix_of_notMem {t : Text} (ht : mark ∉ t) (hne : t ≠ []) (rest : Text) :
    ¬ separator <+: t ++ (separator ++ rest) := by
  rintro ⟨tail, heq⟩
  -- The first such character cannot be both in the separator in front and in the one behind `t`.
  have hplace := congrArg (List.idxOf mark) heq
  rw [List.idxOf_append_of_mem hmark, List.idxOf_append_of_notMem ht,
    List.idxOf_append_of_mem hmark] at hplace
  have hlength : 0 < t.length := List.length_pos_iff.2 hne
  omega

theorem split_append {p : Text} (hp : mark ∉ p) (rest : Text) :
    split separator (p ++ (separator ++ rest)) = p :: split separator rest := by
  induction p with
  | nil => exact split_separator (List.ne_nil_of_mem hmark) rest
  | cons c p ih =>
    have hnone : ¬ separator <+: c :: (p ++ (separator ++ rest)) :=
      not_isPrefix_of_notMem hmark hp (List.cons_ne_nil c p) rest
    rw [List.cons_append, split_cons hnone, ih fun h => hp (List.mem_cons_of_mem c h),
      List.modifyHead_cons]

theorem split_of_notMem {p : Text} (hp : mark ∉ p) : split separator p = [p] := by
  induction p with
  | nil => rfl
  | cons c p ih =>
    have hnone : ¬ separator <+: c :: p := fun h => hp (h.subset hmark)
    rw [split_cons hnone, ih fun h => hp (List.mem_cons_of_mem c h), List.modifyHead_cons]

/-- **Joined pieces are split again**, if they lack a character of the separator. -/
theorem split_join {pieces : List Text} (hne : pieces ≠ []) (h : ∀ p ∈ pieces, mark ∉ p) :
    split separator (join separator pieces) = pieces := by
  induction pieces with
  | nil => exact absurd rfl hne
  | cons p pieces ih =>
    have hp : mark ∉ p := h p List.mem_cons_self
    cases pieces with
    | nil => simpa [join] using split_of_notMem hmark hp
    | cons q pieces =>
      have hrest := ih (List.cons_ne_nil q pieces) fun x hx => h x (List.mem_cons_of_mem p hx)
      rw [join_cons_cons, List.append_assoc, split_append hmark hp, hrest]

example : split ", ".toList "a, b,, , c".toList =
    ["a".toList, "b,".toList, [], "c".toList] := by decide

end

end PocketCalc.Text
