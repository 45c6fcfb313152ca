import Mathlib.Data.List.Basic
import Mathlib.Data.List.Infix
import PocketCalc.Text.Clip

/-!
# What clipping keeps

Clipping asks for the width of the whole text, but the end that it keeps is measured character by
character. Of all ends that fit so beside the mark it keeps the longest (`isClipped_clip`), and with
more columns it keeps more (`keptEnd_isSuffix`). The two measures agree on texts whose characters do
not change each other's width, and there the clipped text fits and is the longest that does.
Elsewhere they need not: a sign can be wider as a picture than its characters one by one, and then
the clipped text is too wide. `clip_by_characters` says exactly when it fits, when it is the
longest, and when clipping it again changes it.
-/

namespace PocketCalc.Text

/-! ## Placed one by one -/

theorem placedWidth_append (t u : Text) :
    placedWidth (t ++ u) = placedWidth t + placedWidth u := by
  induction t with
  | nil => rw [List.nil_append, placedWidth, Nat.zero_add]
  | cons c rest ih => rw [List.cons_append, placedWidth, placedWidth, ih, Nat.add_assoc]

theorem placedWidth_reverse (t : Text) : placedWidth t.reverse = placedWidth t := by
  induction t with
  | nil => rfl
  | cons c rest ih =>
    rw [List.reverse_cons, placedWidth_append, ih, placedWidth, placedWidth, placedWidth,
      Nat.add_zero, Nat.add_comm]

theorem placedWidth_le_of_isSuffix {t u : Text} (h : u <:+ t) : placedWidth u ≤ placedWidth t := by
  obtain ⟨before, rfl⟩ := h
  rw [placedWidth_append]
  exact Nat.le_add_left _ _

/-! ## The longest end that fits -/

/-- Of the ends of a text with a property, the one that has all others as its own ends. -/
structure IsLongestEnd (P : Text → Prop) (t kept : Text) : Prop where
  isSuffix : kept <:+ t
  fits : P kept
  longest : ∀ u, u <:+ t → P u → u <:+ kept

section

variable {P Q : Text → Prop} {t kept u : Text}

/-- The ends of the longest end that fits are those of all ends that fit. -/
theorem IsLongestEnd.isSuffix_iff (h : IsLongestEnd P t kept) :
    u <:+ kept ↔ ∃ v, v <:+ t ∧ u <:+ v ∧ P v := by
  constructor
  · exact fun hu => ⟨kept, h.isSuffix, hu, h.fits⟩
  · rintro ⟨v, hv, huv, hfits⟩
    exact huv.trans (h.longest v hv hfits)

/-- What is the longest by one measure is the longest by another if the same ends are part of an end
that fits. -/
theorem IsLongestEnd.iff (h : IsLongestEnd P t kept) :
    IsLongestEnd Q t kept ↔ ∀ u, u <:+ t →
      ((∃ v, v <:+ t ∧ u <:+ v ∧ P v) ↔ ∃ v, v <:+ t ∧ u <:+ v ∧ Q v) := by
  constructor
  · intro h' u _
    rw [← h.isSuffix_iff, ← h'.isSuffix_iff]
  · intro hsame
    have hend : ∀ u, u <:+ t → (u <:+ kept ↔ ∃ v, v <:+ t ∧ u <:+ v ∧ Q v) :=
      fun u hu => h.isSuffix_iff.trans (hsame u hu)
    have hlongest : ∀ u, u <:+ t → Q u → u <:+ kept :=
      fun u hu hfits => (hend u hu).2 ⟨u, hu, List.suffix_rfl, hfits⟩
    -- Some end around the one kept fits, and it is no longer.
    obtain ⟨v, hv, hkept, hfits⟩ := (hend kept h.isSuffix).1 List.suffix_rfl
    have hlength : v.length ≤ kept.length := (hlongest v hv hfits).length_le
    obtain rfl : kept = v := hkept.eq_of_length (Nat.le_antisymm hkept.length_le hlength)
    exact ⟨hv, hfits, hlongest⟩

theorem isPrefix_fitting {budget : Nat} (hu : u <+: t) (h : placedWidth u ≤ budget) :
    u <+: fitting budget t := by
  induction t generalizing budget u with
  | nil => rwa [fitting]
  | cons c rest ih =>
    cases u with
    | nil => exact List.nil_prefix
    | cons d u =>
      obtain ⟨rfl, hrest⟩ := List.cons_prefix_cons.1 hu
      rw [placedWidth] at h
      rw [fitting, if_pos (by omega)]
      exact List.cons_prefix_cons.2 ⟨rfl, ih hrest (by omega)⟩

/-- **The end that is kept is the longest** whose characters fit one by one. -/
theorem isLongestEnd_fittingEnd (budget : Nat) (t : Text) :
    IsLongestEnd (placedWidth · ≤ budget) t (fittingEnd budget t) := by
  refine ⟨?_, ?_, fun u hu h => ?_⟩
  · have hprefix := fitting_isPrefix budget t.reverse
    rwa [← List.reverse_suffix, List.reverse_reverse] at hprefix
  · change placedWidth (fitting budget t.reverse).reverse ≤ budget
    rw [placedWidth_reverse]
    exact placedWidth_fitting_le budget t.reverse
  · rw [← placedWidth_reverse] at h
    have hprefix := isPrefix_fitting (List.reverse_prefix.2 hu) h
    rwa [← List.reverse_suffix, List.reverse_reverse] at hprefix

theorem fittingEnd_eq_self {budget : Nat} (h : placedWidth t ≤ budget) :
    fittingEnd budget t = t := by
  have hend := isLongestEnd_fittingEnd budget t
  have hlong : t <:+ fittingEnd budget t := hend.longest t List.suffix_rfl h
  exact hend.isSuffix.eq_of_length (Nat.le_antisymm hend.isSuffix.length_le hlong.length_le)

/-- One character more in front makes no difference if it does not fit. -/
theorem fittingEnd_cons_of_lt {budget : Nat} {c : Char} (h : placedWidth t ≤ budget)
    (hc : budget < placedWidth (c :: t)) : fittingEnd budget (c :: t) = t := by
  have hend := isLongestEnd_fittingEnd budget (c :: t)
  have hlong : t <:+ fittingEnd budget (c :: t) := hend.longest t (List.suffix_cons c t) h
  rcases List.suffix_cons_iff.1 hend.isSuffix with heq | hshort
  · have hfits : placedWidth (fittingEnd budget (c :: t)) ≤ budget := hend.fits
    rw [heq] at hfits
    omega
  · exact hshort.eq_of_length (Nat.le_antisymm hshort.length_le hlong.length_le)

end

/-! ## The mark -/

/-- The mark takes one column, whatever follows it. -/
theorem place_cutMark (k : Context) : place cutMark k = (1, {}) := by
  obtain ⟨s, form⟩ := k
  have hforms : hasTwoForms cutMark = false := by decide
  have hmark : ∀ s, placeUnselected cutMark s = (1, {}) := fun _ => rfl
  cases form with
  | none => exact hmark s
  | some f => cases f <;> simp [place, hforms, hmark]

theorem width_cutMark_cons_le_iff {columns : Nat} (hcolumns : 0 < columns) (t : Text) :
    width (cutMark :: t) ≤ columns ↔ width t < columns := by
  rw [width, width, measure_cons, place_cutMark]
  change ((measure t).1 + 1).toNat ≤ columns ↔ _
  omega

theorem placedWidth_cutMark_cons (t : Text) : placedWidth (cutMark :: t) = placedWidth t + 1 := by
  rw [placedWidth, Nat.add_comm]
  rfl

/-! ## Clipping -/

/-- The text if it is no wider than the columns, nothing if there is no room for the mark, else the
mark and the longest end whose size leaves room for it. -/
structure IsClipped (size : Text → Nat) (columns : Nat) (t result : Text) : Prop where
  whole : width t ≤ columns → result = t
  empty : columns = 0 → columns < width t → result = []
  marked : 0 < columns → columns < width t →
    ∃ kept, result = cutMark :: kept ∧ IsLongestEnd (size · < columns) t kept

/-- The part of a text that clipping keeps. -/
def keptEnd (columns : Nat) (t : Text) : Text :=
  if width t ≤ columns then t else if columns = 0 then [] else fittingEnd (columns - 1) t

section

variable {columns : Nat} {t : Text}

theorem clip_of_le (h : width t ≤ columns) : clip columns t = t := by
  rw [clip, if_pos h]

theorem keptEnd_of_lt (hcolumns : 0 < columns) (h : columns < width t) :
    keptEnd columns t = fittingEnd (columns - 1) t := by
  rw [keptEnd, if_neg (Nat.not_le_of_lt h), if_neg (Nat.ne_of_gt hcolumns)]

theorem clip_of_lt (hcolumns : 0 < columns) (h : columns < width t) :
    clip columns t = cutMark :: keptEnd columns t := by
  rw [keptEnd_of_lt hcolumns h, clip, if_neg (Nat.not_le_of_lt h), if_neg (Nat.ne_of_gt hcolumns)]

theorem isLongestEnd_keptEnd (hcolumns : 0 < columns) (h : columns < width t) :
    IsLongestEnd (placedWidth · < columns) t (keptEnd columns t) := by
  have hend := isLongestEnd_fittingEnd (columns - 1) t
  have hroom : (placedWidth · ≤ columns - 1) = fun u : Text => placedWidth u < columns := by
    funext u
    exact propext (by omega)
  rwa [hroom, ← keptEnd_of_lt hcolumns h] at hend

theorem keptEnd_isSuffix_self (columns : Nat) (t : Text) : keptEnd columns t <:+ t := by
  unfold keptEnd
  split
  · exact List.suffix_rfl
  · split
    · exact List.nil_suffix
    · exact (isLongestEnd_fittingEnd _ t).isSuffix

theorem clip_eq_or (columns : Nat) (t : Text) :
    clip columns t = keptEnd columns t ∨ clip columns t = cutMark :: keptEnd columns t := by
  unfold clip keptEnd
  split
  · exact .inl rfl
  · split
    · exact .inl rfl
    · exact .inr rfl

/-- **More columns keep more.** -/
theorem keptEnd_isSuffix {more : Nat} (h : columns ≤ more) (t : Text) :
    keptEnd columns t <:+ keptEnd more t := by
  by_cases hmore : width t ≤ more
  · have hwhole : keptEnd more t = t := by rw [keptEnd, if_pos hmore]
    rw [hwhole]
    exact keptEnd_isSuffix_self columns t
  rcases Nat.eq_zero_or_pos columns with rfl | hcolumns
  · have hnothing : keptEnd 0 t = [] := by rw [keptEnd, if_neg (by omega), if_pos rfl]
    rw [hnothing]
    exact List.nil_suffix
  · have hlt : more < width t := Nat.lt_of_not_le hmore
    -- The end that fewer columns keep fits in more columns, where the longest one is kept.
    have hend := isLongestEnd_keptEnd hcolumns (Nat.lt_of_le_of_lt h hlt)
    have hroom : placedWidth (keptEnd columns t) < more := Nat.lt_of_lt_of_le hend.fits h
    exact (isLongestEnd_keptEnd (Nat.lt_of_lt_of_le hcolumns h) hlt).longest _ hend.isSuffix hroom

/-- **Clipping keeps the longest end**, as its characters are placed one by one. -/
theorem isClipped_clip (columns : Nat) (t : Text) :
    IsClipped placedWidth columns t (clip columns t) where
  whole := clip_of_le
  empty := by
    rintro rfl h
    rw [clip, if_neg (Nat.not_le_of_lt h), if_pos rfl]
  marked := fun hcolumns h => ⟨_, clip_of_lt hcolumns h, isLongestEnd_keptEnd hcolumns h⟩

/-! ## The two measures -/

/-- Every end of the text is as wide as its characters one by one. -/
def IsSumOfCharacters (t : Text) : Prop :=
  ∀ u, u <:+ t → width u = placedWidth u

theorem isSumOfCharacters_of_standsAlone (h : ∀ c ∈ t, StandsAlone c) : IsSumOfCharacters t :=
  fun _ hu => width_eq_placedWidth fun c hc => h c (hu.subset hc)

/-- What a clipped text is by another measure is a matter of the end that is kept. -/
theorem isClipped_iff {size : Text → Nat} :
    IsClipped size columns t (clip columns t) ↔
      width t ≤ columns ∨ columns = 0 ∨ IsLongestEnd (size · < columns) t (keptEnd columns t) := by
  have hclip := isClipped_clip columns t
  constructor
  · intro h
    by_cases hwhole : width t ≤ columns
    · exact .inl hwhole
    rcases Nat.eq_zero_or_pos columns with hzero | hcolumns
    · exact .inr (.inl hzero)
    · have hlt : columns < width t := Nat.lt_of_not_le hwhole
      obtain ⟨kept, hkept, hend⟩ := h.marked hcolumns hlt
      rw [clip_of_lt hcolumns hlt] at hkept
      rw [(List.cons.inj hkept).2]
      exact .inr (.inr hend)
  · intro h
    refine ⟨hclip.whole, hclip.empty, fun hcolumns hlt => ⟨_, clip_of_lt hcolumns hlt, ?_⟩⟩
    exact (h.resolve_left (Nat.not_le_of_lt hlt)).resolve_left (Nat.ne_of_gt hcolumns)

/-- An end fits one by one if it is part of one that does. -/
theorem placedWidth_lt_iff {u : Text} (hu : u <:+ t) :
    placedWidth u < columns ↔ ∃ v, v <:+ t ∧ u <:+ v ∧ placedWidth v < columns := by
  constructor
  · exact fun h => ⟨u, hu, List.suffix_rfl, h⟩
  · rintro ⟨v, -, huv, h⟩
    exact Nat.lt_of_le_of_lt (placedWidth_le_of_isSuffix huv) h

/-- Clipping keeps the longest end as texts are measured if and only if each end fits one by one
exactly when it is part of an end that fits. -/
theorem isClipped_width_iff :
    IsClipped width columns t (clip columns t) ↔
      width t ≤ columns ∨ columns = 0 ∨ ∀ u, u <:+ t →
        (placedWidth u < columns ↔ ∃ v, v <:+ t ∧ u <:+ v ∧ width v < columns) := by
  rw [isClipped_iff, ← or_assoc, ← or_assoc]
  refine or_congr_right' fun hcut => ?_
  have hcolumns : 0 < columns := Nat.pos_of_ne_zero fun h => hcut (.inr h)
  have hlt : columns < width t := Nat.lt_of_not_le fun h => hcut (.inl h)
  rw [(isLongestEnd_keptEnd hcolumns hlt).iff]
  exact forall₂_congr fun u hu => iff_congr (placedWidth_lt_iff hu).symm Iff.rfl

/-- The clipped text fits if and only if the end that is kept leaves room for the mark. -/
theorem width_clip_le_iff :
    width (clip columns t) ≤ columns ↔
      width t ≤ columns ∨ columns = 0 ∨ width (keptEnd columns t) < columns := by
  by_cases hwhole : width t ≤ columns
  · rw [clip_of_le hwhole]
    exact ⟨.inl, fun _ => hwhole⟩
  have hlt : columns < width t := Nat.lt_of_not_le hwhole
  rcases Nat.eq_zero_or_pos columns with rfl | hcolumns
  · rw [(isClipped_clip 0 t).empty rfl hlt]
    exact ⟨fun _ => .inr (.inl rfl), fun _ => Nat.le_refl 0⟩
  · rw [clip_of_lt hcolumns hlt, width_cutMark_cons_le_iff hcolumns]
    constructor
    · exact fun h => .inr (.inr h)
    · exact fun h => (h.resolve_left hwhole).resolve_left (Nat.ne_of_gt hcolumns)

/-- Clipping again changes a text that is still too wide, unless its characters fill the columns one
by one: it puts another mark in front. -/
theorem clip_clip_iff :
    clip columns (clip columns t) = clip columns t ↔
      width (clip columns t) ≤ columns ∨ placedWidth (clip columns t) = columns := by
  by_cases hfits : width (clip columns t) ≤ columns
  · exact ⟨fun _ => .inl hfits, fun _ => clip_of_le hfits⟩
  -- The text was cut, and what is left of it is too wide.
  have hnot := mt width_clip_le_iff.2 hfits
  have hlt : columns < width t := Nat.lt_of_not_le fun h => hnot (.inl h)
  have hcolumns : 0 < columns := Nat.pos_of_ne_zero fun h => hnot (.inr (.inl h))
  have hkept : placedWidth (keptEnd columns t) < columns :=
    (isLongestEnd_keptEnd hcolumns hlt).fits
  have hplaced : placedWidth (cutMark :: keptEnd columns t) =
      placedWidth (keptEnd columns t) + 1 := placedWidth_cutMark_cons _
  rw [clip_of_lt hcolumns (Nat.lt_of_not_le hfits), keptEnd_of_lt hcolumns (Nat.lt_of_not_le hfits)]
  rw [clip_of_lt hcolumns hlt] at hfits ⊢
  constructor
  · intro hsame
    refine .inr (by_contra fun hne => ?_)
    rw [fittingEnd_eq_self (by omega)] at hsame
    exact List.cons_ne_self _ _ hsame
  · rintro (h | h)
    · exact absurd h hfits
    · rw [fittingEnd_cons_of_lt (by omega) (by omega)]

/-- Where the two measures agree, the clipped text is the longest that fits. -/
theorem IsSumOfCharacters.isClipped (h : IsSumOfCharacters t) (columns : Nat) :
    IsClipped width columns t (clip columns t) := by
  refine isClipped_width_iff.2 (.inr (.inr fun u hu => ?_))
  rw [placedWidth_lt_iff hu]
  refine exists_congr fun v => and_congr_right fun hv => ?_
  rw [h v hv]

theorem IsSumOfCharacters.width_clip_le (h : IsSumOfCharacters t) (columns : Nat) :
    width (clip columns t) ≤ columns := by
  rw [width_clip_le_iff]
  rcases isClipped_iff.1 (h.isClipped columns) with hwhole | hzero | hend
  · exact .inl hwhole
  · exact .inr (.inl hzero)
  · exact .inr (.inr hend.fits)

end

/-- **What clipping does to any text.** It keeps the longest end that leaves room for the mark as
its characters are placed one by one, and more with more columns. That end is the longest as texts
are measured if and only if each end fits one by one exactly when it is part of an end that fits;
the clipped text is no wider than the columns if and only if the end kept leaves room for the mark
as it is measured; and clipping again changes a clipped text if and only if it is too wide although
its characters do not fill the columns. Where the two measures agree on every end of the text, the
clipped text is the longest that fits, and clipping it again changes nothing. -/
theorem clip_by_characters (columns : Nat) (t : Text) :
    IsClipped placedWidth columns t (clip columns t) ∧
      (clip columns t = keptEnd columns t ∨ clip columns t = cutMark :: keptEnd columns t) ∧
      (∀ more, columns ≤ more → keptEnd columns t <:+ keptEnd more t) ∧
      (IsClipped width columns t (clip columns t) ↔
        width t ≤ columns ∨ columns = 0 ∨ ∀ u, u <:+ t →
          (placedWidth u < columns ↔ ∃ v, v <:+ t ∧ u <:+ v ∧ width v < columns)) ∧
      (width (clip columns t) ≤ columns ↔
        width t ≤ columns ∨ columns = 0 ∨ width (keptEnd columns t) < columns) ∧
      (clip columns (clip columns t) = clip columns t ↔
        width (clip columns t) ≤ columns ∨ placedWidth (clip columns t) = columns) ∧
      (IsSumOfCharacters t →
        IsClipped width columns t (clip columns t) ∧ width (clip columns t) ≤ columns ∧
          clip columns (clip columns t) = clip columns t) := by
  refine ⟨isClipped_clip columns t, clip_eq_or columns t, fun more h => keptEnd_isSuffix h t,
    isClipped_width_iff, width_clip_le_iff, clip_clip_iff, fun h => ?_⟩
  have hfits := h.width_clip_le columns
  exact ⟨h.isClipped columns, hfits, clip_of_le hfits⟩

/-- Two ideographs and a letter with an accent behind digits: beside the mark the second ideograph
and the letter fit, the accent takes no column, and one column stays free. One column more is enough
for the first ideograph. -/
theorem clip_by_characters_of_ideographs :
    let accented : Text := ['e', Char.ofNat 0x301]
    let t : Text := '1' :: '2' :: Char.ofNat 0x65E5 :: Char.ofNat 0x672C :: accented
    IsSumOfCharacters t ∧ clip 5 t = cutMark :: Char.ofNat 0x672C :: accented ∧
      IsClipped width 5 t (clip 5 t) ∧ width (clip 5 t) = 4 ∧ clip 5 (clip 5 t) = clip 5 t ∧
      keptEnd 5 t <:+ keptEnd 6 t ∧
      keptEnd 6 t = Char.ofNat 0x65E5 :: Char.ofNat 0x672C :: accented := by
  intro accented t
  have halone : ∀ c ∈ t, place c {} = ((charWidth c : Int), {}) :=
    List.forall_iff_forall_mem.1 (by decide +kernel)
  have hsum : IsSumOfCharacters t := isSumOfCharacters_of_standsAlone halone
  obtain ⟨-, -, hmore, -, -, -, hclip⟩ := clip_by_characters 5 t
  obtain ⟨hlongest, -, hagain⟩ := hclip hsum
  exact ⟨hsum, by decide +kernel, hlongest, by decide +kernel, hagain, hmore 6 (by decide),
    by decide +kernel⟩

/-- Three hearts are drawn as pictures two columns wide, but a heart and its selector placed one by
one take one column. So they all fit beside the mark in four columns, and the clipped text is wider
than the whole. The longest end that fits is one heart and the selector before it. -/
theorem clip_of_hearts_too_wide :
    let heart := Char.ofNat 0x2764
    let selector := Char.ofNat 0xFE0F
    let t : Text := [heart, selector, heart, selector, heart, selector]
    (∀ c ∈ t, isControl c = false) ∧ width t = 6 ∧ clip 4 t = cutMark :: t ∧
      width (clip 4 t) = 7 ∧ ¬ IsClipped width 4 t (clip 4 t) ∧
      IsClipped width 4 t [cutMark, selector, heart, selector] ∧
      width [cutMark, selector, heart, selector] = 3 := by
  intro heart selector t
  have hwidth : width t = 6 := by decide +kernel
  have hclip : clip 4 t = cutMark :: t := by decide +kernel
  have hcontrol : ∀ c ∈ t, isControl c = false :=
    List.forall_iff_forall_mem.1 (by decide +kernel)
  refine ⟨hcontrol, hwidth, hclip, by decide +kernel, fun h => ?_, ?_, by decide +kernel⟩
  · obtain ⟨kept, hkept, hend⟩ := h.marked (by decide) (by omega)
    rw [hclip] at hkept
    have hfits : width kept < 4 := hend.fits
    rw [← (List.cons.inj hkept).2] at hfits
    omega
  · have hends : ∀ u ∈ t.tails, width u < 4 → u <:+ [selector, heart, selector] := by
      decide +kernel
    exact ⟨fun h => by omega, by decide, fun _ _ => ⟨_, rfl, by decide +kernel, by decide +kernel,
      fun u hu => hends u ((List.mem_tails u t).2 hu)⟩⟩

end PocketCalc.Text
