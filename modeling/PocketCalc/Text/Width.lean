import PocketCalc.Text.Sequel

/-!
# The width of a text

How many columns of a terminal a text takes. It is read from its end, each character before what
follows it. Where every character stands alone, the width is that of the characters placed one by
one (`width_eq_placedWidth`), and a printable ASCII text is as wide as it is long
(`width_eq_length`).
-/

namespace PocketCalc.Text

/-- The columns of a text, and what it is to a character before it. -/
def measure (t : Text) : Int × Context :=
  t.foldr (fun c m => (m.1 + (place c m.2).1, (place c m.2).2)) (0, {})

/-- The columns that a text takes. -/
def width (t : Text) : Nat :=
  (measure t).1.toNat

theorem measure_cons (c : Char) (t : Text) :
    measure (c :: t) =
      ((measure t).1 + (place c (measure t).2).1, (place c (measure t).2).2) := rfl

/-- A character that stands alone takes its own columns and changes nothing before it. -/
def StandsAlone (c : Char) : Prop :=
  place c {} = ((charWidth c : Int), {})

theorem measure_of_standsAlone {t : Text} (h : ∀ c ∈ t, StandsAlone c) :
    measure t = ((placedWidth t : Int), {}) := by
  induction t with
  | nil => rfl
  | cons c rest ih =>
    rw [measure_cons, ih fun d hd => h d (List.mem_cons_of_mem _ hd),
      h c (List.mem_cons_self ..), placedWidth]
    simp [Int.add_comm]

/-- Where every character stands alone, a text is as wide as its characters together. -/
theorem width_eq_placedWidth {t : Text} (h : ∀ c ∈ t, StandsAlone c) :
    width t = placedWidth t := by
  rw [width, measure_of_standsAlone h, Int.toNat_natCast]

theorem standsAlone_of_printable {c : Char} (low : 0x20 ≤ c.toNat) (high : c.toNat < 0x7F) :
    StandsAlone c := by
  rw [StandsAlone, place_of_printable low high, charWidth_of_printable low high, Int.natCast_one]

/-- A text of printable ASCII characters is as wide as it is long. -/
theorem width_eq_length {t : Text} (h : ∀ c ∈ t, 0x20 ≤ c.toNat ∧ c.toNat < 0x7F) :
    width t = t.length := by
  rw [width_eq_placedWidth fun c hc => standsAlone_of_printable (h c hc).1 (h c hc).2]
  induction t with
  | nil => rfl
  | cons c rest ih =>
    have first := h c (List.mem_cons_self ..)
    rw [placedWidth, charWidth_of_printable first.1 first.2,
      ih fun d hd => h d (List.mem_cons_of_mem _ hd), List.length_cons, Nat.add_comm]

end PocketCalc.Text
