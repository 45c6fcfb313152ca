import PocketCalc.Decimal.Basic

/-!
# The shortest decimal that reads back

Every magnitude is a whole number of units of `10 ^ -1074`, so the decimal grids to try are the
multiples of `10 ^ g` such units, coarse ones first. On a grid only the two neighbours of the
magnitude come into question: if any multiple reads back as the magnitude, one of the neighbours
does. The first grid with such a neighbour gives the fewest digits. `coarsest` finds it, and
`reads_shortest` says that the result reads back.
-/

namespace PocketCalc

/-- The largest of the numbers from `n` down to one for which there is something, with what there
is for it. -/
def coarsest {β : Type} (find? : Nat → Option β) : Nat → Option (β × Nat)
  | 0 => none
  | n + 1 =>
    match find? (n + 1) with
    | some b => some (b, n + 1)
    | none => coarsest find? n

/-- What is found belongs to the number found, and there is nothing for larger numbers. -/
theorem coarsest_eq_some {β : Type} {find? : Nat → Option β} {n g : Nat} {b : β}
    (h : coarsest find? n = some (b, g)) :
    find? g = some b ∧ ∀ k, g < k → k ≤ n → find? k = none := by
  induction n with
  | zero => simp [coarsest] at h
  | succ n ih =>
    rw [coarsest] at h
    split at h
    · next found =>
      obtain ⟨rfl, rfl⟩ := Prod.mk.inj (Option.some.inj h)
      exact ⟨found, fun k above below => by omega⟩
    · next missing =>
      refine ⟨(ih h).1, fun k above below => ?_⟩
      rcases Nat.lt_or_eq_of_le below with inside | rfl
      · exact (ih h).2 k above (by omega)
      · exact missing

namespace Binary64.Magnitude

/-- The number of units of `10 ^ -1074` in one unit of `2 ^ -1074`. -/
def fineness : Nat :=
  Nat.pow 5 unitExponent

theorem fineness_pos : 0 < fineness :=
  Nat.pow_pos (Nat.zero_lt_succ 4)

/-- The magnitude in units of `10 ^ -1074`. -/
def fine (m : Magnitude) : Nat :=
  m.units * fineness

/-- Whether `n` units of `10 ^ -1074` are rounded to the magnitude. -/
def Reads (m : Magnitude) (n : Nat) : Prop :=
  roundToGrid n fineness = m.units

instance (m : Magnitude) (n : Nat) : Decidable (m.Reads n) :=
  inferInstanceAs (Decidable (_ = _))

/-- The multiple of `10 ^ g` next to the magnitude that reads back, as the factor of `10 ^ g`; of
two, the nearer one, and the upper one if both are equally near. -/
def neighbour? (m : Magnitude) (g : Nat) : Option Nat :=
  let gap := Nat.pow 10 g
  let below := m.fine / gap
  if m.Reads (below * gap) then
    if m.Reads ((below + 1) * gap) ∧ gap ≤ 2 * (m.fine % gap) then some (below + 1)
    else some below
  else if m.Reads ((below + 1) * gap) then some (below + 1)
  else none

/-- An exponent `g` for which `10 ^ g` is above the magnitude, since `2 ^ 93 < 10 ^ 28`. -/
def topGrid (m : Magnitude) : Nat :=
  (m.fine.log2 + 1) * 28 / 93 + 1

/-- The decimal with the fewest digits that reads back as the magnitude, and of those the nearest
to it. The magnitude itself is a decimal, so there is always one. -/
def shortest (m : Magnitude) : Decimal :=
  ((coarsest m.neighbour? m.topGrid).map fun (c, g) => ⟨c, g - unitExponent⟩).getD
    ⟨m.fine, -unitExponent⟩

theorem reads_fine (m : Magnitude) : m.Reads m.fine := by
  have scaled := roundToGrid_mul_left fineness_pos m.units 1
  rw [Nat.mul_one, Nat.mul_comm, roundToGrid_of_onGrid m.onGrid] at scaled
  exact scaled

theorem reads_of_neighbour? {m : Magnitude} {g c : Nat} (h : m.neighbour? g = some c) :
    m.Reads (c * Nat.pow 10 g) := by
  simp only [neighbour?] at h
  split at h
  · next below =>
    split at h
    · next above => exact Option.some.inj h ▸ above.1
    · exact Option.some.inj h ▸ below
  · split at h
    · next above => exact Option.some.inj h ▸ above
    · exact absurd h (by simp)

theorem reads_shortest (m : Magnitude) :
    ∃ c g : Nat, m.shortest = ⟨c, (g : Int) - unitExponent⟩ ∧ m.Reads (c * Nat.pow 10 g) := by
  rw [shortest]
  cases h : coarsest m.neighbour? m.topGrid with
  | some found => exact ⟨found.1, found.2, rfl, reads_of_neighbour? (coarsest_eq_some h).1⟩
  | none =>
    refine ⟨m.fine, 0, by simp, ?_⟩
    rw [Nat.pow_eq, Nat.pow_zero, Nat.mul_one]
    exact m.reads_fine

end Binary64.Magnitude

end PocketCalc
