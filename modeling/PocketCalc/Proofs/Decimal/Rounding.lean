import PocketCalc.Proofs.Binary64.TiesToEven
import PocketCalc.Proofs.Decimal.Places

/-!
# The rounding of results

Rounding a result goes by its text: the number is written with exactly twelve places
(`Binary64.fixed`), and the text is read again. Both steps take what is nearest and of two equally
near candidates the even one, in the decimals with twelve places and on the binary64 grid.
`Binary64.RoundsTo` says so without calculating, and `roundsTo_iff` that it describes `roundResult`.

Main theorem `roundResult_settled`: a rounded number is rounded to itself.
-/

namespace PocketCalc.Binary64

/-- The number written with exactly the given number of places, the last one rounded to the nearest,
ties to even; a number that is not finite is written as usual. -/
def fixed (places : Nat) : Binary64 → Text
  | .finite s m =>
    signText s ++ (⟨divNearest (m.units * Nat.pow 10 places) one, -places⟩ : Decimal).text
  | x => x.text

/-- Rounding to twelve places, in two steps: `d` is the whole number of last places nearest to `x`,
and `y` the finite number of the sign of `x` nearest to `d` last places. A number that is not
finite stays as it is. -/
def RoundsTo : Binary64 → Binary64 → Prop
  | .finite s m, y =>
    ∃ (d : Nat) (n : Magnitude), y = .finite s n ∧
      TiesToEven (fun _ => True) Even (m.units * placeCount) one d ∧
      TiesToEven OnGrid (fun u => Even (significand u)) (d * one) placeCount n.units
  | x, y => y = x

/-- What is written with twelve places is read as the rounded number. -/
theorem ofText_fixed (x : Binary64) : ofText (x.fixed displayPlaces) = x.roundResult := by
  cases x with
  | nan => exact ofText_text .nan
  | infinite s => exact ofText_text (.infinite s)
  | finite s m =>
    unfold fixed
    rw [ofText_decimal]
    rfl

theorem roundsTo_roundResult (x : Binary64) : x.RoundsTo x.roundResult := by
  cases x with
  | nan | infinite => rfl
  | finite s m =>
    obtain ⟨n, hn, hunits⟩ := roundResult_finite s m
    refine ⟨divNearest (m.units * placeCount) one, n, hn, tiesToEven_divNearest _ one_pos, ?_⟩
    rw [hunits]
    exact tiesToEven_roundToGrid _ placeCount_pos

theorem RoundsTo.unique {x y z : Binary64} (hy : x.RoundsTo y) (hz : x.RoundsTo z) : y = z := by
  cases x with
  | nan | infinite => exact Eq.trans hy (Eq.symm hz)
  | finite s m =>
    obtain ⟨d, n, rfl, hd, hn⟩ := hy
    obtain ⟨d', n', rfl, hd', hn'⟩ := hz
    obtain rfl : d = d' := hd.unique alternating_nat one_pos hd'
    have hunits : n.units = n'.units := hn.unique alternating_grid placeCount_pos hn'
    rw [Magnitude.ext hunits]

theorem roundsTo_iff {x y : Binary64} : x.RoundsTo y ↔ y = x.roundResult := by
  constructor
  · intro h
    exact h.unique (roundsTo_roundResult x)
  · rintro rfl
    exact roundsTo_roundResult x

/-- **A rounded number is rounded to itself**, bit for bit. Rounding means: the number is written
with twelve places and read again, each time to the nearest candidate, ties to even. -/
theorem roundResult_settled (x : Binary64) :
    x.roundResult.roundResult = x.roundResult ∧
      x.roundResult = ofText (x.fixed displayPlaces) ∧
      ∀ y, x.RoundsTo y ↔ y = x.roundResult :=
  ⟨roundResult_roundResult x, (ofText_fixed x).symm, fun _ => roundsTo_iff⟩

end PocketCalc.Binary64
