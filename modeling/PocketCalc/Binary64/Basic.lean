import PocketCalc.Binary64.Rounding

/-!
# Binary64 numbers

A number is not a number at all, a signed infinity, or finite: a sign and a magnitude that lies on
the grid. Arithmetic is done on the exact values and rounded once, to the nearest grid point with
ties to an even significand; what rounds to `2 ^ 1024` or more becomes infinite. There is one
`nan`, and an operation with a `nan` operand gives `nan`.
-/

namespace PocketCalc

namespace Binary64

/-- Units are `2 ^ -unitExponent`. The number stays folded in proofs: its powers are too large to
be computed step by step. -/
@[irreducible] def unitExponent : Nat :=
  1074

/-- The number of units in one. -/
def one : Nat :=
  Nat.pow 2 unitExponent

/-- The number of units in `2 ^ 1024`, the first magnitude too large to be finite. -/
def limit : Nat :=
  Nat.pow 2 (1024 + unitExponent)

theorem one_pos : 0 < one :=
  Nat.two_pow_pos _

theorem limit_pos : 0 < limit :=
  Nat.two_pow_pos _

/-- The magnitude of a finite number, in units of `2 ^ -1074`. -/
structure Magnitude where
  units : Nat
  onGrid : OnGrid units
  small : units < limit
deriving DecidableEq

end Binary64

/-- A binary64 number. -/
inductive Binary64 where
  | nan
  | infinite (negative : Bool)
  | finite (negative : Bool) (magnitude : Binary64.Magnitude)
deriving DecidableEq

namespace Binary64

theorem Magnitude.ext {m n : Magnitude} (h : m.units = n.units) : m = n := by
  cases m; cases n; cases h; rfl

/-- The number with the given sign whose magnitude is nearest to `num / den` units, infinite if
that is too large. -/
def nearest (negative : Bool) (num den : Nat) : Binary64 :=
  if h : roundToGrid num den < limit then
    .finite negative ⟨roundToGrid num den, onGrid_roundToGrid num den, h⟩
  else
    .infinite negative

def zero : Binary64 :=
  .finite false ⟨0, rfl, limit_pos⟩

/-- A finite magnitude is nearest to itself. -/
theorem nearest_units (negative : Bool) (m : Magnitude) :
    nearest negative m.units 1 = .finite negative m := by
  simp [nearest, roundToGrid_of_onGrid m.onGrid, m.small]

/-- Whether the number is one of the two zeros. -/
def isZero : Binary64 → Bool
  | .finite _ m => m.units == 0
  | _ => false

def isFinite : Binary64 → Bool
  | .finite .. => true
  | _ => false

def isNan : Binary64 → Bool
  | .nan => true
  | _ => false

/-- A magnitude with its sign, as an integer number of units. -/
def signed (negative : Bool) (m : Magnitude) : Int :=
  if negative then -m.units else m.units

@[simp] theorem signed_true (m : Magnitude) : signed true m = -m.units := rfl

@[simp] theorem signed_false (m : Magnitude) : signed false m = m.units := rfl

theorem natAbs_signed (s : Bool) (m : Magnitude) : (signed s m).natAbs = m.units := by
  cases s <;> simp [signed]

def neg : Binary64 → Binary64
  | .nan => .nan
  | .infinite s => .infinite !s
  | .finite s m => .finite (!s) m

/-- The sum. An exact zero is negative only as the sum of two negative zeros. -/
def add : Binary64 → Binary64 → Binary64
  | .finite s m, .finite t n =>
    let sum := signed s m + signed t n
    nearest (if sum = 0 then s && t else sum < 0) sum.natAbs 1
  | .infinite s, .infinite t => if s = t then .infinite s else .nan
  | .infinite s, .finite .. => .infinite s
  | .finite .., .infinite t => .infinite t
  | .nan, _ => .nan
  | _, .nan => .nan

/-- The difference: the sum with the opposite of the second operand. -/
def sub (x y : Binary64) : Binary64 :=
  add x (neg y)

/-- The product. Zero times an infinity is `nan`. -/
def mul : Binary64 → Binary64 → Binary64
  | .finite s m, .finite t n => nearest (s != t) (m.units * n.units) one
  | .infinite s, .infinite t => .infinite (s != t)
  | .infinite s, .finite t n => if n.units = 0 then .nan else .infinite (s != t)
  | .finite s m, .infinite t => if m.units = 0 then .nan else .infinite (s != t)
  | .nan, _ => .nan
  | _, .nan => .nan

/-- The quotient. A nonzero number over zero is infinite; zero over zero is `nan`. -/
def div : Binary64 → Binary64 → Binary64
  | .finite s m, .finite t n =>
    if n.units = 0 then
      if m.units = 0 then .nan else .infinite (s != t)
    else
      nearest (s != t) (m.units * one) n.units
  | .infinite s, .finite t _ => .infinite (s != t)
  | .finite s _, .infinite t => nearest (s != t) 0 1
  | .infinite _, .infinite _ => .nan
  | .nan, _ => .nan
  | _, .nan => .nan

instance : Add Binary64 := ⟨add⟩
instance : Sub Binary64 := ⟨sub⟩
instance : Mul Binary64 := ⟨mul⟩
instance : Div Binary64 := ⟨div⟩
instance : Neg Binary64 := ⟨neg⟩

@[simp] theorem nan_add (x : Binary64) : .nan + x = .nan := by
  cases x <;> rfl

@[simp] theorem add_nan (x : Binary64) : x + .nan = .nan := by
  cases x <;> rfl

@[simp] theorem nan_sub (x : Binary64) : .nan - x = .nan := by
  cases x <;> rfl

@[simp] theorem sub_nan (x : Binary64) : x - .nan = .nan := by
  cases x <;> rfl

@[simp] theorem nan_mul (x : Binary64) : .nan * x = .nan := by
  cases x <;> rfl

@[simp] theorem mul_nan (x : Binary64) : x * .nan = .nan := by
  cases x <;> rfl

@[simp] theorem nan_div (x : Binary64) : .nan / x = .nan := by
  cases x <;> rfl

@[simp] theorem div_nan (x : Binary64) : x / .nan = .nan := by
  cases x <;> rfl

end Binary64

end PocketCalc
