/-!
# Finite binary64 values

Every finite binary64 magnitude is a whole multiple of the smallest subnormal, `2^-1074`.
A value is therefore stored as a sign and that multiple, its count of *units*. Equality,
order, the integral test and the conversions to integers are exact arithmetic on these
counts, with no rounding anywhere.
-/

namespace DocQuery

/-- A finite binary64 value, `(-1)^neg * units * 2^-1074`. The values that rounding
produces have at most 53 significant bits in `units` and stay below `2^1024`; the sign of a
zero is kept because it is printed. -/
structure Binary64 where
  neg : Bool
  units : Nat
  deriving DecidableEq, Repr

namespace Binary64

/-- The exponent of the smallest step: one unit is `2^-unitExp`. -/
def unitExp : Nat := 1074

/-- The number of units in one. -/
def unitsPerOne : Nat := Nat.pow 2 unitExp

/-- Positive zero. -/
def zero : Binary64 := ⟨false, 0⟩

/-- The value as a signed count of units; both zeros give `0`. -/
def toUnits (x : Binary64) : Int := if x.neg then -(x.units : Int) else x.units

/-- Equality of binary64 values as numbers: `0.0` equals `-0.0`. -/
def numEq (x y : Binary64) : Bool := x.toUnits == y.toUnits

/-- The order of binary64 values as numbers. -/
def cmp (x y : Binary64) : Ordering := compare x.toUnits y.toUnits

/-- The value has no fractional part. -/
def isIntegral (x : Binary64) : Bool := x.units % unitsPerOne == 0

/-- The value with its fractional part dropped, rounded toward zero. -/
def truncate (x : Binary64) : Int :=
  let whole : Nat := x.units / unitsPerOne
  if x.neg then -(whole : Int) else whole

/-- The conversion to an unsigned 64-bit count that saturates: a negative value gives `0`
and a value of `2^64` or more gives `2^64 - 1`; otherwise the fraction is dropped. -/
def toCountSat (x : Binary64) : Nat :=
  if x.neg then 0 else min (x.units / unitsPerOne) (Nat.pow 2 64 - 1)

/-- The magnitude is below `2^k`. -/
def absLtPow2 (x : Binary64) (k : Nat) : Bool := x.units < Nat.pow 2 (k + unitExp)

theorem numEq_refl (x : Binary64) : x.numEq x = true := by
  simp [numEq]

end Binary64

end DocQuery
