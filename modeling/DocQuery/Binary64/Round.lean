import DocQuery.Binary64.Basic

/-!
# Rounding to binary64

A real number given as a quotient of naturals is rounded to the nearest binary64 magnitude,
a half going to the neighbour with the even significand. Below `2^53` units every whole
count of units is representable; above it the step doubles with each binade, so the
quotient is divided by the step, rounded to a whole number, and multiplied back. A result
past the largest finite magnitude is an overflow.
-/

namespace DocQuery

namespace Binary64

/-- Significant bits of a binary64 value, the hidden bit included. -/
def precision : Nat := 53

/-- The largest finite magnitude, `(2^53 - 1) * 2^971`, in units. -/
def maxUnits : Nat := (Nat.pow 2 53 - 1) * Nat.pow 2 2045

/-- The natural number nearest to `num / den`, a half going to the even neighbour. -/
def nearestEven (num den : Nat) : Nat :=
  let q := num / den
  let r := num % den
  if 2 * r < den then q
  else if den < 2 * r then q + 1
  else if q % 2 = 0 then q else q + 1

/-- The magnitude, in units, that is nearest to `num / den` units among those with at most
53 significant bits, with no upper bound on the exponent. A half goes to the even
significand; a carry into the next binade gives its power of two. -/
def roundUnits (num den : Nat) : Nat :=
  let whole := num / den
  if whole < Nat.pow 2 precision then nearestEven num den
  else
    let shift := Nat.log2 whole + 1 - precision
    nearestEven num (den * Nat.pow 2 shift) * Nat.pow 2 shift

/-- The binary64 value nearest to `num / den` units with the given sign, or `none` when the
rounded magnitude is past the largest finite one. -/
def ofUnitRatio? (neg : Bool) (num den : Nat) : Option Binary64 :=
  let u := roundUnits num den
  if u ≤ maxUnits then some ⟨neg, u⟩ else none

/-- The binary64 value nearest to an integer whose magnitude is below `2^1024`. -/
def ofInt (n : Int) : Binary64 := ⟨decide (n < 0), roundUnits (n.natAbs * unitsPerOne) 1⟩

/-- The correctly rounded product, or `none` on overflow. -/
def mul? (x y : Binary64) : Option Binary64 :=
  ofUnitRatio? (x.neg != y.neg) (x.units * y.units) unitsPerOne

/-- The correctly rounded quotient by a nonzero value, or `none` on overflow. -/
def div? (x y : Binary64) : Option Binary64 :=
  ofUnitRatio? (x.neg != y.neg) (x.units * unitsPerOne) y.units

theorem nearestEven_le_succ (num den : Nat) : nearestEven num den ≤ num / den + 1 := by
  unfold nearestEven; dsimp only; split <;> (try split) <;> (try split) <;> omega

theorem div_le_nearestEven (num den : Nat) : num / den ≤ nearestEven num den := by
  unfold nearestEven; dsimp only; split <;> (try split) <;> (try split) <;> omega

end Binary64

end DocQuery
