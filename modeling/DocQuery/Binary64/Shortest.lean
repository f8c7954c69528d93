import DocQuery.Binary64.Round

/-!
# Shortest decimal digits of a binary64 value

A value's shortest text is a decimal with the fewest significant digits strictly between the
midpoints to its neighbours, or on them when its significand is even. For one digit, then two,
and so on, the search looks at the value's two neighbours on that grid, the first grid with one
inside giving the digits; an exact tie follows a rule of the format, and seventeen digits always
suffice.
-/

namespace DocQuery

/-- A decimal number `digits * 10^exponent`. -/
structure Decimal where
  digits : Nat
  exponent : Int
  deriving DecidableEq, Repr

namespace Decimal

/-- The same number with the trailing zeros of its digits moved into the exponent. -/
def trim (digits : Nat) (exponent : Int) : Decimal :=
  if h : digits ≠ 0 ∧ digits % 10 = 0 then trim (digits / 10) (exponent + 1)
  else ⟨digits, exponent⟩
termination_by digits
decreasing_by omega

end Decimal

/-- Which of two equally near candidates a format writes. -/
inductive Tie where
  /-- The one whose last digit is even. -/
  | toEven
  /-- The larger one. -/
  | up
  deriving DecidableEq, Repr

namespace Binary64

/-- The exponent `s` of the step `2^s` units from a magnitude `u` to the next larger one. -/
def stepExp (u : Nat) : Nat := if u < Nat.pow 2 precision then 0 else Nat.log2 u - (precision - 1)

/-- The two ends of the interval of reals that round to the magnitude `u`, in quarter units.
Above `u` the end is half a step away. Below it the end is half the step below, which is half
as large as the step above when `u` is the lowest power of two of its binade. -/
def roundingInterval (u : Nat) : Nat × Nat :=
  let s := stepExp u
  let below := if 0 < s ∧ u = Nat.pow 2 (precision - 1 + s) then Nat.pow 2 s else Nat.pow 2 (s + 1)
  (4 * u - below, 4 * u + Nat.pow 2 (s + 1))

/-- The ends of the rounding interval belong to it: the significand of `u` is even. -/
def endsIncluded (u : Nat) : Bool := (u / Nat.pow 2 (stepExp u)) % 2 == 0

/-- Multipliers that compare a candidate `j * 10^k` with a length `x` in quarter units
exactly: the candidate is `x` when `j * fst = x * snd`. -/
def gridScale (k : Int) : Nat × Nat :=
  if 0 ≤ k then (Nat.pow 10 k.toNat * Nat.pow 2 (unitExp + 2), 1)
  else (Nat.pow 2 (unitExp + 2), Nat.pow 10 (-k).toNat)

/-- The decimal exponent of the leading digit of a nonzero magnitude `u`: the `k` with
`10^k ≤ u * 2^-1074 < 10^(k+1)`. A factor `10^400` makes the whole part at least one. -/
def leadingExp (u : Nat) : Int :=
  ((Nat.toDigits 10 (u * Nat.pow 10 400 / unitsPerOne)).length : Int) - 401

/-- The neighbour of the magnitude `u` on the grid `10^k` that lies in its rounding
interval, the nearer one if both do, and `none` if neither does. -/
def nearestOnGrid (tie : Tie) (u : Nat) (k : Int) : Option Nat :=
  let (lo, hi) := roundingInterval u
  let (a, b) := gridScale k
  let x := 4 * u * b
  let below := x / a
  let above := if x % a = 0 then below else below + 1
  let inside (j : Nat) : Bool :=
    if endsIncluded u then lo * b ≤ j * a && j * a ≤ hi * b
    else lo * b < j * a && j * a < hi * b
  match inside below, inside above with
  | true, true =>
    if x - below * a < above * a - x then some below
    else if above * a - x < x - below * a then some above
    else match tie with
      | .toEven => some (if below % 2 = 0 then below else above)
      | .up => some above
  | true, false => some below
  | false, true => some above
  | false, false => none

/-- The shortest decimal of a nonzero magnitude `u`: the fewest significant digits whose
number rounds to `u`, and of two such numbers the nearer one. -/
def shortest (tie : Tie) (u : Nat) : Decimal :=
  let top := leadingExp u
  let found := (List.range 17).findSome? fun (i : Nat) =>
    (nearestOnGrid tie u (top - i)).map fun j => (j, top - (i : Int))
  found.elim (Decimal.trim (u * Nat.pow 5 unitExp) (-(unitExp : Int)))
    fun found => Decimal.trim found.1 found.2

end Binary64

end DocQuery
