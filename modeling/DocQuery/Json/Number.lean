import DocQuery.Binary64.Round

/-!
# JSON numbers

A JSON number is held either as an integer, when its literal had no fraction or exponent
and fits a 64-bit word (unsigned, or signed when negative), or as a finite binary64 value.
The two kinds are never equal to each other, even when they denote the same real number;
comparisons that should ignore the kind go through `Number.toBinary64`.
-/

namespace DocQuery

/-- A JSON number: an integer from `-2^63` to `2^64 - 1`, or a finite binary64 value. -/
inductive Number where
  | int (n : Int)
  | float (x : Binary64)
  deriving DecidableEq, Repr

namespace Number

/-- The largest integer that a number holds as an integer, `2^64 - 1`. -/
def maxWord : Nat := Nat.pow 2 64 - 1

/-- The largest signed 64-bit integer, `2^63 - 1`. -/
def maxSigned : Int := Int.pow 2 63 - 1

/-- The binary64 value nearest to the number: integers are rounded, floats kept. -/
def toBinary64 : Number → Binary64
  | .int n => Binary64.ofInt n
  | .float x => x

/-- The number as an unsigned 64-bit count, when it is held as a nonnegative integer. -/
def toWord? : Number → Option Nat
  | .int n => if 0 ≤ n then some n.toNat else none
  | .float _ => none

/-- The number as a signed 64-bit integer, when it is held as an integer that fits one. -/
def toSigned? : Number → Option Int
  | .int n => if n ≤ maxSigned then some n else none
  | .float _ => none

/-- Equality of numbers of the same kind: integers by value, floats as numbers, so `0.0`
equals `-0.0`; an integer never equals a float. -/
def equal : Number → Number → Bool
  | .int a, .int b => a == b
  | .float x, .float y => x.numEq y
  | _, _ => false

end Number

end DocQuery
