import DocQuery.Binary64.Shortest

/-!
# Text of binary64 values

A format writes a value as its shortest decimal, either positionally or with an exponent.
The choices a format makes are the fields of a `FloatStyle`: which exponents are written
positionally, what follows an integral value, how the exponent and its sign are marked, and
which of two equally near candidates wins.
-/

namespace DocQuery

/-- The decisions a format makes when it writes a binary64 value. -/
structure FloatStyle where
  /-- The winner between two equally near shortest candidates. -/
  tie : Tie
  /-- The exponents of the leading digit that are written positionally, as an inclusive
  range; `none` writes every value positionally. -/
  positional : Option (Int × Int)
  /-- Written after an integral value in positional notation, such as `.0`. -/
  integralMark : String
  /-- Written between the digits and the exponent. -/
  exponentMark : String
  /-- Written before a nonnegative exponent, such as `+`; a negative one has its `-`. -/
  exponentPlus : String

namespace FloatStyle

/-- A run of `n` zeros. -/
def zeros (n : Nat) : String := String.ofList (List.replicate n '0')

/-- The text of a decimal with nonzero digits and no trailing zero. -/
def renderDecimal (style : FloatStyle) (d : Decimal) : String :=
  let digits := (Nat.toDigits 10 d.digits)
  let n : Int := digits.length
  let lead := n + d.exponent - 1
  let positional := match style.positional with
    | none => true
    | some (lo, hi) => decide (lo ≤ lead ∧ lead ≤ hi)
  if positional then
    if 0 ≤ d.exponent then
      String.ofList digits ++ zeros d.exponent.toNat ++ style.integralMark
    else if 0 < n + d.exponent then
      let point := (n + d.exponent).toNat
      String.ofList (digits.take point) ++ "." ++ String.ofList (digits.drop point)
    else
      "0." ++ zeros (-(n + d.exponent)).toNat ++ String.ofList digits
  else
    let rest := digits.drop 1
    let mantissa := String.ofList (digits.take 1) ++
      (if rest.isEmpty then "" else "." ++ String.ofList rest)
    let sign := if 0 ≤ lead then style.exponentPlus else ""
    mantissa ++ style.exponentMark ++ sign ++ toString lead

/-- The text of a finite binary64 value in this style. -/
def render (style : FloatStyle) (x : Binary64) : String :=
  let sign := if x.neg then "-" else ""
  if x.units = 0 then sign ++ "0" ++ style.integralMark
  else sign ++ style.renderDecimal (Binary64.shortest style.tie x.units)

end FloatStyle

end DocQuery
