import DocQuery.Json.Print
import DocQuery.Binary64.Text

/-!
# Join keys

Rows are joined on the text of their key values, so that values which are equal as keys meet
in one bucket. A number's key is its value as a binary64 number: an integral value below
`2^63` in magnitude is written as a decimal integer, so `1`, `1.0` and `-0.0` give `"1"`,
`"1"` and `"0"`; any other number is written positionally with its shortest digits and never
an exponent. Other values are keyed by their compact JSON text, so the string `"1"` keys as
`"\"1\""` and never meets the number `1`. `null` has no key.
-/

namespace DocQuery

namespace Json

/-- Key text of a non-integral or large number: shortest digits, a tie to the larger
candidate, always positional, nothing after an integral value. -/
def keyStyle : FloatStyle :=
  { tie := .up, positional := none, integralMark := "", exponentMark := "e",
    exponentPlus := "" }

/-- The join key of a value; `null` has none. -/
def key? : Json → Option String
  | .null => none
  | .num n =>
    let f := n.toBinary64
    if f.isIntegral && f.absLtPow2 63 then some (toString f.truncate) else some (keyStyle.render f)
  | v => some v.compact

end Json

end DocQuery
