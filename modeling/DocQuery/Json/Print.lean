import DocQuery.Json.Basic
import DocQuery.Binary64.Text

/-!
# Compact JSON text

Values are written with no blank between tokens, object entries in their order. A string
escapes the quote, the backslash and the control characters, using the short escapes where
JSON has them and `\u00xx` with lowercase hex digits otherwise; every other character,
non-ASCII ones included, is written as itself. Integers are written in decimal, floats as
their shortest decimal, positionally from `1e-5` up to below `1e16`, always with a point or
an exponent.
-/

namespace DocQuery

namespace Number

/-- Floats in JSON text: the shortest digits, a tie to the even candidate, positional for
leading-digit exponents from `-5` to `15` with `.0` after an integral value, and otherwise
`e` and the exponent with its sign, `+` or `-`. -/
def jsonStyle : FloatStyle :=
  { tie := .toEven, positional := some (-5, 15), integralMark := ".0", exponentMark := "e",
    exponentPlus := "+" }

/-- The JSON text of a number. -/
def toText : Number → String
  | .int n => toString n
  | .float x => jsonStyle.render x

end Number

namespace Json

/-- The hex digit of a value below sixteen, in lowercase. -/
def hexDigit (n : Nat) : Char :=
  if n < 10 then Char.ofNat (48 + n) else Char.ofNat (87 + n)

/-- The characters that stand for one character inside a JSON string. -/
def escapeChar (c : Char) : List Char :=
  if c = '"' then ['\\', '"']
  else if c = '\\' then ['\\', '\\']
  else if c = '\n' then ['\\', 'n']
  else if c = '\r' then ['\\', 'r']
  else if c = '\t' then ['\\', 't']
  else if c.toNat = 8 then ['\\', 'b']
  else if c.toNat = 12 then ['\\', 'f']
  else if c.toNat < 32 then ['\\', 'u', '0', '0', hexDigit (c.toNat / 16), hexDigit (c.toNat % 16)]
  else [c]

/-- A string as a quoted JSON string. -/
def quote (s : String) : String :=
  String.ofList ('"' :: (s.toList.flatMap escapeChar ++ ['"']))

mutual
/-- The compact JSON text of a value. -/
def compact : Json → String
  | .null => "null"
  | .bool b => if b then "true" else "false"
  | .num n => n.toText
  | .str s => quote s
  | .arr xs => "[" ++ compactItems xs ++ "]"
  | .obj es => "\x7b" ++ compactEntries es ++ "\x7d"

/-- The items of an array, separated by commas. -/
def compactItems : List Json → String
  | [] => ""
  | [x] => compact x
  | x :: xs => compact x ++ "," ++ compactItems xs

/-- The entries of an object, separated by commas. -/
def compactEntries : List (String × Json) → String
  | [] => ""
  | [(k, v)] => quote k ++ ":" ++ compact v
  | (k, v) :: es => quote k ++ ":" ++ compact v ++ "," ++ compactEntries es
end

end Json

end DocQuery
