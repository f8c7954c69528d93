import DocQuery.Json.Print
import DocQuery.Text.Printable

/-!
# Reading typed values out of JSON

A typed reader takes a JSON value apart into a record, a list, a count or a name; another shape
is an error saying what was found and expected. A record is read from an object, unknown keys
ignored, or from an array of its fields in order, the first error winning and an absent required
field reported last. A name is read from itself or from an object holding it as its only key.
-/

namespace DocQuery

namespace Json

/-- What a reader found where it wanted a value of another shape. -/
inductive Found where
  | null
  | bool (b : Bool)
  | integer (n : Int)
  | float (x : Binary64)
  | string (s : String)
  | sequence
  | map
  deriving Repr

/-- The shape of a value. -/
def Found.ofJson : Json → Found
  | .null => .null
  | .bool b => .bool b
  | .num (.int n) => .integer n
  | .num (.float x) => .float x
  | .str s => .string s
  | .arr _ => .sequence
  | .obj _ => .map

/-- The lowercase hex digits of a number, without leading zeros. -/
def hexText (n : Nat) : String :=
  String.ofList ((Nat.toDigits 16 n).map fun (c : Char) => if c.isUpper then c.toLower else c)

/-- How one character stands inside a quoted text: the quote, the backslash and the usual
controls by a backslash escape, characters that are not printable or that combine with the
one before as a hex code, the rest as themselves. -/
def shownChar (c : Char) : String :=
  if c = '"' then "\\\""
  else if c = '\\' then "\\\\"
  else if c = '\n' then "\\n"
  else if c = '\r' then "\\r"
  else if c = '\t' then "\\t"
  else if c.toNat = 0 then "\\0"
  else if Text.isCombining c || !Text.isPrintable c then "\\u" ++ "\x7b" ++ hexText c.toNat ++ "\x7d"
  else String.singleton c

/-- A text in double quotes, as an error message shows it. -/
def shownText (s : String) : String :=
  "\"" ++ String.join (s.toList.map shownChar) ++ "\""

/-- How an error message names what was found. -/
def Found.describe : Found → String
  | .null => "null"
  | .bool b => "boolean `" ++ toString b ++ "`"
  | .integer n => "integer `" ++ toString n ++ "`"
  | .float x => "floating point `" ++ Number.toText (.float x) ++ "`"
  | .string s => "string " ++ shownText s
  | .sequence => "sequence"
  | .map => "map"

end Json

/-- Why a JSON value does not have the shape that a typed reader asks for. -/
inductive ShapeError where
  /-- A value of another kind than the expected one. -/
  | invalidType (found : Json.Found) (expected : String)
  /-- A value of the expected kind but out of its range. -/
  | invalidValue (found : Json.Found) (expected : String)
  /-- An array with too few or too many items. -/
  | invalidLength (length : Nat) (expected : String)
  /-- A name that is none of the allowed ones. -/
  | unknownVariant (name : String) (allowed : List String)
  /-- A record without one of its required fields. -/
  | missingField (name : String)
  deriving Repr

namespace ShapeError

/-- The allowed names, each in backticks: one, two joined by `or`, or a list. -/
def oneOf : List String → String
  | [] => "there are no variants"
  | [a] => "`" ++ a ++ "`"
  | [a, b] => "`" ++ a ++ "` or `" ++ b ++ "`"
  | names => "one of " ++ ", ".intercalate (names.map fun n => "`" ++ n ++ "`")

/-- The text of a shape error. -/
def message : ShapeError → String
  | .invalidType found expected => "invalid type: " ++ found.describe ++ ", expected " ++ expected
  | .invalidValue found expected => "invalid value: " ++ found.describe ++ ", expected " ++ expected
  | .invalidLength n expected => "invalid length " ++ toString n ++ ", expected " ++ expected
  | .unknownVariant name allowed => "unknown variant `" ++ name ++ "`, expected " ++ oneOf allowed
  | .missingField name => "missing field `" ++ name ++ "`"

end ShapeError

/-- A typed reading of a JSON value. -/
abbrev Shaped (α : Type) := Except ShapeError α

namespace Json

/-- The error for a value of the wrong kind. -/
def wrongType {α : Type} (v : Json) (expected : String) : Shaped α :=
  .error (.invalidType (Found.ofJson v) expected)

/-- Reads a string. -/
def readText : Json → Shaped String
  | .str s => .ok s
  | v => wrongType v "a string"

/-- Reads an unsigned 64-bit count; a negative integer is out of range and a float has the
wrong kind, even when integral. -/
def readWord : Json → Shaped Nat
  | .num (.int n) => if 0 ≤ n then .ok n.toNat else .error (.invalidValue (.integer n) "u64")
  | v => wrongType v "u64"

/-- Reads an optional value: `null` is none. -/
def readOption {α : Type} (read : Json → Shaped α) : Json → Shaped (Option α)
  | .null => .ok none
  | v => some <$> read v

/-- Reads an array item by item. -/
def readList {α : Type} (read : Json → Shaped α) : Json → Shaped (List α)
  | .arr xs => xs.mapM read
  | v => wrongType v "a sequence"

/-- Reads an object. -/
def readObject : Json → Shaped Object
  | .obj o => .ok o
  | v => wrongType v "a map"

/-- Reads `null`, the content of a choice that carries nothing. -/
def readUnit : Json → Shaped Unit
  | .null => .ok ()
  | v => wrongType v "unit"

/-- Reads one of `names`: the name itself, or an object whose only key is the name and whose
value is `null`. The name is checked before its value. -/
def readName (names : List String) : Json → Shaped String
  | .str s => if names.contains s then .ok s else .error (.unknownVariant s names)
  | .obj [(s, v)] =>
    if names.contains s then (readUnit v).map fun _ => s else .error (.unknownVariant s names)
  | .obj _ => .error (.invalidValue .map "map with a single key")
  | v => wrongType v "string or map"

/-- The expected text for a record read from an array of `n` items. -/
def recordItems (name : String) (n : Nat) : String :=
  "struct " ++ name ++ " with " ++ toString n ++ (if n = 1 then " element" else " elements")

/-- The error for an array with items left over after a record's fields. -/
def extraItems {α : Type} (length : Nat) : Shaped α :=
  .error (.invalidLength length "fewer elements in array")

end Json

end DocQuery
