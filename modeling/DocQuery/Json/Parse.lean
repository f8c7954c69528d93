import DocQuery.Json.Basic

/-!
# Reading JSON text

The reader takes the text as characters; containers nest at most 127 deep, and a repeated key
keeps its first position and its last value. A fault is reported with its line and byte column.
A number without fraction or exponent is an integer when it fits 64 bits (`-0` is `-0.0`);
otherwise its digits fill a 64-bit significand, which is rounded to binary64 and scaled by
rounded powers of ten, each step rounded, so `7e23` reads as `6.999999999999999e23`.
-/

namespace DocQuery

namespace Json

/-- What stops the reading of a text. -/
inductive ReadFault where
  /-- The text ends inside an array. -/
  | endInList
  /-- The text ends inside an object. -/
  | endInObject
  /-- The text ends inside a string. -/
  | endInString
  /-- The text ends where a value or part of one is due. -/
  | endInValue
  /-- An object key is not followed by a colon. -/
  | expectedColon
  /-- An array item is followed by neither a comma nor the closing bracket. -/
  | expectedListSeparator
  /-- An object entry is followed by neither a comma nor the closing brace. -/
  | expectedObjectSeparator
  /-- A misspelled `null`, `true` or `false`. -/
  | expectedIdent
  /-- No value starts here. -/
  | expectedValue
  /-- A backslash escape that JSON does not have, or bad hex digits. -/
  | invalidEscape
  /-- A malformed number. -/
  | invalidNumber
  /-- A number past the largest finite binary64 value. -/
  | numberOutOfRange
  /-- A raw control character inside a string. -/
  | controlCharacter
  /-- An object key that is not a string. -/
  | keyNotString
  /-- A surrogate escape without its partner. -/
  | loneSurrogate
  /-- A leading surrogate escape followed by something other than another escape. -/
  | unfinishedSurrogatePair
  /-- A comma before a closing bracket or brace. -/
  | trailingComma
  /-- More than blanks after the value. -/
  | trailingCharacters
  /-- Containers nested deeper than allowed. -/
  | tooDeep
  deriving DecidableEq, Repr

/-- The description of a fault. -/
def ReadFault.message : ReadFault → String
  | .endInList => "EOF while parsing a list"
  | .endInObject => "EOF while parsing an object"
  | .endInString => "EOF while parsing a string"
  | .endInValue => "EOF while parsing a value"
  | .expectedColon => "expected `:`"
  | .expectedListSeparator => "expected `,` or `]`"
  | .expectedObjectSeparator => "expected `,` or `\x7d`"
  | .expectedIdent => "expected ident"
  | .expectedValue => "expected value"
  | .invalidEscape => "invalid escape"
  | .invalidNumber => "invalid number"
  | .numberOutOfRange => "number out of range"
  | .controlCharacter => "control character (\\u0000-\\u001F) found while parsing a string"
  | .keyNotString => "key must be a string"
  | .loneSurrogate => "lone leading surrogate in hex escape"
  | .unfinishedSurrogatePair => "unexpected end of hex escape"
  | .trailingComma => "trailing comma"
  | .trailingCharacters => "trailing characters"
  | .tooDeep => "recursion limit exceeded"

/-- A fault and where it is reported: `left` counts the bytes of the text after that point. -/
structure ReadError where
  fault : ReadFault
  left : Nat
  deriving DecidableEq, Repr

/-- The number of UTF-8 bytes of some characters. -/
def byteCount (cs : List Char) : Nat := (cs.map Char.utf8Size).foldr (· + ·) 0

/-- A fault reported after everything before `rest` has been read. -/
def failAt {α : Type} (fault : ReadFault) (rest : List Char) : Except ReadError α :=
  .error ⟨fault, byteCount rest⟩

/-- A fault reported at the first byte of `rest`, which is looked at but not read; at the end
of the text, the end. -/
def failOn {α : Type} (fault : ReadFault) (rest : List Char) : Except ReadError α :=
  .error ⟨fault, byteCount rest - 1⟩

/-- The line and column of a byte offset in a text: lines count from one, and the column is
the number of bytes before the offset on its line. -/
def lineColumn (cs : List Char) (offset : Nat) : Nat × Nat :=
  let (_, line, start) := cs.foldl (fun (acc : Nat × Nat × Nat) c =>
    let (pos, line, start) := acc
    if pos < offset ∧ c = '\n' then (pos + c.utf8Size, line + 1, pos + 1)
    else (pos + c.utf8Size, line, start)) (0, 1, 0)
  (line, offset - start)

/-- The line and column in a text where an error is reported. -/
def ReadError.position (e : ReadError) (text : String) : Nat × Nat :=
  lineColumn text.toList (text.utf8ByteSize - e.left)

/-- The description of an error in a text, with the line and column where it is reported. -/
def ReadError.describe (e : ReadError) (text : String) : String :=
  let (line, column) := e.position text
  e.fault.message ++ " at line " ++ toString line ++ " column " ++ toString column

/-- The text with leading blanks removed. -/
def skipBlank : List Char → List Char
  | c :: cs => if c = ' ' ∨ c = '\t' ∨ c = '\n' ∨ c = '\r' then skipBlank cs else c :: cs
  | [] => []

/-- The value of a decimal digit. -/
def digitValue (c : Char) : Nat := c.toNat - 48

/-- Reads the digits of a whole part into `acc` while it stays a 64-bit word. Once a digit
does not fit, it and every later digit only count. Returns the significand, the count of
dropped digits and the rest. -/
def readWhole (acc dropped : Nat) : List Char → Nat × Nat × List Char
  | c :: cs =>
    if c.isDigit then
      if dropped = 0 ∧ acc * 10 + digitValue c ≤ Number.maxWord then
        readWhole (acc * 10 + digitValue c) 0 cs
      else readWhole acc (dropped + 1) cs
    else (acc, dropped, c :: cs)
  | [] => (acc, dropped, [])

/-- Reads the digits of a fraction into `acc` while it stays a 64-bit word, each digit taken
lowering the exponent `exp` by one. From the first digit that does not fit, digits are
dropped. -/
def readFraction (acc : Nat) (exp : Int) (full : Bool) : List Char → Nat × Int × List Char
  | c :: cs =>
    if c.isDigit then
      if !full ∧ acc * 10 + digitValue c ≤ Number.maxWord then
        readFraction (acc * 10 + digitValue c) (exp - 1) false cs
      else readFraction acc exp true cs
    else (acc, exp, c :: cs)
  | [] => (acc, exp, [])

/-- The largest exponent magnitude that is gathered, `2^31 - 1`. -/
def maxExponent : Nat := Nat.pow 2 31 - 1

/-- How the digits of an exponent end: with their value and the rest of the text, or with
the rest after the digit that took the magnitude past `maxExponent`. -/
inductive ExponentDigits where
  | value (e : Nat) (rest : List Char)
  | overflow (rest : List Char)

/-- Reads exponent digits into `acc`. -/
def readExponentDigits (acc : Nat) : List Char → ExponentDigits
  | c :: cs =>
    if c.isDigit then
      if acc * 10 + digitValue c ≤ maxExponent then readExponentDigits (acc * 10 + digitValue c) cs
      else .overflow cs
    else .value acc (c :: cs)
  | [] => .value acc []

/-- The binary64 value nearest to `10^k`. -/
def powerOfTen (k : Nat) : Binary64 := Binary64.ofInt (Int.pow 10 k)

/-- `f` divided by `10^k`: in one step up to `10^308`, otherwise by `10^308` first and then
the rest, stopping at zero. -/
def divideByPowerOfTen (f : Binary64) (k : Nat) : Binary64 :=
  if k ≤ 308 then (f.div? (powerOfTen k)).getD f
  else if f.units = 0 then f
  else divideByPowerOfTen ((f.div? (powerOfTen 308)).getD f) (k - 308)
termination_by k
decreasing_by omega

/-- The float of a significand and a decimal exponent, with the sign applied last; `none`
when it is past the largest finite value. -/
def floatOfParts (neg : Bool) (significand : Nat) (exp : Int) : Option Binary64 :=
  let f := Binary64.ofInt significand
  let scaled :=
    if 0 ≤ exp then
      if exp.toNat ≤ 308 then f.mul? (powerOfTen exp.toNat)
      else if f.units = 0 then some f else none
    else some (divideByPowerOfTen f (-exp).toNat)
  scaled.map fun x => { x with neg := neg }

/-- The number of a literal with no fraction and no exponent. -/
def integerOfParts (neg : Bool) (significand : Nat) : Number :=
  if !neg then .int significand
  else if significand = 0 then .float ⟨true, 0⟩
  else if significand ≤ Nat.pow 2 63 then .int (-(significand : Int))
  else .float { Binary64.ofInt significand with neg := true }

/-- The float of the decimal parts before `rest`, or the range error after them. -/
def floatOrError (neg : Bool) (significand : Nat) (exp : Int) (rest : List Char) :
    Except ReadError (Number × List Char) :=
  match floatOfParts neg significand exp with
  | some x => .ok (.float x, rest)
  | none => failAt .numberOutOfRange rest

/-- Reads the exponent part after `e` or `E`, given the exponent gathered so far. A magnitude
past `maxExponent` is out of range for a nonzero significand and a positive exponent, and
otherwise gives zero. -/
def readExponent (neg : Bool) (significand : Nat) (start : Int) (cs : List Char) :
    Except ReadError (Number × List Char) :=
  let (positive, cs) := match cs with
    | '+' :: r => (true, r)
    | '-' :: r => (false, r)
    | r => (true, r)
  match cs with
  | c :: r =>
    if c.isDigit then
      match readExponentDigits 0 cs with
      | .value e rest => floatOrError neg significand (if positive then start + e else start - e) rest
      | .overflow rest =>
        if significand ≠ 0 ∧ positive then failAt .numberOutOfRange rest
        else .ok (.float ⟨neg, 0⟩, rest.dropWhile Char.isDigit)
    else failAt .invalidNumber r
  | [] => failAt .endInValue []

/-- Reads a number that starts with a minus sign or a digit. -/
def readNumber (cs : List Char) : Except ReadError (Number × List Char) := do
  let (neg, cs) := match cs with
    | '-' :: r => (true, r)
    | r => (false, r)
  let (significand, dropped, rest) ← match cs with
    | '0' :: r =>
      match r with
      | c :: _ => if c.isDigit then failOn .invalidNumber r else .ok (0, 0, r)
      | [] => .ok (0, 0, r)
    | c :: r => if c.isDigit then .ok (readWhole (digitValue c) 0 r) else failAt .invalidNumber r
    | [] => failAt .endInValue []
  match rest with
  | '.' :: r =>
    match r with
    | c :: _ =>
      if c.isDigit then
        let (significand, exp, rest) := readFraction significand dropped false r
        match rest with
        | 'e' :: r' => readExponent neg significand exp r'
        | 'E' :: r' => readExponent neg significand exp r'
        | _ => floatOrError neg significand exp rest
      else failOn .invalidNumber r
    | [] => failOn .endInValue []
  | 'e' :: r => readExponent neg significand dropped r
  | 'E' :: r => readExponent neg significand dropped r
  | _ =>
    if dropped = 0 then .ok (integerOfParts neg significand, rest)
    else floatOrError neg significand dropped rest

/-- The value of a hex digit. -/
def hexValue (c : Char) : Option Nat :=
  if '0' ≤ c ∧ c ≤ '9' then some (c.toNat - 48)
  else if 'a' ≤ c ∧ c ≤ 'f' then some (c.toNat - 87)
  else if 'A' ≤ c ∧ c ≤ 'F' then some (c.toNat - 55)
  else none

/-- The code unit of four hex digits. -/
def hexUnit (a b c d : Char) : Option Nat :=
  match hexValue a, hexValue b, hexValue c, hexValue d with
  | some w, some x, some y, some z => some (((w * 16 + x) * 16 + y) * 16 + z)
  | _, _, _, _ => none

/-- The error for hex digits that are not all hex: reported after four bytes. -/
def badHex {α : Type} (cs : List Char) : Except ReadError α :=
  .error ⟨.invalidEscape, byteCount cs - 4⟩

/-- The error for an escape with fewer than four characters left: not hex when four bytes
remain, else the end of the text. -/
def shortHex {α : Type} (cs : List Char) : Except ReadError α :=
  if 4 ≤ byteCount cs then badHex cs else failAt .endInString []

/-- A trailing surrogate code unit. -/
def isTrailing (n : Nat) : Bool := 0xDC00 ≤ n && n ≤ 0xDFFF

/-- A leading surrogate code unit. -/
def isLeading (n : Nat) : Bool := 0xD800 ≤ n && n ≤ 0xDBFF

/-- Reads the rest of a string after its opening quote; `acc` holds the characters read so
far, last first. A surrogate escape must be a leading one followed by a trailing one. -/
def readString (acc : List Char) : List Char → Except ReadError (String × List Char)
  | '"' :: r => .ok (String.ofList acc.reverse, r)
  | '\\' :: '"' :: r => readString ('"' :: acc) r
  | '\\' :: '\\' :: r => readString ('\\' :: acc) r
  | '\\' :: '/' :: r => readString ('/' :: acc) r
  | '\\' :: 'b' :: r => readString (Char.ofNat 8 :: acc) r
  | '\\' :: 'f' :: r => readString (Char.ofNat 12 :: acc) r
  | '\\' :: 'n' :: r => readString ('\n' :: acc) r
  | '\\' :: 'r' :: r => readString ('\r' :: acc) r
  | '\\' :: 't' :: r => readString ('\t' :: acc) r
  | '\\' :: 'u' :: a :: b :: c :: d :: r =>
    match hexUnit a b c d with
    | none => badHex (a :: b :: c :: d :: r)
    | some hi =>
      if isTrailing hi then failAt .loneSurrogate r
      else if !isLeading hi then readString (Char.ofNat hi :: acc) r
      else match r with
        | '\\' :: 'u' :: a' :: b' :: c' :: d' :: r' =>
          match hexUnit a' b' c' d' with
          | none => badHex (a' :: b' :: c' :: d' :: r')
          | some lo =>
            if isTrailing lo then
              readString (Char.ofNat (0x10000 + (hi - 0xD800) * 0x400 + (lo - 0xDC00)) :: acc) r'
            else failAt .loneSurrogate r'
        | '\\' :: 'u' :: r' => shortHex r'
        | '\\' :: c :: r' => failOn .unfinishedSurrogatePair (c :: r')
        | ['\\'] => failAt .endInString []
        | c :: r' => failOn .unfinishedSurrogatePair (c :: r')
        | [] => failAt .endInString []
  | '\\' :: 'u' :: r => shortHex r
  | '\\' :: _ :: r => failAt .invalidEscape r
  | ['\\'] => failAt .endInString []
  | c :: r => if c.toNat < 32 then failAt .controlCharacter r else readString (c :: acc) r
  | [] => failAt .endInString []

/-- Reads the rest of `null`, `true` or `false`: each expected character must come next. -/
def readIdent : List Char → List Char → Except ReadError (List Char)
  | [], cs => .ok cs
  | e :: es, c :: cs => if c = e then readIdent es cs else failAt .expectedIdent cs
  | _ :: _, [] => failAt .endInValue []

/-- The deepest nesting of containers that is read. -/
def maxDepth : Nat := 127

mutual
/-- Reads one value after optional blanks; `depth` counts the enclosing containers. -/
def readValue : Nat → Nat → List Char → Except ReadError (Json × List Char)
  | 0, _, cs => failOn .tooDeep cs
  | fuel + 1, depth, cs =>
    match skipBlank cs with
    | 'n' :: r => (readIdent ['u', 'l', 'l'] r).map (.null, ·)
    | 't' :: r => (readIdent ['r', 'u', 'e'] r).map (.bool true, ·)
    | 'f' :: r => (readIdent ['a', 'l', 's', 'e'] r).map (.bool false, ·)
    | '"' :: r => (readString [] r).map fun (s, rest) => (.str s, rest)
    | '[' :: r =>
      if maxDepth ≤ depth then failOn .tooDeep ('[' :: r)
      else match skipBlank r with
        | ']' :: r' => .ok (.arr [], r')
        | [] => failOn .endInList []
        | r' => readItems fuel (depth + 1) [] r'
    | '{' :: r =>
      if maxDepth ≤ depth then failOn .tooDeep ('{' :: r)
      else match skipBlank r with
        | '}' :: r' => .ok (.obj [], r')
        | '"' :: r' => readEntries fuel (depth + 1) [] r'
        | [] => failOn .endInObject []
        | r' => failOn .keyNotString r'
    | c :: r =>
      if c = '-' ∨ c.isDigit then (readNumber (c :: r)).map fun (n, rest) => (.num n, rest)
      else failOn .expectedValue (c :: r)
    | [] => failOn .endInValue []

/-- Reads array items up to the closing bracket; `acc` holds the items read, last first. -/
def readItems : Nat → Nat → List Json → List Char → Except ReadError (Json × List Char)
  | 0, _, _, cs => failOn .tooDeep cs
  | fuel + 1, depth, acc, cs =>
    match readValue fuel depth cs with
    | .error e => .error e
    | .ok (v, rest) =>
      match skipBlank rest with
      | ',' :: r =>
        match skipBlank r with
        | ']' :: r' => failOn .trailingComma (']' :: r')
        | _ => readItems fuel depth (v :: acc) r
      | ']' :: r => .ok (.arr (v :: acc).reverse, r)
      | [] => failOn .endInList []
      | c :: r => failOn .expectedListSeparator (c :: r)

/-- Reads object entries up to the closing brace, starting after the opening quote of a key;
a repeated key keeps its first place and takes the new value. -/
def readEntries : Nat → Nat → Object → List Char → Except ReadError (Json × List Char)
  | 0, _, _, cs => failOn .tooDeep cs
  | fuel + 1, depth, acc, cs =>
    match readString [] cs with
    | .error e => .error e
    | .ok (key, rest) =>
      match skipBlank rest with
      | ':' :: r =>
        match readValue fuel depth r with
        | .error e => .error e
        | .ok (v, rest') =>
          let acc := Object.set acc key v
          match skipBlank rest' with
          | ',' :: r' =>
            match skipBlank r' with
            | '"' :: r'' => readEntries fuel depth acc r''
            | '}' :: r'' => failOn .trailingComma ('}' :: r'')
            | [] => failOn .endInValue []
            | r'' => failOn .keyNotString r''
          | '}' :: r' => .ok (.obj acc, r')
          | [] => failOn .endInObject []
          | c :: r' => failOn .expectedObjectSeparator (c :: r')
      | [] => failOn .endInObject []
      | r => failOn .expectedColon r
end

/-- Reads a whole text as one JSON value, with only blanks after it. -/
def parse (s : String) : Except ReadError Json :=
  let cs := s.toList
  match readValue (4 * cs.length + 4) 0 cs with
  | .error e => .error e
  | .ok (v, rest) =>
    match skipBlank rest with
    | [] => .ok v
    | r => failOn .trailingCharacters r

end Json

end DocQuery
