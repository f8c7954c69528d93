import DocQuery.Json.Number

/-!
# JSON values with ordered objects

An object is the list of its entries in order, with distinct keys. `Object.set` replaces a value
in place or appends a key, and `Object.swapErase` moves the last entry into the place of the key
it removes. Equality of values, `Json.equal`, ignores the order of object entries and compares
numbers within their kind.
-/

namespace DocQuery

/-- A JSON value. Objects keep the order of their entries. -/
inductive Json where
  | null
  | bool (b : Bool)
  | num (n : Number)
  | str (s : String)
  | arr (items : List Json)
  | obj (entries : List (String × Json))
  deriving Repr, Inhabited

/-- The entries of a JSON object, in order, with distinct keys. -/
abbrev Object := List (String × Json)

namespace Object

/-- The value of a key. -/
def get? (o : Object) (key : String) : Option Json :=
  (o.find? (·.1 == key)).map (·.2)

/-- The object with `key` set to `v`: in place if the key is present, else appended. -/
def set (o : Object) (key : String) (v : Json) : Object :=
  if o.any (·.1 == key) then o.map fun e => if e.1 == key then (key, v) else e
  else o ++ [(key, v)]

/-- The entries before the last one, and the last one. -/
def splitLast : Object → Object × Option (String × Json)
  | [] => ([], none)
  | [e] => ([], some e)
  | e :: rest =>
    let (init, last) := splitLast rest
    (e :: init, last)

/-- The object without `key`; the last entry takes the place of the removed one. -/
def swapErase (o : Object) (key : String) : Object :=
  match o.findIdx? (·.1 == key) with
  | none => o
  | some i =>
    match splitLast o with
    | (init, some last) => if i < init.length then List.set init i last else init
    | (init, none) => init

/-- Setting a key makes it read back the value set. -/
theorem get?_set_self (o : Object) (key : String) (v : Json) : (o.set key v).get? key = some v := by
  induction o with
  | nil => simp [set, get?]
  | cons a rest ih =>
    by_cases ha : a.1 = key
    · simp [set, get?, ha]
    · by_cases hr : rest.any (·.1 == key)
      · simp only [set, get?, hr] at ih ⊢
        simp_all
      · simp only [set, get?, hr] at ih ⊢
        simp_all

end Object

namespace Json

/-- The value of a key when the value is an object. -/
def get? (v : Json) (key : String) : Option Json :=
  match v with
  | .obj o => Object.get? o key
  | _ => none

/-- The value is `null`. -/
def isNull : Json → Bool
  | .null => true
  | _ => false

/-- A string value. -/
def ofString (s : String) : Json := .str s

/-- A nonnegative integer value. -/
def ofNat (n : Nat) : Json := .num (.int n)

mutual
/-- Equality of JSON values: same kind, numbers by `Number.equal`, arrays item by item,
objects with the same number of entries where every key of one has an equal value in the
other, whatever the order. -/
def equal : Json → Json → Bool
  | .null, .null => true
  | .bool a, .bool b => a == b
  | .num a, .num b => a.equal b
  | .str a, .str b => a == b
  | .arr xs, .arr ys => equalItems xs ys
  | .obj xs, .obj ys => xs.length == ys.length && equalEntries xs ys
  | _, _ => false

/-- Two lists of values are equal item by item. -/
def equalItems : List Json → List Json → Bool
  | [], [] => true
  | x :: xs, y :: ys => equal x y && equalItems xs ys
  | _, _ => false

/-- Every entry of the first object has an equal value under its key in the second. -/
def equalEntries : List (String × Json) → Object → Bool
  | [], _ => true
  | (k, v) :: rest, o =>
    (match Object.get? o k with
      | some w => equal v w
      | none => false) && equalEntries rest o
end

end Json

end DocQuery
