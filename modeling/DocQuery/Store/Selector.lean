import DocQuery.Document
import DocQuery.Json.Print

/-!
# Selectors

A selector is an object of conditions a document must all meet: `$and`, `$or` and `$nor` take
arrays of sub-selectors, any other key is a field path, and a condition is a set of operators or
asks for equality. Values compare as values: numbers as binary64 numbers, objects key by key in
any order; a field holding an array also meets what one of its items meets.
-/

namespace DocQuery

namespace Json

mutual
/-- The same value, numbers compared as binary64 numbers and objects in any order. -/
def sameValue : Json → Json → Bool
  | .num x, .num y => x.toBinary64.numEq y.toBinary64
  | .arr xs, .arr ys => xs.length == ys.length && sameItems xs ys
  | .obj xs, .obj ys => xs.length == ys.length && sameEntries xs ys
  | a, b => a.equal b

/-- Item by item, `sameValue`. -/
def sameItems : List Json → List Json → Bool
  | x :: xs, y :: ys => sameValue x y && sameItems xs ys
  | _, _ => true

/-- Every entry of the first object has a `sameValue` under its key in the second. -/
def sameEntries : List (String × Json) → Object → Bool
  | [], _ => true
  | (k, v) :: rest, o =>
    (match Object.get? o k with
      | some w => sameValue v w
      | none => false) && sameEntries rest o
end

/-- The order of two numbers, two strings (by code point) or two booleans (`false` first);
other pairs have none. -/
def compareScalars : Json → Json → Option Ordering
  | .num x, .num y => some (x.toBinary64.cmp y.toBinary64)
  | .str x, .str y => some (compare x y)
  | .bool x, .bool y => some (compare x y)
  | _, _ => none

/-- Whether a value counts as true: a boolean itself, a number when nonzero, `null` never,
anything else always. -/
def truthy : Json → Bool
  | .bool b => b
  | .num n => !n.toBinary64.numEq Binary64.zero
  | .null => false
  | _ => true

end Json

namespace Selector

/-- A field's value, if any, equals an expected value: a missing field equals `null`, and an
array equals what it or one of its items equals. -/
def fieldEquals (actual : Option Json) (expected : Json) : Bool :=
  match actual with
  | none => expected.isNull
  | some (.arr items) => (Json.arr items).sameValue expected || items.any (·.sameValue expected)
  | some v => v.sameValue expected

/-- A field's value, if any, stands in an accepted order to a bound; for an array, one of
its items does. -/
def fieldOrdered (actual : Option Json) (bound : Json) (accept : Ordering → Bool) : Bool :=
  let ok (v : Json) : Bool := match v.compareScalars bound with
    | some o => accept o
    | none => false
  match actual with
  | some (.arr items) => items.any ok
  | some v => ok v
  | none => false

/-- One operator holds of a field's value; an unknown operator never holds. -/
def operatorHolds (actual : Option Json) (op : String) (arg : Json) : Bool :=
  let inCandidates : Bool := match arg with
    | .arr cs => cs.any (fieldEquals actual ·)
    | _ => false
  if op = "$eq" then fieldEquals actual arg
  else if op = "$ne" then !fieldEquals actual arg
  else if op = "$in" then inCandidates
  else if op = "$nin" then !inCandidates
  else if op = "$gt" then fieldOrdered actual arg (· == .gt)
  else if op = "$gte" then fieldOrdered actual arg (· != .lt)
  else if op = "$lt" then fieldOrdered actual arg (· == .lt)
  else if op = "$lte" then fieldOrdered actual arg (· != .gt)
  else if op = "$exists" then actual.isSome == arg.truthy
  else false

/-- The key is an operator: it starts with `$`. -/
def isOperator (key : String) : Bool := key.startsWith "$"

/-- A condition holds of a field's value: all operators of an operator object, or equality. -/
def fieldMatches (actual : Option Json) (condition : Json) : Bool :=
  match condition with
  | .obj ops =>
    if !ops.isEmpty && ops.all (isOperator ·.1) then ops.all fun e => operatorHolds actual e.1 e.2
    else fieldEquals actual condition
  | _ => fieldEquals actual condition

end Selector

namespace Document

mutual
/-- The document meets every condition of the selector. -/
def satisfies (doc : Document) : Object → Bool
  | [] => true
  | (key, condition) :: rest => conditionHolds doc key condition && satisfies doc rest

/-- One selector entry holds: `$and`, `$or` and `$nor` over the sub-selectors of an array,
or the condition on a field. -/
def conditionHolds (doc : Document) (key : String) : Json → Bool
  | .arr items =>
    if key = "$and" then allMatch doc items
    else if key = "$or" then anyMatch doc items
    else if key = "$nor" then !anyMatch doc items
    else Selector.fieldMatches (doc.field? key) (.arr items)
  | condition =>
    if key = "$and" then true
    else if key = "$or" then false
    else if key = "$nor" then true
    else Selector.fieldMatches (doc.field? key) condition

/-- Every object item, as a selector, is met. -/
def allMatch (doc : Document) : List Json → Bool
  | [] => true
  | .obj o :: rest => satisfies doc o && allMatch doc rest
  | _ :: rest => allMatch doc rest

/-- Some object item, as a selector, is met. -/
def anyMatch (doc : Document) : List Json → Bool
  | [] => false
  | .obj o :: rest => satisfies doc o || anyMatch doc rest
  | _ :: rest => anyMatch doc rest
end

end Document

end DocQuery
