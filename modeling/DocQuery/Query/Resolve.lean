import DocQuery.Query.Body
import DocQuery.Query.Params
import DocQuery.Query.Concrete

/-!
# Resolving a body against parameters

Resolution replaces every placeholder by its parameter, or else its default; a placeholder
with neither is an error. Counts, the limit and the skip, must be nonnegative integers: a
nonnegative float without a fraction is taken and cut to 64 bits, `null` means unset.

Failures are reported in a fixed order: the selector fields in field order, then the sort,
the limit, the skip, then the relations in name order, and last the pagination overrides.
-/

namespace DocQuery

namespace Template

mutual
/-- The value of a template under parameters. In an object, a repeated key keeps its first
place and takes its last value. -/
def substitute (params : Params) : Template → Except Error Json
  | .literal v => .ok v
  | .param name default =>
    match params.get? name, default with
    | some v, _ => .ok v
    | none, some v => .ok v
    | none, none => .error (.missingParameter name)
  | .object es => (substituteEntries params es []).map Json.obj
  | .array ts => (substituteItems params ts).map Json.arr

/-- The values of a list of templates, the first failure winning. -/
def substituteItems (params : Params) : List Template → Except Error (List Json)
  | [] => .ok []
  | t :: ts =>
    match substitute params t with
    | .error e => .error e
    | .ok v => (substituteItems params ts).map (v :: ·)

/-- The object of a list of entries, set one by one into `acc`. -/
def substituteEntries (params : Params) : List (String × Template) → Object → Except Error Object
  | [], acc => .ok acc
  | (k, t) :: es, acc =>
    match substitute params t with
    | .error e => .error e
    | .ok v => substituteEntries params es (Object.set acc k v)
end

end Template

namespace Json

/-- A count option: `null` is unset, a nonnegative integer is itself, a nonnegative float
without a fraction is cut to 64 bits; anything else is an error naming the option. -/
def toCount (option : String) (v : Json) : Except Error (Option Nat) :=
  let bad := Error.invalidOption option ("expected a non-negative integer, got " ++ v.compact)
  match v with
  | .null => .ok none
  | .num n =>
    match n.toWord? with
    | some k => .ok (some k)
    | none =>
      let f := n.toBinary64
      if f.cmp Binary64.zero != .lt && f.isIntegral then .ok (some f.toCountSat) else .error bad
  | _ => .error bad

end Json

namespace QueryBody

/-- A count option of a body under parameters. -/
def resolveCount (params : Params) (option : String) : Option Template → Except Error (Option Nat)
  | none => .ok none
  | some t => (t.substitute params).bind (Json.toCount option)

/-- The selector under parameters, field by field. -/
def resolveSelector (params : Params) : List (String × Template) → Except Error Document
  | [] => .ok []
  | (field, t) :: rest => do
    let v ← t.substitute params
    let tail ← resolveSelector params rest
    return (field, v) :: tail

/-- The find options of one level: sort, limit, skip, and the projection as it is. -/
def resolveOptions (params : Params) (b : QueryBody) : Except Error FindOptions := do
  let sort ← match b.sort with
    | some t => (t.substitute params).bind SortField.parseSpec
    | none => .ok []
  let limit ← resolveCount params "limit" b.limit
  let skip ← resolveCount params "skip" b.skip
  return { sort, limit, skip, fields := b.fields }

mutual
/-- A body and its relations under parameters, without the pagination overrides. -/
def resolveLevel (params : Params) : QueryBody → Except Error ConcreteBody
  | ⟨selector, sort, limit, skip, fields, paginate, relations⟩ => do
    let sel ← resolveSelector params selector
    let options ← resolveOptions params ⟨selector, sort, limit, skip, fields, paginate, relations⟩
    let rels ← resolveRelations params relations
    return { selector := sel, options, relations := rels }

/-- Relations under parameters, in name order. -/
def resolveRelations (params : Params) : List (String × QueryBody) → Except Error (List (String × ConcreteBody))
  | [] => .ok []
  | (name, b) :: rest => do
    let c ← resolveLevel params b
    let tail ← resolveRelations params rest
    return (name, c) :: tail
end

/-- The concrete body under parameters. With pagination on, the `limit` and then the `skip`
parameter, when given, replace the root options. -/
def resolve (b : QueryBody) (params : Params) : Except Error ConcreteBody := do
  let c ← resolveLevel params b
  if b.paginate then
    let c ← match params.get? "limit" with
      | some v => (Json.toCount "limit" v).map fun n => { c with options := { c.options with limit := n } }
      | none => .ok c
    match params.get? "skip" with
    | some v => (Json.toCount "skip" v).map fun n => { c with options := { c.options with skip := n } }
    | none => .ok c
  else .ok c

end QueryBody

end DocQuery
