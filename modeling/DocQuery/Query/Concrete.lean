import DocQuery.Query.Sort
import DocQuery.Json.Shape
import DocQuery.Document
import DocQuery.Keyed

/-!
# Concrete bodies

A concrete body has every placeholder replaced: a selector document, the options of a store
read, and concrete relations in name order. Its JSON form `{"selector", "options", "relations"}`
leaves out default options and empty relations; reading it back takes a record from an object or
an array, `null` standing for an unset limit, skip or projection.
-/

namespace DocQuery

/-- The options of one store read. -/
structure FindOptions where
  sort : List SortField := []
  limit : Option Nat := none
  skip : Option Nat := none
  fields : Option (List String) := none
  deriving DecidableEq, Repr, Inhabited

namespace Json

/-- Reads a record from an object, unknown keys ignored, or from an array of the fields in
order; `set` reads one field, and `finish` makes the record or names an absent required field. -/
def readRecord {α β : Type} (name : String) (fields : List String) (required : Nat) (start : α)
    (set : α → String → Json → Shaped α) (finish : α → Except String β) : Json → Shaped β
  | .obj entries => do
    let r ← entries.foldlM (fun r (e : String × Json) =>
      if fields.contains e.1 then set r e.1 e.2 else pure r) start
    (finish r).mapError .missingField
  | .arr xs => do
    let r ← (xs.zip fields).foldlM (fun r (e : Json × String) => set r e.2 e.1) start
    if xs.length < required then .error (.invalidLength xs.length (recordItems name fields.length))
    else if fields.length < xs.length then extraItems xs.length
    else (finish r).mapError .missingField
  | v => wrongType v ("struct " ++ name)

end Json

namespace SortOrder

/-- Reads a direction by its lowercase name, `asc` or `desc`. -/
def read (v : Json) : Shaped SortOrder :=
  (Json.readName ["asc", "desc"] v).map fun s => if s = "asc" then .asc else .desc

end SortOrder

namespace SortField

/-- Reads one field of a sort key into the parts read so far. -/
def setPart (p : Option String × Option SortOrder) (key : String) (v : Json) :
    Shaped (Option String × Option SortOrder) :=
  if key = "field" then (Json.readText v).map fun f => (some f, p.2)
  else (SortOrder.read v).map fun o => (p.1, some o)

/-- The sort key of its parts, or the first of them that is absent. -/
def ofParts : Option String × Option SortOrder → Except String SortField
  | (some f, some o) => .ok ⟨f, o⟩
  | (none, _) => .error "field"
  | (some _, none) => .error "order"

/-- Reads a sort key from `{"field": f, "order": o}` or `[f, o]`; both are required. -/
def read (v : Json) : Shaped SortField :=
  Json.readRecord "SortField" ["field", "order"] 2 (none, none) setPart ofParts v

end SortField

namespace FindOptions

/-- Reads one field of find options: `sort` a list of sort keys, `limit` and `skip` counts
or `null`, `fields` a list of names or `null`. -/
def setField (o : FindOptions) (key : String) (v : Json) : Shaped FindOptions :=
  if key = "sort" then (Json.readList SortField.read v).map fun s => { o with sort := s }
  else if key = "limit" then (Json.readOption Json.readWord v).map fun n => { o with limit := n }
  else if key = "skip" then (Json.readOption Json.readWord v).map fun n => { o with skip := n }
  else (Json.readOption (Json.readList Json.readText) v).map fun fs => { o with fields := fs }

/-- Reads find options from an object or an array of `sort`, `limit`, `skip`, `fields`;
every field may be absent. -/
def read (v : Json) : Shaped FindOptions :=
  Json.readRecord "FindOptions" ["sort", "limit", "skip", "fields"] 0 {} setField .ok v

/-- The JSON form, leaving out what is empty or unset. -/
def toJson (o : FindOptions) : Json :=
  .obj <|
    (if o.sort.isEmpty then [] else [("sort", Json.arr (o.sort.map SortField.toJson))]) ++
    (match o.limit with | some n => [("limit", Json.ofNat n)] | none => []) ++
    (match o.skip with | some n => [("skip", Json.ofNat n)] | none => []) ++
    (match o.fields with | some fs => [("fields", Json.arr (fs.map Json.str))] | none => [])

end FindOptions

/-- A body with every placeholder replaced. -/
structure ConcreteBody where
  selector : Document := []
  options : FindOptions := {}
  /-- Nested bodies by relation name, in name order. -/
  relations : List (String × ConcreteBody) := []
  deriving Repr, Inhabited

namespace ConcreteBody

mutual
/-- The JSON form `{"selector", "options", "relations"}`, relations left out when empty. -/
def toJson : ConcreteBody → Json
  | ⟨selector, options, relations⟩ =>
    .obj <| [("selector", Json.obj selector), ("options", options.toJson)] ++
      (if relations.isEmpty then [] else [("relations", Json.obj (relationsToJson relations))])

/-- The JSON entries of a list of relations. -/
def relationsToJson : List (String × ConcreteBody) → List (String × Json)
  | [] => []
  | (name, b) :: rest => (name, toJson b) :: relationsToJson rest
end

/-- The parts of a concrete body read so far. -/
structure Parts where
  selector : Option Document := none
  options : Option FindOptions := none
  relations : List (String × ConcreteBody) := []

mutual
/-- Reads a concrete body from `{"selector", "options", "relations"}` or from an array of
them in that order. Selector and options are required; relations are put in name order. -/
def read : Json → Shaped ConcreteBody
  | .obj entries => do
    let p ← readEntries entries {}
    match p.selector, p.options with
    | some selector, some options => .ok { selector, options, relations := p.relations }
    | none, _ => .error (.missingField "selector")
    | some _, none => .error (.missingField "options")
  | .arr items => readItems items
  | v => Json.wrongType v "struct ConcreteBody"

/-- Reads the entries of a body object in order; unknown keys are ignored. -/
def readEntries : List (String × Json) → Parts → Shaped Parts
  | [], p => .ok p
  | (key, v) :: rest, p =>
    if key = "selector" then
      match Json.readObject v with
      | .ok d => readEntries rest { p with selector := some d }
      | .error e => .error e
    else if key = "options" then
      match FindOptions.read v with
      | .ok o => readEntries rest { p with options := some o }
      | .error e => .error e
    else if key = "relations" then
      match readRelations v with
      | .ok rs => readEntries rest { p with relations := rs }
      | .error e => .error e
    else readEntries rest p

/-- Reads the items of a body array: selector, options, then optionally relations. -/
def readItems : List Json → Shaped ConcreteBody
  | [] => .error (.invalidLength 0 (Json.recordItems "ConcreteBody" 3))
  | [s] => do
    let _ ← Json.readObject s
    .error (.invalidLength 1 (Json.recordItems "ConcreteBody" 3))
  | [s, o] => do
    let selector ← Json.readObject s
    let options ← FindOptions.read o
    return { selector, options }
  | s :: o :: r :: rest => do
    let selector ← Json.readObject s
    let options ← FindOptions.read o
    let relations ← readRelations r
    if rest.isEmpty then return { selector, options, relations }
    else Json.extraItems (rest.length + 3)

/-- Reads an object of relations, each a concrete body, into name order. -/
def readRelations : Json → Shaped (List (String × ConcreteBody))
  | .obj entries => (readRelationList entries).map Keyed.ofList
  | v => Json.wrongType v "a map"

/-- Reads the bodies of relation entries in order. -/
def readRelationList : List (String × Json) → Shaped (List (String × ConcreteBody))
  | [] => .ok []
  | (name, b) :: rest =>
    match read b with
    | .ok c => (readRelationList rest).map ((name, c) :: ·)
    | .error e => .error e
end

/-- The body with its root skip dropped unless skipping is allowed; nested skips stay. -/
def applySkipPolicy (b : ConcreteBody) (allowSkip : Bool) : ConcreteBody :=
  if allowSkip then b else { b with options := { b.options with skip := none } }

end ConcreteBody

end DocQuery
