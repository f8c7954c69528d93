import DocQuery.Query.Template
import DocQuery.Query.Sort
import DocQuery.Keyed

/-!
# Query bodies

A body says what to read from one collection: a selector, a sort, a limit and a skip, a
projection, and named relations with bodies of their own, any of them holding placeholders. In
JSON it is one object: `$filters`, `$options` and `$paginate`, then projected fields set to
`true` or `1` and relations set to objects.
-/

namespace DocQuery

/-- What to fetch from one collection and the relations to follow from it. -/
structure QueryBody where
  /-- Conditions by field, in field order. -/
  selector : List (String × Template) := []
  sort : Option Template := none
  limit : Option Template := none
  skip : Option Template := none
  /-- The projection; `none` keeps whole documents. -/
  fields : Option (List String) := none
  /-- On the root body, the `limit` and `skip` parameters override its options. -/
  paginate : Bool := false
  /-- Nested bodies by relation name, in name order. -/
  relations : List (String × QueryBody) := []
  deriving Repr, Inhabited

namespace QueryBody

/-- The body with a condition on a field, replacing an earlier one. -/
def filter (b : QueryBody) (field : String) (t : Template) : QueryBody :=
  { b with selector := Keyed.insert field t b.selector }

/-- The body with its sort specification replaced. -/
def withSort (b : QueryBody) (t : Template) : QueryBody := { b with sort := some t }

/-- The body with one more sort key `[field, direction]` appended to a literal array
specification; any other specification is replaced by one with this key alone. -/
def pushSort (b : QueryBody) (field : String) (order : SortOrder) : QueryBody :=
  let entry := Json.arr [.str field, .str order.name]
  match b.sort with
  | some (.literal (.arr entries)) => { b with sort := some (.literal (.arr (entries ++ [entry]))) }
  | _ => { b with sort := some (.literal (.arr [entry])) }

/-- The body with an ascending key appended, as `pushSort`. -/
def sortAsc (b : QueryBody) (field : String) : QueryBody := b.pushSort field .asc

/-- The body with a descending key appended, as `pushSort`. -/
def sortDesc (b : QueryBody) (field : String) : QueryBody := b.pushSort field .desc

/-- The body with its limit replaced. -/
def withLimit (b : QueryBody) (t : Template) : QueryBody := { b with limit := some t }

/-- The body with its skip replaced. -/
def withSkip (b : QueryBody) (t : Template) : QueryBody := { b with skip := some t }

/-- The body with its projection replaced. -/
def withFields (b : QueryBody) (fields : List String) : QueryBody := { b with fields := some fields }

/-- The body with pagination on. -/
def paginated (b : QueryBody) : QueryBody := { b with paginate := true }

/-- The body with a relation, replacing one of the same name. -/
def withRelation (b : QueryBody) (name : String) (nested : QueryBody) : QueryBody :=
  { b with relations := Keyed.insert name nested b.relations }

/-- The body with one `$options` entry applied; an unknown option is an error. -/
def applyOption (b : QueryBody) (option : String) (v : Json) : Except Error QueryBody :=
  let t := Template.ofJson v
  if option = "sort" then .ok (b.withSort t)
  else if option = "limit" then .ok (b.withLimit t)
  else if option = "skip" then .ok (b.withSkip t)
  else .error (.invalidOption option "unsupported option")

mutual
/-- The body written as a JSON object; the first offending key, in order, is the error. -/
def ofJson : Json → Except Error QueryBody
  | .obj es => ofEntries es {} []
  | v => .error (.decode ("query body must be an object, got " ++ v.compact))

/-- Reads the keys of a body object in order; `fields` gathers the projected fields. -/
def ofEntries : List (String × Json) → QueryBody → List String → Except Error QueryBody
  | [], body, fields => .ok (if fields.isEmpty then body else body.withFields fields)
  | (key, v) :: rest, body, fields =>
    if key = "$filters" then
      match v with
      | .obj fs => ofEntries rest (fs.foldl (fun b e => b.filter e.1 (Template.ofJson e.2)) body) fields
      | _ => .error (.decode "`$filters` must be an object")
    else if key = "$options" then
      match v with
      | .obj os =>
        match os.foldlM (fun b e => b.applyOption e.1 e.2) body with
        | .ok b => ofEntries rest b fields
        | .error e => .error e
      | _ => .error (.decode "`$options` must be an object")
    else if key = "$paginate" then
      let flag := match v with
        | .bool b => b
        | _ => false
      ofEntries rest { body with paginate := flag } fields
    else
      match v with
      | .obj _ =>
        match ofJson v with
        | .ok nested => ofEntries rest (body.withRelation key nested) fields
        | .error e => .error e
      | .bool true => ofEntries rest body (fields ++ [key])
      | .num n =>
        if n.toSigned? = some 1 then ofEntries rest body (fields ++ [key])
        else .error (.decode ("unexpected value for `" ++ key ++ "`: " ++ v.compact))
      | _ => .error (.decode ("unexpected value for `" ++ key ++ "`: " ++ v.compact))
end

mutual
/-- The placeholder names used in a body and its relations, with repeats. -/
def paramList : QueryBody → List String
  | ⟨selector, sort, limit, skip, _, _, relations⟩ =>
    Template.entryParamNames selector ++ Template.itemParamNames ([sort, limit, skip].filterMap id) ++
      relationParamList relations

/-- The placeholder names used in a list of relations. -/
def relationParamList : List (String × QueryBody) → List String
  | [] => []
  | (_, b) :: rest => paramList b ++ relationParamList rest
end

/-- Every placeholder name of the body, nested relations included, sorted without repeats. -/
def paramNames (b : QueryBody) : List String := Keyed.nameSet b.paramList

end QueryBody

end DocQuery
