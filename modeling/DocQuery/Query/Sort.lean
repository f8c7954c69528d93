import DocQuery.Error

/-!
# Sort specifications

A sort is a list of fields, each ascending or descending. A specification is written as an
object `{"a": 1, "b": -1}` or as an array whose entries are `[field, direction]`, `[field]`
or a bare field name; `null` is the empty sort. A direction is `1` or `-1`, or `"asc"` or
`"desc"` in any ASCII case.
-/

namespace DocQuery

/-- The direction of one sort key. -/
inductive SortOrder where
  | asc
  | desc
  deriving DecidableEq, Repr

/-- The written name of a direction. -/
def SortOrder.name : SortOrder → String
  | .asc => "asc"
  | .desc => "desc"

/-- One sort key. -/
structure SortField where
  field : String
  order : SortOrder
  deriving DecidableEq, Repr

namespace SortField

/-- Ascending on a field. -/
def asc (field : String) : SortField := ⟨field, .asc⟩

/-- Descending on a field. -/
def desc (field : String) : SortField := ⟨field, .desc⟩

/-- The JSON form `{"field": f, "order": "asc"|"desc"}`. -/
def toJson (s : SortField) : Json := .obj [("field", .str s.field), ("order", .str s.order.name)]

/-- Equal to a lowercase ASCII word when ASCII letters are compared without case. -/
def equalsIgnoringCase (s word : String) : Bool := s.toList.map Char.toLower == word.toList

/-- The sort error with its reason. -/
def sortError (reason : String) : Error := .invalidOption "sort" reason

/-- The direction written as a value. -/
def parseOrder (dir : Json) : Except Error SortOrder :=
  match dir with
  | .num n =>
    if n.toSigned? = some 1 then .ok .asc
    else if n.toSigned? = some (-1) then .ok .desc
    else .error (sortError ("bad sort direction " ++ dir.compact))
  | .str s =>
    if equalsIgnoringCase s "asc" then .ok .asc
    else if equalsIgnoringCase s "desc" then .ok .desc
    else .error (sortError ("bad sort direction " ++ dir.compact))
  | _ => .error (sortError ("bad sort direction " ++ dir.compact))

/-- One entry of an array specification. -/
def parseEntry (entry : Json) : Except Error SortField :=
  match entry with
  | .arr [.str field, dir] => (parseOrder dir).map fun o => ⟨field, o⟩
  | .arr [.str field] => .ok (asc field)
  | .str field => .ok (asc field)
  | _ => .error (sortError ("bad sort entry " ++ entry.compact))

/-- The sort a specification describes; the first bad entry is the error. -/
def parseSpec (spec : Json) : Except Error (List SortField) :=
  match spec with
  | .obj es => es.mapM fun e => (parseOrder e.2).map fun o => ⟨e.1, o⟩
  | .arr entries => entries.mapM parseEntry
  | .null => .ok []
  | _ => .error (sortError ("bad sort spec " ++ spec.compact))

end SortField

end DocQuery
