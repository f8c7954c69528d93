import DocQuery.Json.Basic

/-!
# Documents

A document is a JSON object, identified by its `_id` field. A field path names a field
with dots between the keys of nested objects, `"profile.name"`; every part is a key, the
empty one included. A projection keeps `_id` and the listed paths, rebuilding the nested
objects the paths pass through.
-/

namespace DocQuery

/-- A stored document: the entries of a JSON object. -/
abbrev Document := Object

namespace Document

/-- The field that identifies a document. -/
def idField : String := "_id"

/-- The value at the end of a list of keys, each key looked up in the object reached so far. -/
def getKeys? : Json → List String → Option Json
  | v, [] => some v
  | .obj o, k :: rest => (Object.get? o k).bind fun v => getKeys? v rest
  | _, _ :: _ => none

/-- The value at a dotted path. -/
def field? (doc : Document) (path : String) : Option Json :=
  match path.splitOn "." with
  | [] => none
  | k :: rest => (Object.get? doc k).bind fun v => getKeys? v rest

/-- Sets the value at the end of a list of keys. A missing key on the way gets an empty
object; a key on the way whose value is not an object stops the insertion. -/
def insertKeys (target : Document) (v : Json) : List String → Document
  | [] => target
  | [k] => Object.set target k v
  | k :: rest =>
    match Object.get? target k with
    | none => Object.set target k (.obj (insertKeys [] v rest))
    | some (.obj inner) => Object.set target k (.obj (insertKeys inner v rest))
    | some _ => target

/-- Sets the value at a dotted path. -/
def insertPath (target : Document) (path : String) (v : Json) : Document :=
  insertKeys target v (path.splitOn ".")

/-- The document cut down to `_id` and the listed paths that it has. -/
def project (doc : Document) (fields : List String) : Document :=
  let start : Document := match Object.get? doc idField with
    | some id => [(idField, id)]
    | none => []
  fields.foldl (fun out f =>
    match doc.field? f with
    | some v => out.insertPath f v
    | none => out) start

end Document

end DocQuery
