import DocQuery.Store.Find
import DocQuery.Store.Order
import DocQuery.Keyed

/-!
# The in-memory store

Collections of documents by name. Inserting a document without `_id` gives it a fresh one,
appended as its last field; inserting a document whose `_id` equals one present replaces that
document in place. A read filters by the selector, sorts stably, skips, limits and projects.
-/

namespace DocQuery

/-- Documents by collection name, and the number of ids handed out so far. -/
structure MemoryStore where
  collections : List (String × List Document) := []
  issued : Nat := 0
  deriving Repr, Inhabited

namespace MemoryStore

/-- The documents of a collection. -/
def docs (s : MemoryStore) (collection : String) : List Document :=
  (Keyed.get? s.collections collection).getD []

/-- The document's `_id` equals a value. -/
def hasId (d : Document) (id : Json) : Bool :=
  match Object.get? d Document.idField with
  | some existing => existing.equal id
  | none => false

/-- Replaces the first document with an `_id` equal to the new one's, or appends it. -/
def upsert (id : Json) (doc : Document) : List Document → List Document
  | [] => [doc]
  | d :: ds => if hasId d id then doc :: ds else d :: upsert id doc ds

/-- Inserts a document; one without `_id` gets `mint n`, `n` counting the ids handed out,
where `mint` is expected to give ids that no document holds or will be given. Returns the
store and the document's `_id`; a value that is not an object is an error. -/
def insert (s : MemoryStore) (mint : Nat → Json) (collection : String) (doc : Json) :
    Except Error (MemoryStore × Json) :=
  match doc with
  | .obj o =>
    let (o, id, s) := match Object.get? o Document.idField with
      | some id => (o, id, s)
      | none =>
        let id := mint s.issued
        (o ++ [(Document.idField, id)], id, { s with issued := s.issued + 1 })
    let docs := upsert id o (s.docs collection)
    .ok ({ s with collections := Keyed.insert collection docs s.collections }, id)
  | other => .error (.store ("documents must be objects, got " ++ other.compact))

/-- Inserts documents in order; a failure keeps the documents inserted before it. -/
def insertMany (s : MemoryStore) (mint : Nat → Json) (collection : String) :
    List Json → MemoryStore × Option Error
  | [] => (s, none)
  | d :: ds =>
    match s.insert mint collection d with
    | .ok (s', _) => insertMany s' mint collection ds
    | .error e => (s, some e)

/-- Removes the documents whose `_id` equals a value; tells whether one was removed. -/
def remove (s : MemoryStore) (collection : String) (id : Json) : MemoryStore × Bool :=
  match Keyed.get? s.collections collection with
  | none => (s, false)
  | some docs =>
    let kept := docs.filter fun d => !hasId d id
    ({ s with collections := Keyed.insert collection kept s.collections }, kept.length != docs.length)

/-- Drops a collection. -/
def clear (s : MemoryStore) (collection : String) : MemoryStore :=
  { s with collections := s.collections.filter (·.1 != collection) }

/-- The number of documents of a collection. -/
def size (s : MemoryStore) (collection : String) : Nat := (s.docs collection).length

/-- The rows a read returns: matching documents, sorted, skipped, limited and projected. -/
def find (s : MemoryStore) (req : FindRequest) : List Document :=
  let found := (s.docs req.collection).filter (·.satisfies req.selector)
  let found := Document.sortAll req.options.sort found
  let found := found.drop (req.options.skip.getD 0)
  let found := match req.options.limit with
    | some l => found.take l
    | none => found
  match req.options.fields with
  | some fields => found.map (Document.project · fields)
  | none => found

end MemoryStore

end DocQuery
