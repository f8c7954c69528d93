import DocQuery.Graph.Key
import DocQuery.Document
import DocQuery.Keyed

/-!
# Batched key sets and key indexes

A batch gathers the keys the parents of one level offer, an array offering its items and each
key kept once at its first place, so one read fetches the children of all of them. A key index
maps each key text to the positions of the rows holding it; a parent's rows are the positions
of its key or of any item of its key array, in increasing order without repeats.
-/

namespace DocQuery

/-- The keys gathered for one read of a collection on a field. -/
structure Batch where
  collection : String
  field : String
  keys : List Json := []
  deriving Repr, Inhabited

namespace Batch

/-- The batch with one key added, unless it has no key or an equal key is present. -/
def addOne (b : Batch) (v : Json) : Batch :=
  match v.key? with
  | none => b
  | some k => if b.keys.any (·.key? == some k) then b else { b with keys := b.keys ++ [v] }

/-- The batch with a parent's key added: each item of an array, or the value itself. -/
def add (b : Batch) (v : Json) : Batch :=
  match v with
  | .arr items => items.foldl addOne b
  | other => b.addOne other

/-- The number of keys gathered. -/
def len (b : Batch) : Nat := b.keys.length

/-- No key has been gathered. -/
def isEmpty (b : Batch) : Bool := b.keys.isEmpty

/-- The selector of the read: the field among the keys, and the node's own selector when it
is not empty. -/
def selector (b : Batch) (own : Document) : Document :=
  let constraint : Document := [(b.field, .obj [("$in", .arr b.keys)])]
  if own.isEmpty then constraint else [("$and", .arr [.obj own, .obj constraint])]

end Batch

/-- Row positions by key text. -/
structure KeyIndex where
  positions : List (String × List Nat) := []
  deriving Repr, Inhabited

namespace KeyIndex

/-- The index with a row position recorded under a key, unless it is the last one there. -/
def record (ix : KeyIndex) (key : String) (pos : Nat) : KeyIndex :=
  match Keyed.get? ix.positions key with
  | none => ⟨Keyed.insert key [pos] ix.positions⟩
  | some ps => if ps.getLast? = some pos then ix else ⟨Keyed.insert key (ps ++ [pos]) ix.positions⟩

/-- The values a row holds at a field: the items of an array, or the value. -/
def heldValues (row : Document) (field : String) : List Json :=
  match row.field? field with
  | none => []
  | some (.arr items) => items
  | some v => [v]

/-- The index of rows on a field. -/
def build (rows : List Document) (field : String) : KeyIndex :=
  (rows.zipIdx).foldl (fun ix (row, pos) =>
    (heldValues row field).foldl (fun ix v =>
      match v.key? with
      | some k => ix.record k pos
      | none => ix) ix) {}

/-- The positions of the rows holding a value's key. -/
def get (ix : KeyIndex) (v : Json) : List Nat :=
  match v.key? with
  | some k => (Keyed.get? ix.positions k).getD []
  | none => []

/-- Inserts a position into a list sorted without repeats. -/
def insertPos (p : Nat) : List Nat → List Nat
  | [] => [p]
  | q :: rest => if p < q then p :: q :: rest else if p = q then q :: rest else q :: insertPos p rest

/-- The positions of the rows matching a parent's key: of the value, or of any item of an
array, in increasing order without repeats. -/
def matching (ix : KeyIndex) (v : Json) : List Nat :=
  let found := match v with
    | .arr items => items.flatMap ix.get
    | other => ix.get other
  found.foldl (fun acc p => insertPos p acc) []

end KeyIndex

end DocQuery
