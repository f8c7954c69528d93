import DocQuery.Document

/-!
# Links between collections

A link says how the rows of a related collection attach to a parent row: through a key the
parent holds (one row, or many when the parent holds an array of keys), or through a key the
child rows hold that points back at the parent's `_id`. The registry maps a collection and
relation name to its link; registering a pair again replaces its link.
-/

namespace DocQuery

/-- Which side of a relation holds the key. -/
inductive LinkKind where
  /-- The parent holds the child's `_id`. -/
  | parentHoldsKey
  /-- The parent holds an array of child `_id`s. -/
  | manyToMany
  /-- The child holds the parent's `_id`. -/
  | childHoldsKey
  deriving DecidableEq, Repr

/-- How many child rows a parent keeps. -/
inductive Cardinality where
  | one
  | many
  deriving DecidableEq, Repr

/-- How a related collection attaches to a parent. -/
structure Link where
  collection : String
  field : String
  kind : LinkKind
  cardinality : Cardinality
  deriving DecidableEq, Repr

namespace Link

/-- The parent holds the child's `_id` in `field`; one row. -/
def one (collection field : String) : Link := ⟨collection, field, .parentHoldsKey, .one⟩

/-- The parent holds an array of child `_id`s in `field`; many rows. -/
def many (collection field : String) : Link := ⟨collection, field, .manyToMany, .many⟩

/-- The children hold the parent's `_id` in `field`; many rows. -/
def inverseMany (collection field : String) : Link := ⟨collection, field, .childHoldsKey, .many⟩

/-- The child holds the parent's `_id` in `field`; one row. -/
def inverseOne (collection field : String) : Link := ⟨collection, field, .childHoldsKey, .one⟩

/-- The field of the parent rows that holds the key, when the parent holds it. -/
def parentField? (l : Link) : Option String :=
  match l.kind with
  | .parentHoldsKey | .manyToMany => some l.field
  | .childHoldsKey => none

/-- The field of the child rows that holds the key, when the child holds it. -/
def childField? (l : Link) : Option String :=
  match l.kind with
  | .childHoldsKey => some l.field
  | .parentHoldsKey | .manyToMany => none

/-- The field of the child rows that a parent's key is matched against: `_id` when the
parent holds the key, the link's field when the child does. -/
def matchField (l : Link) : String :=
  match l.kind with
  | .parentHoldsKey | .manyToMany => Document.idField
  | .childHoldsKey => l.field

/-- The key a parent row offers: the value at the link's path when the parent holds the key,
its own `_id` when the child does. -/
def parentKey? (l : Link) (parent : Document) : Option Json :=
  match l.kind with
  | .parentHoldsKey | .manyToMany => parent.field? l.field
  | .childHoldsKey => Object.get? parent Document.idField

end Link

/-- The registered links by collection and relation name. -/
structure Links where
  entries : List ((String × String) × Link) := []
  deriving Repr, Inhabited

namespace Links

/-- The registry with a link for a collection and relation, replacing an earlier one. -/
def insert (ls : Links) (collection relation : String) (link : Link) : Links :=
  ⟨(ls.entries.filter (·.1 != (collection, relation))) ++ [((collection, relation), link)]⟩

/-- The link of a collection and relation. -/
def get? (ls : Links) (collection relation : String) : Option Link :=
  (ls.entries.find? (·.1 == (collection, relation))).map (·.2)

/-- The number of registered pairs. -/
def size (ls : Links) : Nat := ls.entries.length

/-- No pair is registered. -/
def isEmpty (ls : Links) : Bool := ls.entries.isEmpty

end Links

end DocQuery
