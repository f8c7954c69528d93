import DocQuery.Store.Selector
import DocQuery.Query.Sort

/-!
# Sorting documents

Values of different kinds sort by kind: missing or `null`, then numbers, strings, objects,
arrays, booleans. Values of one kind sort by their own order where they have one, and
otherwise, objects and arrays, by their compact JSON text. Documents sort by the keys of a
sort in turn, a descending key reversed, and the sort is stable.
-/

namespace DocQuery

namespace Json

/-- The rank of a value's kind in sorting; a missing value ranks with `null`. -/
def kindRank : Option Json → Nat
  | none => 0
  | some .null => 0
  | some (.num _) => 1
  | some (.str _) => 2
  | some (.obj _) => 3
  | some (.arr _) => 4
  | some (.bool _) => 5

/-- The sorting order of two values, either of which may be missing. -/
def sortCmp (a b : Option Json) : Ordering :=
  let ra := kindRank a
  let rb := kindRank b
  if ra ≠ rb then compare ra rb
  else match a, b with
    | some x, some y =>
      match x.compareScalars y with
      | some o => o
      | none => compare x.compact y.compact
    | _, _ => .eq

end Json

namespace Document

/-- The order of two documents under a sort: the first key on which they differ decides. -/
def sortOrder (sort : List SortField) (a b : Document) : Ordering :=
  match sort with
  | [] => .eq
  | s :: rest =>
    let o := Json.sortCmp (a.field? s.field) (b.field? s.field)
    let o := match s.order with
      | .asc => o
      | .desc => o.swap
    if o = .eq then sortOrder rest a b else o

/-- The documents in the order of a sort, equal ones in their given order. -/
def sortAll (sort : List SortField) (docs : List Document) : List Document :=
  if sort.isEmpty then docs else docs.mergeSort fun a b => sortOrder sort a b != .gt

end Document

end DocQuery
