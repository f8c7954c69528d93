import DocQuery.Proofs.Parity
import DocQuery.Proofs.Join
import DocQuery.Proofs.DepthFirst

/-!
# Resolving relations parent by parent

The plain way to resolve a query graph (`GraphNode.resolvePerParent`) reads the store once per
parent row and relation: the rows of the related collection meeting the child's selector and the
row's own key, in the child's sort, after its skip and limit, and for a one-to-one relation the
first or, under the rejecting policy, a failure when there are several. A relation's rows depend
on the parent row only through the key it offers (`GraphNode.ownGroup_congr`).
-/

namespace DocQuery

namespace FindOptions

/-- The rows kept by the skip and then the limit. -/
def page {α : Type} (o : FindOptions) (rows : List α) : List α :=
  let rows := rows.drop (o.skip.getD 0)
  match o.limit with
  | some l => rows.take l
  | none => rows

theorem map_page {α β : Type} (o : FindOptions) (f : α → β) (rows : List α) :
    (o.page rows).map f = o.page (rows.map f) := by
  unfold page
  cases o.limit <;> simp [List.map_drop, List.map_take]

theorem mem_of_mem_page {α : Type} {o : FindOptions} {rows : List α} {x : α} (h : x ∈ o.page rows) :
    x ∈ rows := by
  unfold page at h
  split at h
  · exact List.mem_of_mem_drop (List.mem_of_mem_take h)
  · exact List.mem_of_mem_drop h

end FindOptions

namespace Document

/-- The row cut to the requested fields, or whole when none are requested. -/
def cut (fields : Option (List String)) (d : Document) : Document :=
  match fields with
  | some fs => d.project fs
  | none => d

@[simp] theorem cut_none : cut none = id := rfl

end Document

namespace MemoryStore

/-- A read keeps the documents meeting the selector, sorts them, pages them and cuts them to
the fields. -/
theorem find_eq (store : MemoryStore) (req : FindRequest) :
    store.find req = (req.options.page (Document.sortAll req.options.sort
      ((store.docs req.collection).filter (·.satisfies req.selector)))).map
        (Document.cut req.options.fields) := by
  unfold find FindOptions.page Document.cut
  cases req.options.limit <;> cases req.options.fields <;> simp

end MemoryStore

namespace GraphNode

section PerParent

variable (store : MemoryStore) (policy : OneToOnePolicy)

/-- The rows one parent row reads for a child node on its own: the documents of the child's
collection that meet the child's selector and the parent's key, in the child's sort, after the
child's skip and then its limit. -/
def ownRows (c : GraphNode) (link : Link) (parent : Document) : List Document :=
  c.options.page (store.find ⟨c.collection, (Batch.ofParents link [parent]).selector c.selector,
    { sort := c.options.sort }⟩)

/-- A one-to-one relation keeps at most one row: the first, or under the rejecting policy a
failure naming the link's collection, the relation and the number of rows. -/
def keepOne {α : Type} (relation : String) (link : Link) (rows : List α) :
    Except Error (List α) :=
  if link.cardinality = .one ∧ 1 < rows.length then
    match policy with
    | .reject => .error (.ambiguousOneToOne link.collection relation rows.length)
    | .firstBySort => .ok (rows.take 1)
  else .ok rows

/-- Attaches a relation's rows to a row: an array for a many relation; for a one relation the
first row, or no field when there is none. -/
def attach (relation : String) (card : Cardinality) (rows : List Document) (row : Document) :
    Document :=
  match card with
  | .many => Object.set row relation (.arr (rows.map .obj))
  | .one =>
    match rows.head? with
    | some child => Object.set row relation (.obj child)
    | none => Object.swapErase row relation

mutual
/-- A row of a node resolved on its own: cut to the node's requested fields, with each
relation attached from the row's own read. -/
def resolveRow : GraphNode → Document → Except Error Document
  | ⟨_, _, options, _, children⟩, row => resolveChildren children row (row.cut options.fields)

/-- Attaches the relations of a row in order to `out`, each from the row's own read, whose
rows are resolved in turn. -/
def resolveChildren : List (String × GraphNode) → Document → Document → Except Error Document
  | [], _, out => .ok out
  | (relation, c) :: rest, row, out =>
    match c.link with
    | none => resolveChildren rest row out
    | some link =>
      match keepOne policy relation link (ownRows store c link row) with
      | .error e => .error e
      | .ok group =>
        match group.mapM (resolveRow c) with
        | .error e => .error e
        | .ok rows => resolveChildren rest row (attach relation link.cardinality rows out)
end

/-- The rows a parent row gets for a relation on its own: its own read, at most one row for a
one-to-one relation, each row resolved. -/
def ownGroup (c : GraphNode) (link : Link) (relation : String) (parent : Document) :
    Except Error (List Document) :=
  (keepOne policy relation link (ownRows store c link parent)).bind fun group =>
    group.mapM (resolveRow store policy c)

/-- The root's rows resolved parent by parent: its own read, whole documents in its sort after
its skip and its limit, each row resolved. -/
def resolvePerParent (root : GraphNode) : Except Error (List Document) :=
  (store.find ⟨root.collection, root.selector,
    { sort := root.options.sort, limit := root.options.limit, skip := root.options.skip }⟩).mapM
      (resolveRow store policy root)

theorem resolveRow_eq (n : GraphNode) (row : Document) :
    resolveRow store policy n row =
      resolveChildren store policy n.children row (row.cut n.options.fields) := by
  obtain ⟨_, _, _, _, _⟩ := n
  rfl

theorem resolveChildren_cons_of_link {relation : String} {c : GraphNode} {link : Link}
    (rest : List (String × GraphNode)) (row out : Document) (hl : c.link = some link) :
    resolveChildren store policy ((relation, c) :: rest) row out =
      (ownGroup store policy c link relation row).bind fun rows =>
        resolveChildren store policy rest row (attach relation link.cardinality rows out) := by
  rw [resolveChildren, hl, ownGroup]
  dsimp only
  cases keepOne policy relation link (ownRows store c link row) with
  | error e => rfl
  | ok group =>
    dsimp only [Except.bind]
    cases group.mapM (resolveRow store policy c) <;> rfl

section Rows

variable {relation : String} {c : GraphNode} {link : Link} {D : List Document}
  (rest : List (String × GraphNode)) (o : Document → Document)

/-- When some row's own rows for a relation fail, resolving the rows fails. -/
theorem mapM_resolveChildren_cons_error {e : Error} (hl : c.link = some link)
    (hG : D.mapM (ownGroup store policy c link relation) = .error e) :
    ∃ e', D.mapM (fun d => resolveChildren store policy ((relation, c) :: rest) d (o d)) = .error e' := by
  cases hR : D.mapM fun d => resolveChildren store policy ((relation, c) :: rest) d (o d) with
  | error e' => exact ⟨e', rfl⟩
  | ok vs =>
    rw [mapM_congr_of_mem fun d _ => resolveChildren_cons_of_link store policy rest d (o d) hl] at hR
    exact absurd hR (mapM_bind_ne_ok hG vs)

/-- When every row's own rows for a relation are read, resolving the rows attaches to each row
its own rows and goes on with the remaining relations. -/
theorem mapM_resolveChildren_cons_ok {Gs : List (List Document)} (hl : c.link = some link)
    (hG : D.mapM (ownGroup store policy c link relation) = .ok Gs) :
    D.mapM (fun d => resolveChildren store policy ((relation, c) :: rest) d (o d)) =
      D.mapM fun d => resolveChildren store policy rest d
        (attach relation link.cardinality ((ownGroup store policy c link relation d).toOption.getD []) (o d)) := by
  refine mapM_congr_of_mem fun d hd => ?_
  obtain ⟨rows, hrows⟩ := ok_of_mapM_ok hG hd
  rw [resolveChildren_cons_of_link store policy rest d (o d) hl, hrows]
  rfl

end Rows

/-- A parent's own read depends on the parent only through the key it offers. -/
theorem ownRows_congr (c : GraphNode) (link : Link) {p q : Document}
    (h : link.parentKey? p = link.parentKey? q) : ownRows store c link p = ownRows store c link q := by
  simp only [ownRows, Batch.ofParents_eq, List.filterMap_cons, List.filterMap_nil, h]

theorem ownGroup_congr (c : GraphNode) (link : Link) (relation : String) {p q : Document}
    (h : link.parentKey? p = link.parentKey? q) :
    ownGroup store policy c link relation p = ownGroup store policy c link relation q := by
  rw [ownGroup, ownGroup, ownRows_congr store c link h]

end PerParent

end GraphNode

end DocQuery
