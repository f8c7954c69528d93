import DocQuery.Graph.Node
import DocQuery.Graph.Batch
import DocQuery.Store.Find

/-!
# Fetching a query graph

A query graph is read level by level, breadth first, one store read per node: the root with its
own options, a child for the keys all its parent's rows offer, with its sort and fields but no
skip or limit, split back per parent through a key index and cut by each parent's skip and
limit. The first failure stops the run. The rows are put together from the deepest level up,
projected, a many relation as an array and a one relation as its row or no field.
-/

namespace DocQuery

/-- A node waiting to be read, with the rows of its parent when it has one. -/
structure FetchTask where
  node : GraphNode
  relation : Option String
  parents : Option (List Document)
  deriving Inhabited

/-- The rows read for a node, and for each parent row the positions of the rows it keeps. -/
structure Fetched where
  node : GraphNode
  relation : Option String
  rows : List Document
  groups : List (List Nat)
  deriving Inhabited

namespace Fetched

/-- The positions of the rows a parent matches in an index, after the skip and the limit of
the node's options. -/
def window (index : KeyIndex) (link : Link) (options : FindOptions) (parent : Document) :
    List Nat :=
  let found := match link.parentKey? parent with
    | some k => index.matching k
    | none => []
  let found := found.drop (options.skip.getD 0)
  match options.limit with
  | some l => found.take l
  | none => found

/-- The positions each parent keeps among rows: its matches, after its skip and limit, and
for a one-to-one relation at most one. -/
def partition (policy : OneToOnePolicy) (relation : Option String) (link : Link)
    (options : FindOptions) (parents rows : List Document) : Except Error (List (List Nat)) :=
  let index := KeyIndex.build rows link.matchField
  parents.mapM fun parent =>
    let found := window index link options parent
    if link.cardinality = .one ∧ 1 < found.length then
      match policy with
      | .reject => .error (.ambiguousOneToOne link.collection (relation.getD "") found.length)
      | .firstBySort => .ok (found.take 1)
    else .ok found

/-- The rows that some group keeps, in order, with the groups renumbered onto them. -/
def compact (rows : List Document) (groups : List (List Nat)) : List Document × List (List Nat) :=
  let kept := (List.range rows.length).filter fun i => groups.any (·.contains i)
  (kept.filterMap (rows[·]?), groups.map (·.map kept.idxOf))

end Fetched

namespace Batch

/-- The batch of the keys that a level's parent rows offer to a link, in row order. -/
def ofParents (link : Link) (parents : List Document) : Batch :=
  parents.foldl (fun b p =>
    match link.parentKey? p with
    | some k => b.add k
    | none => b) ⟨link.collection, link.matchField, []⟩

end Batch

namespace Fetched

/-- The tasks of the children of a read node, in relation-name order, each reading against
the rows the node kept. -/
def childTasks (f : Fetched) : List FetchTask :=
  f.node.children.map fun c => ⟨c.2, some c.1, some f.rows⟩

end Fetched

namespace FetchTask

/-- The store read a task issues: the root reads its selector with its own options; a child
reads the rows whose key is among its parents' keys, with its sort and no skip or limit.
Both read the node's fetch fields. -/
def request (t : FetchTask) : FindRequest :=
  let node := t.node
  match node.link, t.parents with
  | some link, some parents =>
    ⟨node.collection, (Batch.ofParents link parents).selector node.selector,
      { sort := node.options.sort, fields := node.fetchFields }⟩
  | _, _ => ⟨node.collection, node.selector, { node.options with fields := node.fetchFields }⟩

/-- The store read of a task, and its outcome. -/
def run (read : Reader) (policy : OneToOnePolicy) (t : FetchTask) :
    FindRequest × Except Error Fetched :=
  let req := t.request
  (req, match t.node.link, t.parents with
    | some link, some parents =>
      (read req).bind fun rows =>
        (Fetched.partition policy t.relation link t.node.options parents rows).map fun groups =>
          let (kept, groups) := Fetched.compact rows groups
          ⟨t.node, t.relation, kept, groups⟩
    | _, _ => (read req).map fun rows => ⟨t.node, t.relation, rows, []⟩)

/-- The tasks of the children of a read level, parent by parent, in relation-name order. -/
def children (level : List Fetched) : List FetchTask := level.flatMap Fetched.childTasks

/-- Runs the tasks of one level in order, up to the first failure; the reads issued come
first. -/
def runLevel (read : Reader) (policy : OneToOnePolicy) :
    List FetchTask → List FindRequest × Except Error (List Fetched)
  | [] => ([], .ok [])
  | t :: ts =>
    let (req, res) := t.run read policy
    match res with
    | .error e => ([req], .error e)
    | .ok f =>
      let (reqs, rest) := runLevel read policy ts
      (req :: reqs, rest.map (f :: ·))

/-- Runs level after level, the next level made of the children of the last one, for at most
`fuel` levels. -/
def runLevels (read : Reader) (policy : OneToOnePolicy) :
    Nat → List FetchTask → List FindRequest × Except Error (List (List Fetched))
  | 0, _ => ([], .ok [])
  | _, [] => ([], .ok [])
  | fuel + 1, tasks =>
    let (reqs, res) := runLevel read policy tasks
    match res with
    | .error e => (reqs, .error e)
    | .ok level =>
      let (more, rest) := runLevels read policy fuel (children level)
      (reqs ++ more, rest.map (level :: ·))

end FetchTask

namespace Fetched

/-- Attaches a child's rows to parent rows, one group per parent row: a many relation sets the
array of the group's rows, a one relation sets the group's first row or removes the field. -/
def attachChild (relation : String) (card : Cardinality) (childRows : List Document) :
    List Document → List (List Nat) → List Document
  | row :: rows, group :: groups =>
    let row := match card with
      | .many => Object.set row relation (.arr (group.filterMap fun p => (childRows[p]?).map Json.obj))
      | .one =>
        match group.head? >>= (childRows[·]?) with
        | some child => Object.set row relation (.obj child)
        | none => Object.swapErase row relation
    row :: attachChild relation card childRows rows groups
  | rows, [] => rows
  | [], _ :: _ => []

/-- The rows of an entry, projected to its requested fields, with its children attached; each
child comes as its groups and its own put-together rows. -/
def assembleWith (f : Fetched) (kids : List (List (List Nat) × List Document)) : List Document :=
  let rows := match f.node.options.fields with
    | some requested => f.rows.map (Document.project · requested)
    | none => f.rows
  (f.node.children.zip kids).foldl (fun rows (c, kid) =>
    let card := (c.2.link.map (·.cardinality)).getD .many
    attachChild c.1 card kid.2 rows kid.1) rows

/-- Puts a level together given the level below it, already put together in its order; each
entry takes as many entries from below as it has children. -/
def assembleLevel : List Fetched → List (List (List Nat) × List Document) →
    List (List (List Nat) × List Document)
  | [], _ => []
  | f :: fs, below =>
    let k := f.node.children.length
    (f.groups, f.assembleWith (below.take k)) :: assembleLevel fs (below.drop k)

/-- Puts all levels together from the deepest up; the first entry is the root's. -/
def assemble (levels : List (List Fetched)) : List (List (List Nat) × List Document) :=
  levels.foldr assembleLevel []

end Fetched

namespace GraphNode

/-- Reads a query graph: the reads issued, in order, and the root's rows with every relation
attached, or the first failure. -/
def fetch (root : GraphNode) (read : Reader) (policy : OneToOnePolicy) :
    List FindRequest × Except Error (List Document) :=
  let (reqs, res) := FetchTask.runLevels read policy root.nodeCount [⟨root, none, none⟩]
  (reqs, res.map fun levels => ((Fetched.assemble levels).head?.map (·.2)).getD [])

end GraphNode

end DocQuery
