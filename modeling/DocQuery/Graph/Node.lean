import DocQuery.Graph.Link
import DocQuery.Query.Concrete
import DocQuery.Config
import DocQuery.Error

/-!
# Query graphs

Compiling a concrete body against the link registry gives a tree with one node per store read,
each relation a child reading the linked collection, in relation-name order. A node deeper than
the configured maximum, or a relation the registry does not know, is an error, found depth
first. A projecting node also reads `_id` and the key fields its joins need.
-/

namespace DocQuery

/-- One store read of a compiled query, with the reads of its relations below it. -/
structure GraphNode where
  collection : String
  selector : Document
  options : FindOptions
  /-- How the node attaches to its parent; `none` at the root. -/
  link : Option Link
  /-- Child nodes by relation name, in name order. -/
  children : List (String × GraphNode)
  deriving Repr, Inhabited

namespace GraphNode

mutual
/-- The number of nodes of the tree. -/
def nodeCount : GraphNode → Nat
  | ⟨_, _, _, _, children⟩ => 1 + childrenNodeCount children

/-- The number of nodes of a list of trees. -/
def childrenNodeCount : List (String × GraphNode) → Nat
  | [] => 0
  | (_, c) :: rest => nodeCount c + childrenNodeCount rest
end

mutual
/-- The number of edges on the longest path down from the node. -/
def depth : GraphNode → Nat
  | ⟨_, _, _, _, children⟩ => childrenDepth children

/-- The depth a node gets from a list of children: one more than the deepest. -/
def childrenDepth : List (String × GraphNode) → Nat
  | [] => 0
  | (_, c) :: rest => max (depth c + 1) (childrenDepth rest)
end

/-- The nodes of a list of trees, all of them. -/
def forestSize : List GraphNode → Nat
  | [] => 0
  | n :: ns => n.nodeCount + forestSize ns

/-- The children of a list of nodes, parent by parent, each parent's in relation-name order. -/
def childForest (ns : List GraphNode) : List GraphNode := ns.flatMap fun n => n.children.map (·.2)

theorem childrenNodeCount_eq (cs : List (String × GraphNode)) :
    childrenNodeCount cs = forestSize (cs.map (·.2)) := by
  induction cs with
  | nil => rfl
  | cons c rest ih =>
    obtain ⟨name, child⟩ := c
    simp [childrenNodeCount, forestSize, ih]

theorem nodeCount_eq (n : GraphNode) : n.nodeCount = 1 + forestSize (n.children.map (·.2)) := by
  obtain ⟨_, _, _, _, children⟩ := n
  simp only [nodeCount, childrenNodeCount_eq]

/-- Going down one level removes one node per tree from the count. -/
theorem forestSize_childForest (ns : List GraphNode) :
    forestSize (childForest ns) + ns.length = forestSize ns := by
  induction ns with
  | nil => rfl
  | cons n rest ih =>
    have hn := nodeCount_eq n
    have hsplit : childForest (n :: rest) = n.children.map (·.2) ++ childForest rest := by
      simp [childForest]
    have happ : ∀ xs ys, forestSize (xs ++ ys) = forestSize xs + forestSize ys := by
      intro xs ys
      induction xs with
      | nil => simp [forestSize]
      | cons x xs ih =>
        simp only [List.cons_append, forestSize, ih]
        omega
    rw [hsplit, happ, forestSize, List.length_cons]
    omega

/-- The nodes of a list of trees level by level: the trees' roots in order, then their
children, parent by parent, and so on down. -/
def levelOrder (ns : List GraphNode) : List GraphNode :=
  if ns = [] then [] else ns ++ levelOrder (childForest ns)
termination_by forestSize ns
decreasing_by
  rename_i hne
  have := forestSize_childForest ns
  have : 0 < ns.length := List.length_pos_iff.mpr hne
  omega

/-- The nodes of a tree in breadth-first order: the root, then each level in order. -/
def breadthFirst (n : GraphNode) : List GraphNode := levelOrder [n]

/-- Adds a field to a list unless it is there. -/
def addField (fields : List String) (f : String) : List String :=
  if fields.contains f then fields else fields ++ [f]

/-- The fields a projecting node reads: the requested ones, then `_id`, the key field its
rows hold for the parent, and the key fields its children's parents hold. `none` when the node
does not project. -/
def fetchFields (n : GraphNode) : Option (List String) :=
  n.options.fields.map fun requested =>
    let fs := addField requested Document.idField
    let fs := match n.link.bind Link.childField? with
      | some f => addField fs f
      | none => fs
    n.children.foldl (fun fs c =>
      match c.2.link.bind Link.parentField? with
      | some f => addField fs f
      | none => fs) fs

end GraphNode

namespace ConcreteBody

mutual
/-- The node reading `collection` for a body at `depth`, attached by `link`. -/
def compileNode (links : Links) (maxDepth : Option Nat) (collection : String) (link : Option Link)
    (depth : Nat) : ConcreteBody → Except Error GraphNode
  | ⟨selector, options, relations⟩ =>
    match maxDepth with
    | some max =>
      if max < depth then .error (.depthExceeded max)
      else (compileChildren links maxDepth collection depth relations).map
        fun children => ⟨collection, selector, options, link, children⟩
    | none =>
      (compileChildren links maxDepth collection depth relations).map
        fun children => ⟨collection, selector, options, link, children⟩

/-- The child nodes of the relations of a node at `depth` reading `collection`. -/
def compileChildren (links : Links) (maxDepth : Option Nat) (collection : String) (depth : Nat) :
    List (String × ConcreteBody) → Except Error (List (String × GraphNode))
  | [] => .ok []
  | (relation, nested) :: rest =>
    match links.get? collection relation with
    | none => .error (.unknownRelation collection relation)
    | some link =>
      match compileNode links maxDepth link.collection (some link) (depth + 1) nested with
      | .error e => .error e
      | .ok child => (compileChildren links maxDepth collection depth rest).map ((relation, child) :: ·)
end

/-- The query graph of a body read from a collection. -/
def compile (body : ConcreteBody) (collection : String) (links : Links) (config : Config) :
    Except Error GraphNode :=
  compileNode links config.maxDepth collection none 0 body

end ConcreteBody

end DocQuery
