import DocQuery.Graph.Fetch

/-!
# Breadth-first plans

A query graph is laid out as a plan: one entry per node in breadth-first order, each recording
its node, relation, parent index, depth and children's indices. A cursor walks the list while it
grows, appending the children of the entry under it. The indices are then grouped by depth, and
the plan is read level by level, each entry against the rows its parent's read kept in the table
of reads done so far; the first failure ends the run.
-/

namespace DocQuery

/-- A node of a query graph placed in a plan. -/
structure PlanEntry where
  node : GraphNode
  /-- The relation that reaches the node; `none` at the root. -/
  relation : Option String
  /-- The index of the parent's entry; `none` at the root. -/
  parent : Option Nat
  depth : Nat
  /-- The indices of the entries of the node's children. -/
  children : List Nat
  deriving Inhabited

namespace GraphNode

theorem forestSize_append (xs ys : List GraphNode) :
    forestSize (xs ++ ys) = forestSize xs + forestSize ys := by
  induction xs with
  | nil => simp [forestSize]
  | cons x xs ih =>
    simp only [List.cons_append, forestSize, ih]
    omega

end GraphNode

namespace PlanEntry

/-- The entry of a child of the entry at `parent`, whose depth is `depth`. -/
def ofChild (parent depth : Nat) (c : String × GraphNode) : PlanEntry :=
  ⟨c.2, some c.1, some parent, depth + 1, []⟩

/-- Appends the entry of a child of the entry at `cursor` and records its index there. -/
def pushChild (cursor depth : Nat) (plan : List PlanEntry) (c : String × GraphNode) :
    List PlanEntry :=
  (plan ++ [ofChild cursor depth c]).modify cursor
    fun e => { e with children := e.children ++ [plan.length] }

/-- Appends the entries of the children of the entry at `cursor`, in relation-name order. -/
def expand (plan : List PlanEntry) (cursor : Nat) : List PlanEntry :=
  match plan[cursor]? with
  | some e => e.node.children.foldl (pushChild cursor e.depth) plan
  | none => plan

/-- The nodes left to expand: those of the entries from the cursor on, with all their
descendants. -/
def pending (plan : List PlanEntry) (cursor : Nat) : Nat :=
  GraphNode.forestSize ((plan.drop cursor).map (·.node))

/-- The entry at `cursor` with more child indices recorded. -/
def addChildren (more : List Nat) (e : PlanEntry) : PlanEntry :=
  { e with children := e.children ++ more }

theorem modify_append_left {α : Type} {l : List α} {i : Nat} (h : i < l.length) (f : α → α)
    (r : List α) : (l ++ r).modify i f = l.modify i f ++ r := by
  apply List.ext_getElem
  · simp
  · intro j h₁ h₂
    simp only [List.getElem_modify, List.getElem_append]
    split <;> split <;> simp_all

/-- Pushing children one by one appends their entries and records their indices at once. -/
theorem foldl_pushChild {cursor depth : Nat} (cs : List (String × GraphNode)) :
    ∀ {plan : List PlanEntry}, cursor < plan.length →
      cs.foldl (pushChild cursor depth) plan =
        plan.modify cursor (addChildren (List.range' plan.length cs.length)) ++
          cs.map (ofChild cursor depth) := by
  induction cs with
  | nil =>
    intro plan _
    have hid : addChildren [] = id := by funext e; simp [addChildren]
    simp [hid]
  | cons c cs ih =>
    intro plan hc
    have hstep : pushChild cursor depth plan c =
        plan.modify cursor (addChildren [plan.length]) ++ [ofChild cursor depth c] := by
      rw [pushChild, modify_append_left hc]
      rfl
    rw [List.foldl_cons, ih (by simp [pushChild]; omega), hstep,
      modify_append_left (by simpa using hc), List.modify_modify_eq, List.append_assoc]
    have hcomp : addChildren (List.range' (plan.length + 1) cs.length) ∘
        addChildren [plan.length] = addChildren (List.range' plan.length (cs.length + 1)) := by
      funext e
      simp [addChildren, List.range'_succ]
    simp [hcomp]

/-- Expanding the entry at the cursor appends the entries of its node's children and records
their indices in it. -/
theorem expand_eq {plan : List PlanEntry} {cursor : Nat} (h : cursor < plan.length) :
    expand plan cursor =
      plan.modify cursor
          (addChildren (List.range' plan.length plan[cursor].node.children.length)) ++
        plan[cursor].node.children.map (ofChild cursor plan[cursor].depth) := by
  rw [expand, List.getElem?_eq_getElem h]
  exact foldl_pushChild _ h

/-- Expanding the entry at the cursor leaves one node fewer to expand from the next cursor. -/
theorem pending_expand {plan : List PlanEntry} {cursor : Nat} (h : cursor < plan.length) :
    pending (expand plan cursor) (cursor + 1) + 1 = pending plan cursor := by
  have hdrop : (plan.modify cursor (addChildren (List.range' plan.length
      plan[cursor].node.children.length))).drop (cursor + 1) = plan.drop (cursor + 1) :=
    List.drop_modify_of_lt _ _ _ _ (Nat.lt_succ_self cursor)
  have hkids : (plan[cursor].node.children.map (ofChild cursor plan[cursor].depth)).map
      (·.node) = plan[cursor].node.children.map (·.2) := by
    simp [ofChild, Function.comp_def]
  rw [pending, pending, expand_eq h, List.drop_append_of_le_length (by simp; omega), hdrop,
    List.map_append, GraphNode.forestSize_append, hkids, List.drop_eq_getElem_cons h,
    List.map_cons, GraphNode.forestSize, GraphNode.nodeCount_eq plan[cursor].node]
  omega

/-- Expands entry after entry from the cursor on, the plan growing as it goes, until the cursor
passes the last entry. -/
def flattenFrom (plan : List PlanEntry) (cursor : Nat) : List PlanEntry :=
  if h : cursor < plan.length then flattenFrom (expand plan cursor) (cursor + 1) else plan
termination_by pending plan cursor
decreasing_by
  have := pending_expand h
  omega

/-- Adds an entry's index to the level of its depth, opening a new level when the entry is one
deeper than the levels opened so far; an entry deeper still has no level to go to. -/
def addToLevel (levels : List (List Nat)) (entry : PlanEntry × Nat) : Option (List (List Nat)) :=
  let levels := if levels.length ≤ entry.1.depth then levels ++ [[]] else levels
  if entry.1.depth < levels.length then some (levels.modify entry.1.depth (· ++ [entry.2]))
  else none

/-- The indices of a plan grouped by depth, in plan order, or `none` when an entry has no
level to go to. -/
def levels? (plan : List PlanEntry) : Option (List (List Nat)) :=
  plan.zipIdx.foldlM addToLevel []

/-- The task of the entry at `idx`, read against the table of the reads done so far: an entry
with a parent reads against the rows its parent's read kept, or against no rows when the table
has none for the parent. The indices read come from the plan's levels. -/
def taskAt (plan : List PlanEntry) (done : List (Option Fetched)) (idx : Nat) : FetchTask :=
  let e := plan.getD idx default
  ⟨e.node, e.relation, e.parent.map fun p => ((done[p]?).join.map (·.rows)).getD []⟩

/-- The table with the reads of a level filled in at the level's indices. -/
def fill (done : List (Option Fetched)) (level : List Nat) (results : List Fetched) :
    List (Option Fetched) :=
  (level.zip results).foldl (fun d r => d.set r.1 (some r.2)) done

/-- Reads the levels of a plan in order, each against the table of the reads done before it;
a level's reads fill the table once all of them went through, and the first failure ends the
run. The reads issued come first. -/
def resolveLevels (read : Reader) (policy : OneToOnePolicy) (plan : List PlanEntry) :
    List (List Nat) → List (Option Fetched) →
      List FindRequest × Except Error (List (Option Fetched))
  | [], done => ([], .ok done)
  | level :: rest, done =>
    let (reqs, res) := FetchTask.runLevel read policy (level.map (taskAt plan done))
    match res with
    | .error e => (reqs, .error e)
    | .ok results =>
      let (more, out) := resolveLevels read policy plan rest (fill done level results)
      (reqs ++ more, out)

end PlanEntry

namespace GraphNode

/-- The plan of a query graph: its root's entry, expanded entry by entry. -/
def flatten (root : GraphNode) : List PlanEntry :=
  PlanEntry.flattenFrom [⟨root, none, none, 0, []⟩] 0

/-- Reads a query graph through its plan: the reads issued, in order, and the table of what
each entry's read kept, or the first failure; `none` when the plan's entries cannot be grouped
into levels. -/
def resolvePlan (root : GraphNode) (read : Reader) (policy : OneToOnePolicy) :
    Option (List FindRequest × Except Error (List (Option Fetched))) :=
  (PlanEntry.levels? root.flatten).map fun levels =>
    PlanEntry.resolveLevels read policy root.flatten levels (root.flatten.map fun _ => none)

end GraphNode

end DocQuery
