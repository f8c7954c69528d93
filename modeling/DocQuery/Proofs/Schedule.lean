import DocQuery.Proofs.Traversal
import DocQuery.Graph.Fetch

/-!
# The order of store reads

The fetcher reads a query graph level by level and, within a level, task by task, up to the
first failure. This file shows that these are the reads of a breadth-first walk that reads
one node at a time: the tasks met are the starting tasks followed by the child tasks of every
node read, in the order the nodes were read, so each node reads against the rows its parent's
read kept. The nodes come in `GraphNode.levelOrder`; when nothing fails every node is read
once, and a failure ends the run right after the read of the failing node.
-/

namespace DocQuery

namespace GraphNode

/-- Every tree has at least its root, so a forest has at least as many nodes as trees. -/
theorem length_le_forestSize (ns : List GraphNode) : ns.length ≤ forestSize ns := by
  have := forestSize_childForest ns
  omega

theorem levelOrder_nil : levelOrder [] = [] := by
  rw [levelOrder]
  simp

theorem levelOrder_of_ne_nil {ns : List GraphNode} (h : ns ≠ []) :
    levelOrder ns = ns ++ levelOrder (childForest ns) := by
  rw [levelOrder]
  simp [h]

/-- The level order lists every node of the forest once. -/
theorem length_levelOrder (ns : List GraphNode) : (levelOrder ns).length = forestSize ns := by
  induction ns using levelOrder.induct with
  | case1 => simp [levelOrder_nil, forestSize]
  | case2 ns hne ih =>
    rw [levelOrder_of_ne_nil hne, List.length_append, ih]
    have := forestSize_childForest ns
    omega

/-- A property that the trees of a forest have and that passes from every node to its children
holds of every node in the level order. -/
theorem forall_mem_levelOrder {P : GraphNode → Prop}
    (hstep : ∀ n, P n → ∀ c ∈ n.children, P c.2) {ns : List GraphNode}
    (hns : ∀ n ∈ ns, P n) : ∀ n ∈ levelOrder ns, P n := by
  induction ns using levelOrder.induct with
  | case1 => simp [levelOrder_nil]
  | case2 ns hne ih =>
    rw [levelOrder_of_ne_nil hne]
    intro n hn
    rcases List.mem_append.mp hn with hn | hn
    · exact hns n hn
    · apply ih _ n hn
      intro m hm
      simp only [childForest, List.mem_flatMap, List.mem_map] at hm
      obtain ⟨p, hp, c, hc, rfl⟩ := hm
      exact hstep p (hns p hp) c hc

end GraphNode

namespace Fetched

/-- Splitting rows back per parent fails only under the rejecting policy, at the first parent
row whose one-to-one group keeps several rows; the error names the link's collection, the
relation and the size of that group. -/
theorem partition_error {policy : OneToOnePolicy} {relation : Option String} {link : Link}
    {options : FindOptions} {parents rows : List Document} {e : Error}
    (h : partition policy relation link options parents rows = .error e) :
    policy = .reject ∧ link.cardinality = .one ∧
      ∃ before p after, parents = before ++ p :: after ∧
        (∀ q ∈ before, (window (KeyIndex.build rows link.matchField) link options q).length ≤ 1) ∧
        1 < (window (KeyIndex.build rows link.matchField) link options p).length ∧
        e = .ambiguousOneToOne link.collection (relation.getD "")
          (window (KeyIndex.build rows link.matchField) link options p).length := by
  obtain ⟨before, p, after, hsplit, hbefore, hp⟩ := mapM_eq_error h
  have hbad : link.cardinality = .one ∧
      1 < (window (KeyIndex.build rows link.matchField) link options p).length := by
    by_contra hno
    simp only [if_neg hno] at hp
    cases hp
  simp only [if_pos hbad] at hp
  cases policy with
  | firstBySort => cases hp
  | reject =>
    simp only [Except.error.injEq] at hp
    refine ⟨rfl, hbad.1, before, p, after, hsplit, ?_, hbad.2, hp.symm⟩
    intro q hq
    obtain ⟨b, hb⟩ := hbefore q hq
    by_contra hlong
    have hq' : link.cardinality = .one ∧
        1 < (window (KeyIndex.build rows link.matchField) link options q).length :=
      ⟨hbad.1, by omega⟩
    simp only [if_pos hq'] at hb
    cases hb

end Fetched

namespace FetchTask

variable {read : Reader} {policy : OneToOnePolicy}

/-- A task's read went through and its node kept `f`. -/
def Done (read : Reader) (policy : OneToOnePolicy) (t : FetchTask) (f : Fetched) : Prop :=
  (t.run read policy).2 = .ok f

/-- The tasks that a breadth-first walk from `tasks` has met once the nodes in `done` are
read: the starting tasks, then the child tasks of each read node in the order of reading. -/
def schedule (tasks : List FetchTask) (done : List Fetched) : List FetchTask :=
  tasks ++ done.flatMap Fetched.childTasks

@[simp] theorem run_fst (t : FetchTask) : (t.run read policy).1 = t.request := rfl

/-- The outcome of a child task: its read, split back per parent row and compacted. -/
theorem run_snd_child {t : FetchTask} {link : Link} {parents : List Document}
    (hl : t.node.link = some link) (hp : t.parents = some parents) :
    (t.run read policy).2 = (read t.request).bind fun rows =>
      (Fetched.partition policy t.relation link t.node.options parents rows).map fun groups =>
        ⟨t.node, t.relation, (Fetched.compact rows groups).1, (Fetched.compact rows groups).2⟩ := by
  simp only [run, hl, hp]

/-- The outcome of a task without a parent to read against: its read as it is. -/
theorem run_snd_root {t : FetchTask}
    (h : ∀ link parents, t.node.link = some link → t.parents = some parents → False) :
    (t.run read policy).2 = (read t.request).map fun rows => ⟨t.node, t.relation, rows, []⟩ := by
  unfold run
  split
  · rename_i link parents hl hp
    exact (h link parents hl hp).elim
  · rfl

/-- What a read keeps belongs to the task's own node. -/
theorem Done.node_eq {t : FetchTask} {f : Fetched} (h : Done read policy t f) :
    f.node = t.node := by
  unfold Done at h
  by_cases hc : ∃ link parents, t.node.link = some link ∧ t.parents = some parents
  · obtain ⟨link, parents, hl, hp⟩ := hc
    rw [run_snd_child hl hp] at h
    cases hr : read t.request with
    | error e => simp [hr, Except.bind] at h
    | ok rows =>
      cases hpart : Fetched.partition policy t.relation link t.node.options parents rows with
      | error e => simp [hr, hpart, Except.bind, Except.map] at h
      | ok groups =>
        simp only [hr, hpart, Except.bind, Except.map, Except.ok.injEq] at h
        rw [← h]
  · rw [run_snd_root (fun link parents hl hp => hc ⟨link, parents, hl, hp⟩)] at h
    cases hr : read t.request with
    | error e => simp [hr, Except.map] at h
    | ok rows =>
      simp only [hr, Except.map, Except.ok.injEq] at h
      rw [← h]

theorem forall₂_done_nodes {tasks : List FetchTask} {done : List Fetched}
    (h : List.Forall₂ (Done read policy) tasks done) :
    done.map (·.node) = tasks.map (·.node) := by
  induction h with
  | nil => rfl
  | cons hd _ ih => simp [ih, hd.node_eq]

theorem schedule_append (tasks : List FetchTask) (level rest : List Fetched) :
    schedule tasks (level ++ rest) = tasks ++ schedule (children level) rest := by
  simp [schedule, children]

theorem children_nodes (level : List Fetched) :
    (children level).map (·.node) = GraphNode.childForest (level.map (·.node)) := by
  simp [children, Fetched.childTasks, GraphNode.childForest, List.map_flatMap,
    List.flatMap_map, Function.comp_def]

/-- Why a task fails: its read fails, or, under the rejecting policy, the first parent row whose
one-to-one group keeps several rows after skip and limit is refused, and the error names the
link's collection, the relation and the size of that group. -/
def Fails (read : Reader) (policy : OneToOnePolicy) (t : FetchTask) (e : Error) : Prop :=
  read t.request = .error e ∨
    ∃ link parents rows, t.node.link = some link ∧ t.parents = some parents ∧
      read t.request = .ok rows ∧ policy = .reject ∧ link.cardinality = .one ∧
      ∃ before p after, parents = before ++ p :: after ∧
        (∀ q ∈ before,
          (Fetched.window (KeyIndex.build rows link.matchField) link t.node.options q).length ≤ 1) ∧
        1 < (Fetched.window (KeyIndex.build rows link.matchField) link t.node.options p).length ∧
        e = .ambiguousOneToOne link.collection (t.relation.getD "")
          (Fetched.window (KeyIndex.build rows link.matchField) link t.node.options p).length

theorem fails_of_run_error {t : FetchTask} {e : Error} (h : (t.run read policy).2 = .error e) :
    Fails read policy t e := by
  by_cases hc : ∃ link parents, t.node.link = some link ∧ t.parents = some parents
  · obtain ⟨link, parents, hl, hp⟩ := hc
    rw [run_snd_child hl hp] at h
    cases hr : read t.request with
    | error e' =>
      simp only [hr, Except.bind, Except.error.injEq] at h
      exact .inl (h ▸ hr)
    | ok rows =>
      cases hpart : Fetched.partition policy t.relation link t.node.options parents rows with
      | ok groups => simp [hr, hpart, Except.bind, Except.map] at h
      | error e' =>
        simp only [hr, hpart, Except.bind, Except.map, Except.error.injEq] at h
        subst h
        obtain ⟨hpolicy, hcard, rest⟩ := Fetched.partition_error hpart
        exact .inr ⟨link, parents, rows, hl, hp, hr, hpolicy, hcard, rest⟩
  · rw [run_snd_root (fun link parents hl hp => hc ⟨link, parents, hl, hp⟩)] at h
    cases hr : read t.request with
    | error e' =>
      simp only [hr, Except.map, Except.error.injEq] at h
      exact .inl (h ▸ hr)
    | ok rows => simp [hr, Except.map] at h

/-- A run from `start` issued `reqs` and stopped with `e`: the tasks met split into those read
before, which all went through, the failing task, which issued the last read and fails with
`e`, and the rest, which were never read; the nodes read are a prefix of the breadth-first
order. -/
def StopsAt (read : Reader) (policy : OneToOnePolicy) (start : List FetchTask)
    (reqs : List FindRequest) (e : Error) : Prop :=
  ∃ before t after done, schedule start done = before ++ t :: after ∧
    List.Forall₂ (Done read policy) before done ∧ Fails read policy t e ∧
    reqs = (before ++ [t]).map request ∧
    (before ++ [t]).map (·.node) <+: GraphNode.levelOrder (start.map (·.node))

/-! ## One level -/

theorem runLevel_cons (t : FetchTask) (ts : List FetchTask) :
    runLevel read policy (t :: ts) =
      match (t.run read policy).2 with
      | .error e => ([t.request], .error e)
      | .ok f => (t.request :: (runLevel read policy ts).1,
          (runLevel read policy ts).2.map (f :: ·)) := by
  rw [runLevel.eq_2]
  rcases hrun : t.run read policy with ⟨req, res⟩
  have hreq : req = t.request := by
    have h : (t.run read policy).1 = t.request := run_fst t
    rwa [hrun] at h
  subst hreq
  cases res <;> rfl

/-- What the first task of a level can do: fail, ending the level with its own read, or go
through, with the rest of the level read after it. -/
theorem runLevel_cons_cases {t : FetchTask} {ts : List FetchTask} {reqs : List FindRequest}
    {res : Except Error (List Fetched)} (h : runLevel read policy (t :: ts) = (reqs, res)) :
    (∃ e, (t.run read policy).2 = .error e ∧ reqs = [t.request] ∧ res = .error e) ∨
    ∃ f reqs' res', (t.run read policy).2 = .ok f ∧ runLevel read policy ts = (reqs', res') ∧
      reqs = t.request :: reqs' ∧ res = res'.map (f :: ·) := by
  rw [runLevel_cons] at h
  cases hrun : (t.run read policy).2 with
  | error e =>
    simp only [hrun, Prod.mk.injEq] at h
    exact .inl ⟨e, rfl, h.1.symm, h.2.symm⟩
  | ok f =>
    simp only [hrun, Prod.mk.injEq] at h
    exact .inr ⟨f, _, _, rfl, rfl, h.1.symm, h.2.symm⟩

/-- A level read without failure: every task went through, and each issued its read. -/
theorem runLevel_ok {tasks : List FetchTask} {reqs : List FindRequest} {level : List Fetched}
    (h : runLevel read policy tasks = (reqs, .ok level)) :
    List.Forall₂ (Done read policy) tasks level ∧ reqs = tasks.map request := by
  induction tasks generalizing reqs level with
  | nil =>
    simp only [runLevel, Prod.mk.injEq, Except.ok.injEq] at h
    obtain ⟨rfl, rfl⟩ := h
    exact ⟨.nil, rfl⟩
  | cons t ts ih =>
    rcases runLevel_cons_cases h with ⟨e, -, -, hres⟩ | ⟨f, reqs', res', hrun, hrest, rfl, hres⟩
    · cases hres
    · obtain ⟨fs, rfl, rfl⟩ := Except.map_eq_ok.mp hres.symm
      have hts := ih hrest
      exact ⟨.cons hrun hts.1, by simp [hts.2]⟩

/-- A level read that fails: the tasks before the failing one went through, the failing one
issued its read, and no later task did. -/
theorem runLevel_error {tasks : List FetchTask} {reqs : List FindRequest} {e : Error}
    (h : runLevel read policy tasks = (reqs, .error e)) :
    ∃ before t after done, tasks = before ++ t :: after ∧
      List.Forall₂ (Done read policy) before done ∧ (t.run read policy).2 = .error e ∧
      reqs = (before ++ [t]).map request := by
  induction tasks generalizing reqs with
  | nil => simp [runLevel] at h
  | cons t ts ih =>
    rcases runLevel_cons_cases h with ⟨e', hrun, rfl, hres⟩ | ⟨f, reqs', res', hrun, hrest, rfl, hres⟩
    · cases hres
      exact ⟨[], t, ts, [], rfl, .nil, hrun, rfl⟩
    · obtain rfl := Except.map_eq_error.mp hres.symm
      obtain ⟨before, u, after, done, hsplit, hdone, hu, hrq⟩ := ih hrest
      refine ⟨t :: before, u, after, f :: done, by simp [hsplit], .cons hrun hdone, hu, ?_⟩
      rw [hrq]
      rfl

/-! ## Level after level -/

theorem runLevels_cons (fuel : Nat) (t : FetchTask) (ts : List FetchTask) :
    runLevels read policy (fuel + 1) (t :: ts) =
      match (runLevel read policy (t :: ts)).2 with
      | .error e => ((runLevel read policy (t :: ts)).1, .error e)
      | .ok level =>
        ((runLevel read policy (t :: ts)).1 ++ (runLevels read policy fuel (children level)).1,
          (runLevels read policy fuel (children level)).2.map (level :: ·)) := by
  rewrite [runLevels.eq_3 _ _ _ _ (List.cons_ne_nil t ts)]
  rcases runLevel read policy (t :: ts) with ⟨reqs, res⟩
  cases res <;> rfl

/-- What a run of levels can do with fuel left: fail within its first level, which ends the
run, or read that level through and run on from its children with one level less. -/
theorem runLevels_cons_cases {fuel : Nat} {t : FetchTask} {ts : List FetchTask}
    {reqs : List FindRequest} {res : Except Error (List (List Fetched))}
    (h : runLevels read policy (fuel + 1) (t :: ts) = (reqs, res)) :
    (∃ e, runLevel read policy (t :: ts) = (reqs, .error e) ∧ res = .error e) ∨
    ∃ level reqs₁ reqs₂ res', runLevel read policy (t :: ts) = (reqs₁, .ok level) ∧
      runLevels read policy fuel (children level) = (reqs₂, res') ∧
      reqs = reqs₁ ++ reqs₂ ∧ res = res'.map (level :: ·) := by
  rw [runLevels_cons] at h
  cases hlevel : (runLevel read policy (t :: ts)).2 with
  | error e =>
    simp only [hlevel, Prod.mk.injEq] at h
    exact .inl ⟨e, Prod.ext h.1 hlevel, h.2.symm⟩
  | ok level =>
    simp only [hlevel, Prod.mk.injEq] at h
    exact .inr ⟨level, _, _, _, Prod.ext rfl hlevel, rfl, h.1.symm, h.2.symm⟩

/-- The tasks of the next level are the children of the nodes of the level read. -/
theorem children_nodes_of_done {tasks : List FetchTask} {level : List Fetched}
    (hdone : List.Forall₂ (Done read policy) tasks level) :
    (children level).map (·.node) = GraphNode.childForest (tasks.map (·.node)) := by
  rw [children_nodes, forall₂_done_nodes hdone]

/-- Going down one level removes one node per tree, so the children of a nonempty level need
less fuel than the level. -/
theorem forestSize_children_lt {tasks : List FetchTask} {level : List Fetched}
    (hdone : List.Forall₂ (Done read policy) tasks level) (hne : tasks ≠ []) :
    GraphNode.forestSize ((children level).map (·.node)) <
      GraphNode.forestSize (tasks.map (·.node)) := by
  have hsize := GraphNode.forestSize_childForest (tasks.map (·.node))
  have hpos : 0 < tasks.length := List.length_pos_iff.mpr hne
  rw [children_nodes_of_done hdone]
  simp only [List.length_map] at hsize
  omega

theorem forestSize_eq_zero {tasks : List FetchTask}
    (h : GraphNode.forestSize (tasks.map (·.node)) ≤ 0) : tasks = [] := by
  have := GraphNode.length_le_forestSize (tasks.map (·.node))
  simpa using (show tasks.length = 0 by simp at this; omega)

/-- A run that ends without failure, given as much fuel as there are nodes: the tasks met
are exactly the tasks read, in breadth-first order, and each issued its read. -/
theorem runLevels_ok {fuel : Nat} {tasks : List FetchTask} {reqs : List FindRequest}
    {levels : List (List Fetched)} (hfuel : GraphNode.forestSize (tasks.map (·.node)) ≤ fuel)
    (h : runLevels read policy fuel tasks = (reqs, .ok levels)) :
    List.Forall₂ (Done read policy) (schedule tasks levels.flatten) levels.flatten ∧
      reqs = (schedule tasks levels.flatten).map request ∧
      (schedule tasks levels.flatten).map (·.node) = GraphNode.levelOrder (tasks.map (·.node)) := by
  induction fuel generalizing tasks reqs levels with
  | zero =>
    obtain rfl := forestSize_eq_zero hfuel
    simp only [runLevels, Prod.mk.injEq, Except.ok.injEq] at h
    obtain ⟨rfl, rfl⟩ := h
    simp [schedule, GraphNode.levelOrder_nil]
  | succ fuel ih =>
    cases tasks with
    | nil =>
      simp only [runLevels, Prod.mk.injEq, Except.ok.injEq] at h
      obtain ⟨rfl, rfl⟩ := h
      simp [schedule, GraphNode.levelOrder_nil]
    | cons t ts =>
      rcases runLevels_cons_cases h with ⟨e, -, hres⟩ |
        ⟨level, reqs₁, reqs₂, res', hlevel, hrest, rfl, hres⟩
      · cases hres
      · obtain ⟨rest, rfl, rfl⟩ := Except.map_eq_ok.mp hres.symm
        obtain ⟨hdone, rfl⟩ := runLevel_ok hlevel
        have hfuel' := forestSize_children_lt hdone (List.cons_ne_nil t ts)
        obtain ⟨hdone', rfl, horder⟩ := ih (by omega) hrest
        rw [List.flatten_cons, schedule_append]
        refine ⟨List.rel_append hdone hdone', by rw [List.map_append], ?_⟩
        rw [List.map_append, horder, children_nodes_of_done hdone,
          @GraphNode.levelOrder_of_ne_nil ((t :: ts).map (·.node)) (by simp)]

/-- A run that fails: the tasks met split into those read before, each of which went
through, the failing one, which issued the last read, and the rest, which were never read.
The nodes read are a prefix of the breadth-first order. -/
theorem runLevels_error {fuel : Nat} {tasks : List FetchTask} {reqs : List FindRequest}
    {e : Error} (h : runLevels read policy fuel tasks = (reqs, .error e)) :
    ∃ before t after done, schedule tasks done = before ++ t :: after ∧
      List.Forall₂ (Done read policy) before done ∧ (t.run read policy).2 = .error e ∧
      reqs = (before ++ [t]).map request ∧
      (before ++ [t]).map (·.node) <+: GraphNode.levelOrder (tasks.map (·.node)) := by
  induction fuel generalizing tasks reqs with
  | zero => simp [runLevels] at h
  | succ fuel ih =>
    cases tasks with
    | nil => simp [runLevels] at h
    | cons t ts =>
      rw [GraphNode.levelOrder_of_ne_nil (by simp)]
      rcases runLevels_cons_cases h with ⟨e', hlevel, hres⟩ |
        ⟨level, reqs₁, reqs₂, res', hlevel, hrest, rfl, hres⟩
      · -- the first level fails: the rest of the walk was never reached
        cases hres
        obtain ⟨before, u, after, done, hsplit, hdone, hu, hrq⟩ := runLevel_error hlevel
        refine ⟨before, u, after ++ done.flatMap Fetched.childTasks, done, ?_, hdone, hu, hrq, ?_⟩
        · simp [schedule, hsplit]
        · apply List.IsPrefix.trans _ (List.prefix_append _ _)
          rw [hsplit]
          simp
      · -- the first level goes through and the failure lies below it
        obtain rfl := Except.map_eq_error.mp hres.symm
        obtain ⟨hdone, rfl⟩ := runLevel_ok hlevel
        obtain ⟨before, u, after, done, hsplit, hdone', hu, rfl, hprefix⟩ := ih hrest
        refine ⟨(t :: ts) ++ before, u, after, level ++ done, ?_,
          List.rel_append hdone hdone', hu, by simp, ?_⟩
        · rw [schedule_append, hsplit, List.append_assoc]
        · rw [children_nodes_of_done hdone] at hprefix
          simpa [List.append_assoc] using
            (List.prefix_append_right_inj ((t :: ts).map (·.node))).mpr hprefix

end FetchTask

namespace GraphNode

variable {read : Reader} {policy : OneToOnePolicy}

theorem forestSize_singleton (root : GraphNode) : forestSize [root] = root.nodeCount := by
  simp [forestSize]

/-- A read of a graph that succeeds met every node once, in breadth-first order, each read
against the rows its parent kept. -/
theorem fetch_reads_ok {root : GraphNode} {rows : List Document}
    (h : (root.fetch read policy).2 = .ok rows) :
    ∃ done, List.Forall₂ (FetchTask.Done read policy)
        (FetchTask.schedule [⟨root, none, none⟩] done) done ∧
      (root.fetch read policy).1 = (FetchTask.schedule [⟨root, none, none⟩] done).map FetchTask.request ∧
      (FetchTask.schedule [⟨root, none, none⟩] done).map (·.node) = root.breadthFirst := by
  unfold fetch at h ⊢
  cases hrun : (FetchTask.runLevels read policy root.nodeCount [⟨root, none, none⟩]).2 with
  | error e => simp [hrun, Except.map] at h
  | ok levels =>
    obtain ⟨hdone, hreqs, horder⟩ := FetchTask.runLevels_ok
      (by simp [forestSize_singleton]) (Prod.ext rfl hrun : FetchTask.runLevels read policy
        root.nodeCount [⟨root, none, none⟩] = (_, .ok levels))
    exact ⟨levels.flatten, hdone, hreqs, horder⟩

/-- A read of a graph that fails stopped at the first failing node in breadth-first order. -/
theorem fetch_reads_error {root : GraphNode} {e : Error}
    (h : (root.fetch read policy).2 = .error e) :
    FetchTask.StopsAt read policy [⟨root, none, none⟩] (root.fetch read policy).1 e := by
  unfold fetch at h ⊢
  cases hrun : (FetchTask.runLevels read policy root.nodeCount [⟨root, none, none⟩]).2 with
  | ok levels => simp [hrun, Except.map] at h
  | error e' =>
    simp only [hrun, Except.map, Except.error.injEq] at h
    subst h
    obtain ⟨before, t, after, done, hsplit, hdone, ht, hreqs, hprefix⟩ :=
      FetchTask.runLevels_error (Prod.ext rfl hrun : FetchTask.runLevels read policy
        root.nodeCount [⟨root, none, none⟩] = (_, .error e'))
    exact ⟨before, t, after, done, hsplit, hdone, FetchTask.fails_of_run_error ht, hreqs, hprefix⟩

/-- Reading a graph stops at the first failure in breadth-first order: on success every node met
went through; on failure the nodes before went through, the failing node issued the last read,
and the error is its read's or its one-to-one refusal. -/
theorem fetch_stops_at_first_failure (root : GraphNode) (read : Reader)
    (policy : OneToOnePolicy) :
    (∀ rows, (root.fetch read policy).2 = .ok rows →
      ∃ done, List.Forall₂ (FetchTask.Done read policy)
        (FetchTask.schedule [⟨root, none, none⟩] done) done) ∧
    (∀ e, (root.fetch read policy).2 = .error e →
      FetchTask.StopsAt read policy [⟨root, none, none⟩] (root.fetch read policy).1 e) := by
  refine ⟨fun rows h => ?_, fun e h => fetch_reads_error h⟩
  obtain ⟨done, hdone, -, -⟩ := fetch_reads_ok h
  exact ⟨done, hdone⟩

/-- Posts with their comments, read from a store that cannot serve comments: the run stops at
the comments node, after the read of the posts. -/
theorem fetch_stops_at_unavailable_comments :
    let root : GraphNode := ⟨"posts", [], {}, none,
      [("comments", ⟨"comments", [], {}, some (Link.inverseMany "comments" "postId"), []⟩)]⟩
    let read : Reader := fun r =>
      if r.collection = "comments" then .error (.store "comments is unavailable")
      else .ok [[("_id", .str "p1")]]
    (root.fetch read .reject).2 = .error (.store "comments is unavailable") ∧
      FetchTask.StopsAt read .reject [⟨root, none, none⟩] (root.fetch read .reject).1
        (.store "comments is unavailable") :=
  ⟨rfl, (fetch_stops_at_first_failure _ _ _).2 _ rfl⟩

end GraphNode

end DocQuery
