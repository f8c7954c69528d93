import DocQuery.Proofs.Schedule

/-!
# Reading level by level, putting together depth first

The fetcher reads a graph one level at a time and puts the levels together from the deepest up.
With as much fuel as there are nodes this succeeds exactly when every task evaluates depth first
(`FetchTask.evalNode`), with the same results (`FetchTask.runLevels_assemble`), so a fetch gives
the rows of the root's depth-first evaluation (`GraphNode.fetch_eq_evalNode`).
-/

namespace DocQuery

namespace FetchTask

mutual
/-- A node read and put together depth first: its read, then its children's, each against the
rows it kept; the result is its groups and its rows with every relation attached. -/
def evalNode (read : Reader) (policy : OneToOnePolicy) :
    GraphNode → Option String → Option (List Document) →
      Except Error (List (List Nat) × List Document)
  | n@⟨_, _, _, _, children⟩, relation, parents =>
    match (FetchTask.run read policy ⟨n, relation, parents⟩).2 with
    | .error e => .error e
    | .ok f => (evalChildren read policy children f.rows).map fun kids =>
        (f.groups, f.assembleWith kids)

/-- The children of a node evaluated depth first against the rows it kept, in order. -/
def evalChildren (read : Reader) (policy : OneToOnePolicy) :
    List (String × GraphNode) → List Document →
      Except Error (List (List (List Nat) × List Document))
  | [], _ => .ok []
  | (relation, c) :: rest, rows =>
    match evalNode read policy c (some relation) (some rows) with
    | .error e => .error e
    | .ok v => (evalChildren read policy rest rows).map (v :: ·)
end

variable {read : Reader} {policy : OneToOnePolicy}

/-- A task evaluated depth first. -/
def eval (read : Reader) (policy : OneToOnePolicy) (t : FetchTask) :
    Except Error (List (List Nat) × List Document) :=
  evalNode read policy t.node t.relation t.parents

/-- A node evaluates to its read, then its children against the rows it kept. -/
theorem evalNode_eq (read : Reader) (policy : OneToOnePolicy) (n : GraphNode)
    (relation : Option String) (parents : Option (List Document)) :
    evalNode read policy n relation parents =
      (FetchTask.run read policy ⟨n, relation, parents⟩).2.bind fun f =>
        (evalChildren read policy n.children f.rows).map fun kids => (f.groups, f.assembleWith kids) := by
  obtain ⟨collection, selector, options, link, children⟩ := n
  rw [evalNode]
  cases (FetchTask.run read policy _).2 <;> rfl

theorem evalChildren_eq_mapM (children : List (String × GraphNode)) (rows : List Document) :
    evalChildren read policy children rows =
      (children.map fun c => (⟨c.2, some c.1, some rows⟩ : FetchTask)).mapM (eval read policy) := by
  induction children with
  | nil => rfl
  | cons c rest ih =>
    obtain ⟨relation, child⟩ := c
    rw [evalChildren, List.map_cons, List.mapM_cons, ← ih]
    cases h : evalNode read policy child (some relation) (some rows) with
    | error e => simp [eval, h, bind, Except.bind]
    | ok v =>
      cases evalChildren read policy rest rows <;>
        simp [eval, h, bind, Except.bind, Except.map, pure, Except.pure]

/-- A task evaluates depth first to what its read keeps, put together from its child tasks'
evaluations. -/
theorem eval_of_done {t : FetchTask} {f : Fetched} (h : Done read policy t f) :
    eval read policy t = (f.childTasks.mapM (eval read policy)).map fun kids =>
      (f.groups, f.assembleWith kids) := by
  obtain ⟨⟨collection, selector, options, link, children⟩, relation, parents⟩ := t
  have hnode := h.node_eq
  unfold Done at h
  rw [eval, evalNode, h]
  simp only [Fetched.childTasks, hnode, evalChildren_eq_mapM]

theorem eval_of_run_error {t : FetchTask} {e : Error} (h : (t.run read policy).2 = .error e) :
    eval read policy t = .error e := by
  obtain ⟨⟨collection, selector, options, link, children⟩, relation, parents⟩ := t
  rw [eval, evalNode, h]

/-- Putting a level together from the flattened results of its children, each entry taking
as many as its node has children. -/
theorem assembleLevel_flatten {level : List Fetched}
    {kids : List (List (List (List Nat) × List Document))}
    (h : List.Forall₂ (fun f k => k.length = f.node.children.length) level kids) :
    Fetched.assembleLevel level kids.flatten =
      List.zipWith (fun f k => (f.groups, f.assembleWith k)) level kids := by
  induction h with
  | nil => rfl
  | @cons f k fs ks hk _ ih =>
    rw [List.flatten_cons, Fetched.assembleLevel, ← hk, List.take_left, List.drop_left, ih]
    rfl

theorem mapM_flatMap {α β γ ε : Type} {f : α → Except ε β} {g : γ → List α} (l : List γ) :
    (l.flatMap g).mapM f = (l.mapM fun t => (g t).mapM f).map List.flatten := by
  induction l with
  | nil => rfl
  | cons t ts ih =>
    rw [List.flatMap_cons, List.mapM_append, ih, List.mapM_cons]
    cases (g t).mapM f <;> cases ts.mapM (fun t => (g t).mapM f) <;> rfl

theorem runLevel_ok_of_done {tasks : List FetchTask} (h : ∀ u ∈ tasks, ∃ f, Done read policy u f) :
    ∃ level, (runLevel read policy tasks).2 = .ok level := by
  induction tasks with
  | nil => exact ⟨[], rfl⟩
  | cons t ts ih =>
    obtain ⟨f, hf⟩ := h t List.mem_cons_self
    obtain ⟨level, hlevel⟩ := ih fun u hu => h u (List.mem_cons_of_mem _ hu)
    refine ⟨f :: level, ?_⟩
    unfold Done at hf
    rw [runLevel_cons]
    simp [hf, hlevel, Except.map]

/-- Reading levels that all go through gives, put together, the depth-first evaluation of
each starting task. -/
theorem mapM_eval_of_runLevels {fuel : Nat} {tasks : List FetchTask} {reqs : List FindRequest}
    {levels : List (List Fetched)} (hfuel : GraphNode.forestSize (tasks.map (·.node)) ≤ fuel)
    (h : runLevels read policy fuel tasks = (reqs, .ok levels)) :
    tasks.mapM (eval read policy) = .ok (Fetched.assemble levels) := by
  induction fuel generalizing tasks reqs levels with
  | zero =>
    obtain rfl := forestSize_eq_zero hfuel
    simp only [runLevels, Prod.mk.injEq, Except.ok.injEq] at h
    obtain ⟨-, rfl⟩ := h
    rfl
  | succ fuel ih =>
    cases tasks with
    | nil =>
      simp only [runLevels, Prod.mk.injEq, Except.ok.injEq] at h
      obtain ⟨-, rfl⟩ := h
      rfl
    | cons t ts =>
      rcases runLevels_cons_cases h with ⟨e, -, hres⟩ |
        ⟨level, reqs₁, reqs₂, res', hlevel, hrest, -, hres⟩
      · cases hres
      · obtain ⟨rest, rfl, rfl⟩ := Except.map_eq_ok.mp hres.symm
        obtain ⟨hdone, -⟩ := runLevel_ok hlevel
        have hfuel' := forestSize_children_lt hdone (List.cons_ne_nil t ts)
        have hkids := ih (by omega) hrest
        -- Split the children's results back per entry of the level.
        rw [children, mapM_flatMap, Except.map_eq_ok] at hkids
        obtain ⟨kids, hkids, hflat⟩ := hkids
        have hkids := mapM_eq_ok_iff.mp hkids
        have hlen : List.Forall₂ (fun f k => k.length = f.node.children.length) level kids :=
          hkids.imp fun f k hk => by
            simpa [Fetched.childTasks] using (List.Forall₂.length_eq (mapM_eq_ok_iff.mp hk)).symm
        rw [Fetched.assemble, List.foldr_cons, ← Fetched.assemble, ← hflat,
          assembleLevel_flatten hlen]
        refine mapM_eq_ok_iff.mpr (forall₂_zipWith hdone hkids fun u f k hu hk => ?_)
        rw [eval_of_done hu, hk]
        rfl

/-- When every starting task evaluates depth first, reading the levels goes through. -/
theorem runLevels_ok_of_eval {fuel : Nat} {tasks : List FetchTask} {vs : List _}
    (hfuel : GraphNode.forestSize (tasks.map (·.node)) ≤ fuel)
    (h : tasks.mapM (eval read policy) = .ok vs) :
    ∃ reqs levels, runLevels read policy fuel tasks = (reqs, .ok levels) := by
  induction fuel generalizing tasks vs with
  | zero =>
    obtain rfl := forestSize_eq_zero hfuel
    exact ⟨[], [], rfl⟩
  | succ fuel ih =>
    cases tasks with
    | nil => exact ⟨[], [], rfl⟩
    | cons t ts =>
      have hevals := mapM_eq_ok_iff.mp h
      -- Every task of the level reads without failure.
      have hruns : ∀ u ∈ t :: ts, ∃ f, Done read policy u f := by
        intro u hu
        obtain ⟨v, -, hv⟩ := forall₂_exists_of_mem_left hevals hu
        cases hrun : (u.run read policy).2 with
        | error e => rw [eval_of_run_error hrun] at hv; cases hv
        | ok f => exact ⟨f, hrun⟩
      obtain ⟨level, hlevel⟩ := runLevel_ok_of_done hruns
      obtain ⟨hdone, -⟩ := runLevel_ok (Prod.ext rfl hlevel :
        runLevel read policy (t :: ts) = ((runLevel read policy (t :: ts)).1, .ok level))
      -- Every child task evaluates, since its parent's evaluation used its result.
      have hkids : ∀ f ∈ level, ∃ k, f.childTasks.mapM (eval read policy) = .ok k := by
        intro f hf
        obtain ⟨u, hu, hdoneu⟩ := forall₂_exists_of_mem_right hdone hf
        obtain ⟨v, -, hv⟩ := forall₂_exists_of_mem_left hevals hu
        rw [eval_of_done hdoneu, Except.map_eq_ok] at hv
        obtain ⟨k, hk, -⟩ := hv
        exact ⟨k, hk⟩
      obtain ⟨kids, hkids⟩ := mapM_ok_of_forall hkids
      have hchildren : (children level).mapM (eval read policy) = .ok kids.flatten := by
        rw [children, mapM_flatMap, hkids]
        rfl
      obtain ⟨reqs, rest, hrest⟩ := ih
        (by have := forestSize_children_lt hdone (List.cons_ne_nil t ts); omega) hchildren
      refine ⟨(runLevel read policy (t :: ts)).1 ++ reqs, level :: rest, ?_⟩
      rw [runLevels_cons, hlevel]
      simp [hrest, Except.map]

/-- With as much fuel as there are nodes, reading the levels and putting them together goes
through exactly when every starting task evaluates depth first, and gives the same results. -/
theorem runLevels_assemble {fuel : Nat} {tasks : List FetchTask}
    (hfuel : GraphNode.forestSize (tasks.map (·.node)) ≤ fuel) :
    ((runLevels read policy fuel tasks).2.map Fetched.assemble).toOption =
      (tasks.mapM (eval read policy)).toOption := by
  rcases hrun : runLevels read policy fuel tasks with ⟨reqs, res⟩
  cases res with
  | ok levels => rw [mapM_eval_of_runLevels hfuel hrun]; rfl
  | error e =>
    cases hm : tasks.mapM (eval read policy) with
    | error e' => rfl
    | ok vs =>
      obtain ⟨reqs', levels, hok⟩ := runLevels_ok_of_eval hfuel hm
      rw [hrun] at hok
      cases hok

end FetchTask

namespace GraphNode

/-- A fetch gives the rows of the root's depth-first evaluation, and fails exactly when that
evaluation does. -/
theorem fetch_eq_evalNode (root : GraphNode) (read : Reader) (policy : OneToOnePolicy) :
    (root.fetch read policy).2.toOption =
      ((FetchTask.evalNode read policy root none none).map (·.2)).toOption := by
  have h := @FetchTask.runLevels_assemble read policy root.nodeCount [⟨root, none, none⟩]
    (by simp [forestSize])
  unfold fetch
  rcases hrun : FetchTask.runLevels read policy root.nodeCount [⟨root, none, none⟩] with
    ⟨reqs, res⟩
  rw [hrun] at h
  have heval : [(⟨root, none, none⟩ : FetchTask)].mapM (FetchTask.eval read policy) =
      (FetchTask.evalNode read policy root none none).map ([·]) := by
    simp only [List.mapM_cons, List.mapM_nil, FetchTask.eval]
    cases FetchTask.evalNode read policy root none none <;> rfl
  rw [heval] at h
  cases res with
  | ok levels =>
    cases hv : FetchTask.evalNode read policy root none none with
    | error e => simp [hv, Except.map, Except.toOption] at h
    | ok v => simp_all [Except.map, Except.toOption]
  | error e =>
    cases hv : FetchTask.evalNode read policy root none none with
    | error e' => rfl
    | ok v => simp [hv, Except.map, Except.toOption] at h

end GraphNode

end DocQuery
