import DocQuery.Proofs.PlanRun

/-!
# A plan is read as a fetch reads the graph

Reading a graph through its plan (`GraphNode.resolvePlan`) takes the levels of the plan one after
the other, each task built from the table of reads done so far; a fetch runs level after level,
each level made of the children of the last one. The two issue the same reads and come to the
same outcome, the plan's table holding the fetch's levels one after the other
(`GraphNode.resolvePlan_eq_runLevels`).
-/

namespace DocQuery

namespace PlanEntry

/-- The table of a plan of `n` entries once the reads `R` of its first entries are done. -/
def tableOf (n : Nat) (R : List Fetched) : List (Option Fetched) :=
  R.map some ++ List.replicate (n - R.length) none

theorem set_tableOf {n : Nat} {R : List Fetched} (h : R.length < n) (r : Fetched) :
    (tableOf n R).set R.length (some r) = tableOf n (R ++ [r]) := by
  obtain ⟨m, hm⟩ : ∃ m, n - R.length = m + 1 := ⟨n - R.length - 1, by omega⟩
  have hm' : n - (R.length + 1) = m := by omega
  simp [tableOf, hm, hm', List.replicate_succ]

/-- Filling in the reads of the entries right after those read extends the reads. -/
theorem fill_tableOf {n : Nat} : ∀ (R rs : List Fetched), R.length + rs.length ≤ n →
    fill (tableOf n R) (List.range' R.length rs.length) rs = tableOf n (R ++ rs)
  | R, [], _ => by simp [fill]
  | R, r :: rs, h => by
    rw [List.length_cons, List.range'_succ, fill_cons, set_tableOf (by simp at h; omega),
      show R.length + 1 = (R ++ [r]).length by simp,
      fill_tableOf (R ++ [r]) rs (by simp at h ⊢; omega), List.append_assoc, List.singleton_append]

theorem getElem?_tableOf {n : Nat} {R : List Fetched} {i : Nat} (h : i < R.length) :
    (tableOf n R)[i]? = some (some R[i]) := by
  rw [tableOf, List.getElem?_append_left (by simpa using h), List.getElem?_map,
    List.getElem?_eq_getElem h, Option.map_some]

theorem tableOf_length {R : List Fetched} : tableOf R.length R = R.map some := by
  simp [tableOf]

theorem resolveLevels_cons (read : Reader) (policy : OneToOnePolicy) (plan : List PlanEntry)
    (level : List Nat) (rest : List (List Nat)) (done : List (Option Fetched)) :
    resolveLevels read policy plan (level :: rest) done =
      match (FetchTask.runLevel read policy (level.map (taskAt plan done))).2 with
      | .error e => ((FetchTask.runLevel read policy (level.map (taskAt plan done))).1, .error e)
      | .ok results =>
        ((FetchTask.runLevel read policy (level.map (taskAt plan done))).1 ++
            (resolveLevels read policy plan rest (fill done level results)).1,
          (resolveLevels read policy plan rest (fill done level results)).2) := by
  rcases h : FetchTask.runLevel read policy (level.map (taskAt plan done)) with
    ⟨reqs, _ | results⟩ <;> simp only [resolveLevels, h]

end PlanEntry

/-- Lists that split the indices below `n` in order hold runs of consecutive indices. -/
theorem range'_of_flatten_eq_range {pre rest : List (List Nat)} {level : List Nat} {n : Nat}
    (h : (pre ++ level :: rest).flatten = List.range n) :
    level = List.range' pre.flatten.length level.length ∧ pre.flatten.length + level.length ≤ n := by
  have hlen : pre.flatten.length + level.length ≤ n := by
    have := congrArg List.length h
    simp only [List.flatten_append, List.flatten_cons, List.length_append, List.length_range] at this
    omega
  refine ⟨List.ext_getElem (by simp) fun i hi _ => ?_, hlen⟩
  have hget := congrArg (·[pre.flatten.length + i]?) h
  simp only [List.flatten_append, List.flatten_cons, ← List.append_assoc] at hget
  rw [List.getElem?_append_left (by simp; omega), List.getElem?_append_right (by omega),
    List.getElem?_range (by omega)] at hget
  simpa [hi] using hget

/-- Nonempty levels are no more than the indices they hold. -/
theorem length_le_length_flatten : ∀ {levels : List (List Nat)}, (∀ level ∈ levels, level ≠ []) →
    levels.length ≤ levels.flatten.length
  | [], _ => le_refl _
  | level :: rest, h => by
    have hlevel : level ≠ [] := h level List.mem_cons_self
    have hrest := length_le_length_flatten fun l hl => h l (List.mem_cons_of_mem level hl)
    have : 0 < level.length := List.length_pos_iff.mpr hlevel
    simp only [List.length_cons, List.flatten_cons, List.length_append]
    omega

namespace PlanEntry

variable {plan : List PlanEntry} {levels : List (List Nat)}

/-- Every index lies less deep than the number of levels. -/
theorem Grouped.depthAt_lt (hg : Grouped plan levels) {i : Nat} (hi : i < plan.length) :
    depthAt plan i < levels.length := by
  have hmem : i ∈ levels.flatten := by rw [hg.flatten_eq]; exact List.mem_range.mpr hi
  obtain ⟨level, hlevel, hi⟩ := List.mem_flatten.mp hmem
  obtain ⟨k, hk, hget⟩ := List.getElem_of_mem hlevel
  rw [((hg.mem_iff (List.getElem?_eq_some_iff.mpr ⟨hk, hget⟩)).mp hi).2]
  exact hk

/-- After the level of depth `k`, the levels go on with the indices `k + 1` deep, of which there
are none past the last level. -/
theorem Grouped.head_eq_filter (hg : Grouped plan levels) {pre rest : List (List Nat)}
    {level : List Nat} (h : pre ++ level :: rest = levels) :
    rest.head?.getD [] = (List.range plan.length).filter (depthAt plan · = pre.length + 1) := by
  cases rest with
  | nil =>
    -- the last level: no index lies deeper
    symm
    refine List.filter_eq_nil_iff.mpr fun i hi => ?_
    have hlt := hg.depthAt_lt (List.mem_range.mp hi)
    rw [← h, List.length_append, List.length_singleton] at hlt
    rw [decide_eq_true_eq]
    omega
  | cons level' rest =>
    have hk : levels[pre.length + 1]? = some level' := by
      rw [← h, List.getElem?_append_right (by omega)]
      simp
    rw [hg.getElem?_eq _ (List.getElem?_eq_some_iff.mp hk).1] at hk
    exact (Option.some.inj hk).symm

end PlanEntry

namespace GraphNode

open PlanEntry

variable {root : GraphNode}

theorem children_getD_flatten {i : Nat} (hi : i < root.flatten.length) :
    (root.flatten.getD i default).children =
      List.range' (root.firstChild i) (root.flatten.getD i default).node.children.length :=
  children_flatten (getElem?_eq_getD hi)

theorem firstChild_succ_flatten {i : Nat} (hi : i < root.flatten.length) :
    root.firstChild (i + 1) =
      root.firstChild i + (root.flatten.getD i default).node.children.length := by
  have hB : i < root.breadthFirst.length := by
    rw [← map_node_flatten, List.length_map]; exact hi
  rw [firstChild_succ hB, List.getD_eq_getElem?_getD, List.getElem?_eq_getElem hi]
  simp only [Option.getD_some, ← map_node_flatten, List.getElem_map]

/-- Only the root's entry lies at depth `0`. -/
theorem depthAt_flatten_eq_zero {j : Nat} (hj : j < root.flatten.length) :
    depthAt root.flatten j = 0 ↔ j = 0 := by
  constructor
  · intro h0
    by_contra hne
    obtain ⟨i, x, -, -, -, -, hdx, -⟩ := parent_flatten (getElem?_eq_getD hj) (Nat.pos_of_ne_zero hne)
    rw [depthAt] at h0
    omega
  · rintro rfl
    obtain ⟨r, hr, -, -, -, hr0⟩ := root_flatten root
    rw [depthAt_of_getElem? hr, hr0]

/-- The entries an entry lists as its children lie one level deeper. -/
theorem depthAt_of_mem_children {i j : Nat} {x : PlanEntry} (hx : root.flatten[i]? = some x)
    (hj : j ∈ x.children) : j < root.flatten.length ∧ depthAt root.flatten j = x.depth + 1 := by
  rw [children_flatten hx, List.mem_range'_1] at hj
  obtain ⟨t, rfl⟩ := Nat.exists_eq_add_of_le hj.1
  obtain ⟨e, he, -, -, -, hde⟩ := kid_flatten hx t (by omega)
  exact ⟨(List.getElem?_eq_some_iff.mp he).1, by rw [depthAt_of_getElem? he, hde]⟩

/-- Every entry one level below the root's is listed among the children of an entry one level
up. -/
theorem exists_parent_of_depthAt {j k : Nat} (hj : j < root.flatten.length)
    (hd : depthAt root.flatten j = k + 1) :
    ∃ i x, root.flatten[i]? = some x ∧ depthAt root.flatten i = k ∧ j ∈ x.children := by
  have hpos : 0 < j := Nat.pos_of_ne_zero fun h0 =>
    absurd ((depthAt_flatten_eq_zero hj).mpr h0) (by omega)
  obtain ⟨i, x, hx, -, -, -, hdx, hmem, -⟩ := parent_flatten (getElem?_eq_getD hj) hpos
  rw [depthAt] at hd
  exact ⟨i, x, hx, by rw [depthAt_of_getElem? hx]; omega, hmem⟩

/-- The children of the entries of one level, in order, are the entries one level deeper. -/
theorem flatMap_children_eq_filter {levels : List (List Nat)} (hg : Grouped root.flatten levels)
    {k : Nat} {level : List Nat} (hk : levels[k]? = some level) :
    level.flatMap (fun i => (root.flatten.getD i default).children) =
      (List.range root.flatten.length).filter (depthAt root.flatten · = k + 1) := by
  have hlt : ∀ i ∈ level, i < root.flatten.length := fun i hi => ((hg.mem_iff hk).mp hi).1
  have hsorted : level.Pairwise (· < ·) := by
    rw [hg.getElem?_eq k (List.getElem?_eq_some_iff.mp hk).1, Option.some.injEq] at hk
    rw [← hk]
    exact (List.pairwise_lt_range).filter _
  -- both sides are increasing, so they are equal once they hold the same indices
  apply List.Pairwise.eq_of_mem_iff (r := (· < ·))
  · -- each entry's children are consecutive, and they come before the next entry's
    refine List.pairwise_flatMap.mpr ⟨fun i hi => ?_, hsorted.imp_of_mem fun ha hb hab => ?_⟩
    · rw [children_getD_flatten (hlt i hi)]
      exact List.pairwise_lt_range'
    · intro x hx y hy
      rw [children_getD_flatten (hlt _ ha), List.mem_range'_1] at hx
      rw [children_getD_flatten (hlt _ hb), List.mem_range'_1] at hy
      have hsucc := firstChild_succ_flatten (hlt _ ha)
      have hmono := root.firstChild_mono (show _ + 1 ≤ _ from hab)
      omega
  · exact (List.pairwise_lt_range).filter _
  · intro j
    simp only [List.mem_flatMap, List.mem_filter, List.mem_range, decide_eq_true_eq]
    constructor
    · rintro ⟨i, hi, hj⟩
      have hdi := ((hg.mem_iff hk).mp hi).2
      rw [depthAt] at hdi
      rw [← hdi]
      exact depthAt_of_mem_children (getElem?_eq_getD (hlt i hi)) hj
    · rintro ⟨hj, hdj⟩
      obtain ⟨i, x, hx, hdi, hmem⟩ := exists_parent_of_depthAt hj hdj
      have hi : i < root.flatten.length := (List.getElem?_eq_some_iff.mp hx).1
      exact ⟨i, (hg.mem_iff hk).mpr ⟨hi, hdi⟩, (getD_of_getElem? hx).symm ▸ hmem⟩

/-- The first level holds the root's entry alone. -/
theorem head_levels_flatten {levels : List (List Nat)} (hg : Grouped root.flatten levels)
    (hpos : 0 < levels.length) : levels.head?.getD [] = [0] := by
  have hlen : 0 < root.flatten.length := by
    obtain ⟨r, hr, -⟩ := root_flatten root
    exact (List.getElem?_eq_some_iff.mp hr).1
  rw [List.head?_eq_getElem?, hg.getElem?_eq 0 hpos, Option.getD_some]
  apply List.Pairwise.eq_of_mem_iff (r := (· < ·)) ((List.pairwise_lt_range).filter _)
    (List.pairwise_singleton _ _)
  intro j
  simp only [List.mem_filter, List.mem_range, decide_eq_true_eq, List.mem_singleton]
  constructor
  · rintro ⟨hj, hd⟩
    exact (depthAt_flatten_eq_zero hj).mp hd
  · rintro rfl
    exact ⟨hlen, (depthAt_flatten_eq_zero hlen).mpr rfl⟩

/-- The tasks of an entry's children, read against a table holding the entry's read, are the
child tasks of that read. -/
theorem map_taskAt_children {done : List (Option Fetched)} {i : Nat} {x : PlanEntry} {f : Fetched}
    (hx : root.flatten[i]? = some x) (hf : done[i]? = some (some f)) (hnode : f.node = x.node) :
    x.children.map (taskAt root.flatten done) = f.childTasks := by
  rw [children_flatten hx, Fetched.childTasks, hnode]
  apply List.ext_getElem (by simp)
  intro t ht _
  simp only [List.length_map, List.length_range'] at ht
  obtain ⟨e, he, hnode', hrel, hpar, -⟩ := kid_flatten hx t ht
  simp only [List.getElem_map, List.getElem_range', Nat.one_mul, taskAt,
    List.getD_eq_getElem?_getD, he, Option.getD_some, hnode', hrel, hpar, Option.map_some, hf,
    Option.join_some]

/-- The tasks of the entries one level deeper, read against a table holding a level's reads,
are the children of those reads. -/
theorem map_taskAt_flatMap_children {done : List (Option Fetched)} :
    ∀ (s : Nat) (results : List Fetched),
      (∀ m (hm : m < results.length), ∃ x, root.flatten[s + m]? = some x ∧
        done[s + m]? = some (some results[m]) ∧ results[m].node = x.node) →
      ((List.range' s results.length).flatMap fun i => (root.flatten.getD i default).children).map
          (taskAt root.flatten done) = FetchTask.children results
  | _, [], _ => rfl
  | s, f :: results, h => by
    obtain ⟨x, hx, hf, hnode⟩ := h 0 (by simp)
    have hxs : root.flatten.getD s default = x := getD_of_getElem? hx
    have hrest := map_taskAt_flatMap_children (s + 1) results fun m hm => by
      obtain ⟨y, hy, hf, hnode⟩ := h (m + 1) (by simp; omega)
      rw [show s + 1 + m = s + (m + 1) by omega]
      exact ⟨y, hy, hf, hnode⟩
    rw [List.length_cons, List.range'_succ, List.flatMap_cons, List.map_append, hrest, hxs,
      map_taskAt_children hx hf hnode]
    rfl

section Run

variable (read : Reader) (policy : OneToOnePolicy)

/-- One level of the plan is one level of a fetch: once the level's reads went through, one per
entry, the table holds them after the reads before, and the tasks of the next level are the
children of the reads. -/
theorem level_step {levels pre rest : List (List Nat)} {level : List Nat} {R results : List Fetched}
    {reqs : List FindRequest} (hg : Grouped root.flatten levels) (hlev : pre ++ level :: rest = levels)
    (hR : R.length = pre.flatten.length)
    (hrun : FetchTask.runLevel read policy (level.map (taskAt root.flatten
      (tableOf root.flatten.length R))) = (reqs, .ok results)) :
    fill (tableOf root.flatten.length R) level results =
        tableOf root.flatten.length (R ++ results) ∧
      FetchTask.children results = (rest.head?.getD []).map
        (taskAt root.flatten (tableOf root.flatten.length (R ++ results))) ∧
      results.length = level.length := by
  obtain ⟨hrange, hbound⟩ := range'_of_flatten_eq_range
    (show (pre ++ level :: rest).flatten = List.range root.flatten.length by rw [hlev, hg.flatten_eq])
  rw [← hR] at hrange hbound
  have hk : levels[pre.length]? = some level := by rw [← hlev]; simp
  obtain ⟨hdone, -⟩ := FetchTask.runLevel_ok hrun
  have hlen : results.length = level.length := by rw [← hdone.length_eq, List.length_map]
  -- the level is the run of indices right after those read, one read each
  refine ⟨?_, ?_, hlen⟩
  · rw [hrange, ← hlen]
    exact fill_tableOf R results (by omega)
  · rw [hg.head_eq_filter hlev, ← flatMap_children_eq_filter hg hk, hrange, ← hlen]
    refine (map_taskAt_flatMap_children R.length results fun m hm => ?_).symm
    have hm' : m < level.length := hlen ▸ hm
    have hi : R.length + m < root.flatten.length := by omega
    have hnode := (hdone.get (by simpa using hm') hm).node_eq
    simp only [List.get_eq_getElem, List.getElem_map, taskAt] at hnode
    refine ⟨root.flatten.getD (R.length + m) default, getElem?_eq_getD hi, ?_, ?_⟩
    · rw [getElem?_tableOf (by simp; omega), List.getElem_append_right (by omega)]
      simp
    · rw [hnode]
      congr 2
      rw [List.getElem_of_eq hrange hm', List.getElem_range', Nat.one_mul]

/-- Reading the levels left of a plan, with the reads of the levels before them in the table,
issues the reads of a fetch run from the tasks of the first level left, and fills the table with
that run's levels one after the other. -/
theorem resolveLevels_eq_runLevels {levels : List (List Nat)} (hg : Grouped root.flatten levels) :
    ∀ (rest pre : List (List Nat)) (R : List Fetched) (fuel : Nat), pre ++ rest = levels →
      R.length = pre.flatten.length → rest.length ≤ fuel →
      resolveLevels read policy root.flatten rest (tableOf root.flatten.length R) =
        ((FetchTask.runLevels read policy fuel ((rest.head?.getD []).map
            (taskAt root.flatten (tableOf root.flatten.length R)))).1,
          (FetchTask.runLevels read policy fuel ((rest.head?.getD []).map
            (taskAt root.flatten (tableOf root.flatten.length R)))).2.map
              fun ls => (R ++ ls.flatten).map some)
  | [], pre, R, fuel, hlev, hR, _ => by
    -- every level read: the reads fill the whole table
    have hn : R.length = root.flatten.length := by
      rw [hR, ← List.append_nil pre, hlev, hg.flatten_eq, List.length_range]
    have hrun : FetchTask.runLevels read policy fuel [] = ([], .ok []) := by cases fuel <;> rfl
    simp [resolveLevels, hrun, ← hn, tableOf_length, Except.map]
  | level :: rest, pre, R, fuel, hlev, hR, hfuel => by
    obtain ⟨fuel, rfl⟩ : ∃ f, fuel = f + 1 := ⟨fuel - 1, by simp at hfuel; omega⟩
    have hne : level ≠ [] := hg.ne_nil level (by rw [← hlev]; simp)
    obtain ⟨t, ts, hts⟩ := List.exists_cons_of_ne_nil
      (List.map_eq_nil_iff.not.mpr hne :
        level.map (taskAt root.flatten (tableOf root.flatten.length R)) ≠ [])
    rw [resolveLevels_cons, List.head?_cons, Option.getD_some, hts, FetchTask.runLevels_cons]
    rcases hrun : FetchTask.runLevel read policy (t :: ts) with ⟨reqs, _ | results⟩
    · -- the level fails: both stop with its reads
      rfl
    · -- the level goes through: both go on from the next level
      obtain ⟨hfill, hnext, hlen⟩ := level_step read policy hg hlev hR (hts ▸ hrun)
      have ih := resolveLevels_eq_runLevels hg rest (pre ++ [level]) (R ++ results) fuel
        (by rw [List.append_assoc, List.singleton_append, hlev])
        (by simp [hR, hlen]) (by simp at hfuel; omega)
      simp only [hfill, ih, ← hnext, Except.map_map]
      congr 2
      funext ls
      simp

end Run

/-- Reading a graph through its plan issues exactly the reads of a fetch, in order, and stops
with the same error; when all reads go through, the table holds the fetch's levels one after the
other. -/
theorem resolvePlan_eq_runLevels (root : GraphNode) (read : Reader) (policy : OneToOnePolicy) :
    root.resolvePlan read policy =
      some ((FetchTask.runLevels read policy root.nodeCount [⟨root, none, none⟩]).1,
        (FetchTask.runLevels read policy root.nodeCount [⟨root, none, none⟩]).2.map
          fun levels => levels.flatten.map some) := by
  obtain ⟨levels, hlv, hg, hdepth⟩ := levels_flatten root
  have hn : root.flatten.length = root.nodeCount := length_flatten root
  have hstart : root.flatten.map (fun _ => none) = tableOf root.flatten.length [] := by
    simp [tableOf, List.map_const']
  -- the run starts from the root's entry alone, read against nothing
  have hroot : taskAt root.flatten (tableOf root.flatten.length []) 0 = ⟨root, none, none⟩ := by
    obtain ⟨r, hr, hnode, hrel, hpar, -⟩ := root_flatten root
    simp [taskAt, List.getD_eq_getElem?_getD, hr, hnode, hrel, hpar]
  have hfuel : levels.length ≤ root.nodeCount := by
    have := length_le_length_flatten hg.ne_nil
    rwa [hg.flatten_eq, List.length_range, hn] at this
  rw [resolvePlan, hlv, Option.map_some, hstart,
    resolveLevels_eq_runLevels read policy hg levels [] [] root.nodeCount rfl rfl hfuel,
    head_levels_flatten hg (by omega), List.map_singleton, hroot]
  simp

/-- The plan issues the reads of a fetch and fails exactly when the fetch fails, with the same
error. -/
theorem resolvePlan_agrees_with_fetch (root : GraphNode) (read : Reader) (policy : OneToOnePolicy) :
    ∃ reqs table, root.resolvePlan read policy = some (reqs, table) ∧
      reqs = (root.fetch read policy).1 ∧
      ∀ e, table = .error e ↔ (root.fetch read policy).2 = .error e := by
  refine ⟨_, _, resolvePlan_eq_runLevels root read policy, rfl, fun e => ?_⟩
  unfold fetch
  cases hrun : (FetchTask.runLevels read policy root.nodeCount [⟨root, none, none⟩]).2 <;>
    simp [hrun, Except.map]

end GraphNode

end DocQuery
