import DocQuery.Proofs.PlanOrder

/-!
# Reading a plan level by level

A plan is read level after level, each entry against the rows its parent's read kept in the
table of reads done so far. A level's reads fill the table at its indices and every entry's
parent lies one level up, so no entry reads against a missing parent
(`PlanEntry.parentsRead_of_grouped`); with the plan's own structure this is
`GraphNode.flatten_levels_parents_read`.
-/

namespace DocQuery

namespace PlanEntry

/-- The table holds a read at index `p`. -/
def Filled (done : List (Option Fetched)) (p : Nat) : Prop := ∃ f, done[p]? = some (some f)

theorem fill_cons (done : List (Option Fetched)) (i : Nat) (level : List Nat) (r : Fetched)
    (results : List Fetched) :
    fill done (i :: level) (r :: results) = fill (done.set i (some r)) level results := rfl

theorem length_fill : ∀ (done : List (Option Fetched)) (level : List Nat) (results : List Fetched),
    (fill done level results).length = done.length
  | _, [], _ => rfl
  | _, _ :: _, [] => rfl
  | done, i :: level, r :: results => by
    rw [fill_cons, length_fill, List.length_set]

/-- Filling in a level's reads keeps the reads of the table and adds one at every index of the
level. -/
theorem filled_fill : ∀ {done : List (Option Fetched)} {level : List Nat} {results : List Fetched},
    results.length = level.length → (∀ i ∈ level, i < done.length) →
    ∀ p, Filled done p ∨ p ∈ level → Filled (fill done level results) p
  | _, [], [], _, _, _, h => h.resolve_right List.not_mem_nil
  | _, [], _ :: _, hlen, _, _, _ => absurd hlen (by simp)
  | _, _ :: _, [], hlen, _, _, _ => absurd hlen (by simp)
  | done, i :: level, r :: results, hlen, hlt, p, h => by
    rw [fill_cons]
    refine filled_fill (by simpa using hlen) (fun j hj => ?_) p ?_
    · rw [List.length_set]
      exact hlt j (List.mem_cons_of_mem i hj)
    · by_cases hpi : p = i
      · subst hpi
        exact .inl ⟨r, List.getElem?_set_self (hlt p List.mem_cons_self)⟩
      · rcases h with ⟨f, hf⟩ | hp
        · exact .inl ⟨f, by rw [List.getElem?_set_ne (Ne.symm hpi), hf]⟩
        · exact .inr ((List.mem_cons.mp hp).resolve_left hpi)

theorem getElem?_eq_getD {plan : List PlanEntry} {i : Nat} (h : i < plan.length) :
    plan[i]? = some (plan.getD i default) := by
  rw [List.getD_eq_getElem?_getD, List.getElem?_eq_getElem h]
  rfl

theorem getD_of_getElem? {plan : List PlanEntry} {i : Nat} {x : PlanEntry} (h : plan[i]? = some x) :
    plan.getD i default = x := by
  rw [List.getD_eq_getElem?_getD, h]
  rfl

theorem depthAt_of_getElem? {plan : List PlanEntry} {i : Nat} {x : PlanEntry}
    (h : plan[i]? = some x) : depthAt plan i = x.depth := by
  rw [depthAt, getD_of_getElem? h]

variable (read : Reader) (policy : OneToOnePolicy) (plan : List PlanEntry)

/-- Every level the run comes to finds, for each of its entries that has a parent, the parent's
read in the table, level after level until the first failure. -/
def ParentsRead : List (List Nat) → List (Option Fetched) → Prop
  | [], _ => True
  | level :: rest, done =>
    (∀ idx ∈ level, ∀ p, (plan.getD idx default).parent = some p → Filled done p) ∧
      match (FetchTask.runLevel read policy (level.map (taskAt plan done))).2 with
      | .error _ => True
      | .ok results => ParentsRead rest (fill done level results)

variable {read policy plan}

/-- Along a run over levels that go by depth, with every entry's parent one level up, each level
finds its parents' reads: the table holds the reads of every entry less deep than the levels
left, and each level's reads, one per entry, fill in its own depth. -/
theorem parentsRead_of_grouped {levels : List (List Nat)} (hg : Grouped plan levels)
    (hparent : ∀ (j : Nat) (e : PlanEntry) (p : Nat), plan[j]? = some e → e.parent = some p →
      ∃ x, plan[p]? = some x ∧ e.depth = x.depth + 1) :
    ∀ (rest : List (List Nat)) (k : Nat) (done : List (Option Fetched)), levels.drop k = rest →
      done.length = plan.length → (∀ p < plan.length, depthAt plan p < k → Filled done p) →
      ParentsRead read policy plan rest done := by
  intro rest
  induction rest with
  | nil => intro _ _ _ _ _; trivial
  | cons level rest ih =>
    intro k done hdrop hlen hfilled
    -- the level lists the entries `k` deep
    have hlevel : levels[k]? = some level := by
      rw [← Nat.add_zero k, ← List.getElem?_drop, hdrop]
      rfl
    refine ⟨fun idx hidx p hp => ?_, ?_⟩
    · -- the parent lies one level up, so its read is in the table
      obtain ⟨hidx, hdepth⟩ := (hg.mem_iff hlevel).mp hidx
      obtain ⟨x, hx, hxd⟩ := hparent idx _ p (getElem?_eq_getD hidx) hp
      refine hfilled p (List.getElem?_eq_some_iff.mp hx).1 ?_
      rw [depthAt_of_getElem? hx]
      rw [depthAt] at hdepth
      omega
    · split
      · trivial
      · rename_i results hres
        -- the level went through: one read per entry, filled in at the level's indices
        have hok := (FetchTask.runLevel_ok (Prod.ext rfl hres :
          FetchTask.runLevel read policy (level.map (taskAt plan done)) = (_, .ok results))).1
        have hrlen : results.length = level.length := by
          rw [← hok.length_eq, List.length_map]
        refine ih (k + 1) _ ?_ (by rw [length_fill, hlen]) fun p hp hpk => ?_
        · rw [← List.drop_drop, hdrop]
          rfl
        · apply filled_fill hrlen fun i hi => hlen ▸ ((hg.mem_iff hlevel).mp hi).1
          rcases Nat.lt_or_ge (depthAt plan p) k with hlt | hge
          · exact .inl (hfilled p hp hlt)
          · exact .inr ((hg.mem_iff hlevel).mpr ⟨hp, by omega⟩)

end PlanEntry

namespace GraphNode

open PlanEntry

/-- Every entry's parent lies one level up. -/
theorem parent_depth_flatten {root : GraphNode} {j p : Nat} {e : PlanEntry}
    (he : root.flatten[j]? = some e) (hp : e.parent = some p) :
    ∃ x, root.flatten[p]? = some x ∧ e.depth = x.depth + 1 := by
  rcases Nat.eq_zero_or_pos j with rfl | hj
  · obtain ⟨r, hr, -, -, hrp, -⟩ := root_flatten root
    rw [hr] at he
    cases he
    rw [hrp] at hp
    cases hp
  · obtain ⟨i, x, hx, -, -, hpar, hdx, -⟩ := parent_flatten he hj
    rw [hpar] at hp
    cases hp
    exact ⟨x, hx, hdx⟩

/-- The plan of a graph lists every node once in breadth-first order, each parent before its
contiguous children and one level up, grouping into one level per depth; read level by level,
every entry with a parent finds that parent's read in the table. -/
theorem flatten_levels_parents_read (root : GraphNode) :
    root.flatten.length = root.nodeCount ∧
    root.flatten.map (·.node) = root.breadthFirst ∧
    (∃ e, root.flatten[0]? = some e ∧ e.node = root ∧ e.relation = none ∧ e.parent = none ∧
      e.depth = 0) ∧
    (∀ j e, root.flatten[j]? = some e → 0 < j →
      ∃ i x, root.flatten[i]? = some x ∧ i < j ∧ e.parent = some i ∧ e.depth = x.depth + 1 ∧
        j ∈ x.children) ∧
    (∀ i x, root.flatten[i]? = some x →
      x.children = List.range' (root.firstChild i) x.node.children.length ∧
      ∀ t (ht : t < x.node.children.length), ∃ e,
        root.flatten[root.firstChild i + t]? = some e ∧ e.node = x.node.children[t].2 ∧
          e.relation = some x.node.children[t].1) ∧
    (∀ j e e', root.flatten[j]? = some e → root.flatten[j + 1]? = some e' →
      e.depth ≤ e'.depth ∧ e'.depth ≤ e.depth + 1) ∧
    ∃ levels, levels? root.flatten = some levels ∧ levels.length = root.depth + 1 ∧
      levels.flatten = List.range root.nodeCount ∧ (∀ level ∈ levels, level ≠ []) ∧
      (∀ k < levels.length, levels[k]? =
        some ((List.range root.nodeCount).filter (depthAt root.flatten · = k))) ∧
      ∀ read policy, ParentsRead read policy root.flatten levels (root.flatten.map fun _ => none) := by
  obtain ⟨levels, hlv, hg, hlen⟩ := levels_flatten root
  refine ⟨length_flatten root, map_node_flatten root, root_flatten root, ?_, ?_, ?_,
    levels, hlv, hlen, ?_, hg.ne_nil, ?_, fun read policy => ?_⟩
  · intro j e he hj
    obtain ⟨i, x, hx, hij, -, hpar, hdx, hmem, -⟩ := parent_flatten he hj
    exact ⟨i, x, hx, hij, hpar, hdx, hmem⟩
  · intro i x hx
    refine ⟨children_flatten hx, fun t ht => ?_⟩
    obtain ⟨e, he, hnode, hrel, -⟩ := kid_flatten hx t ht
    exact ⟨e, he, hnode, hrel⟩
  · exact fun j e e' he he' =>
      ⟨depth_mono_flatten he he' (Nat.le_succ j), depth_succ_le_flatten he he'⟩
  · rw [hg.flatten_eq, length_flatten]
  · rw [← length_flatten]
    exact hg.getElem?_eq
  · -- the run starts from the empty table, with no entry less deep than the first level
    exact parentsRead_of_grouped hg (fun _ _ _ he hp => parent_depth_flatten he hp) levels 0 _
      rfl (by simp) fun p _ hp => absurd hp (Nat.not_lt_zero _)

/-- Posts with their authors and comments, the authors with their profiles: the plan groups
into three levels, the posts, then the authors and comments, then the profiles. -/
theorem flatten_posts_three_levels :
    let root : GraphNode := ⟨"posts", [], {}, none,
      [("author", ⟨"users", [], {}, some (Link.one "users" "authorId"),
          [("profile", ⟨"profiles", [], {}, some (Link.one "profiles" "profileId"), []⟩)]⟩),
       ("comments", ⟨"comments", [], {}, some (Link.inverseMany "comments" "postId"), []⟩)]⟩
    ∃ levels, levels? root.flatten = some levels ∧ levels.length = 3 ∧
      levels.flatten = [0, 1, 2, 3] := by
  intro root
  obtain ⟨-, -, -, -, -, -, levels, hlv, hlen, hflat, -⟩ := flatten_levels_parents_read root
  exact ⟨levels, hlv, hlen, hflat⟩

example : (GraphNode.flatten ⟨"posts", [], {}, none,
      [("author", ⟨"users", [], {}, some (Link.one "users" "authorId"),
          [("profile", ⟨"profiles", [], {}, some (Link.one "profiles" "profileId"), []⟩)]⟩),
       ("comments", ⟨"comments", [], {}, some (Link.inverseMany "comments" "postId"), []⟩)]⟩).map
      (fun e => (e.relation, e.parent, e.depth, e.children)) =
    [(none, none, 0, [1, 2]), (some "author", some 0, 1, [3]), (some "comments", some 0, 1, []),
      (some "profile", some 1, 2, [])] := by
  decide +kernel

end GraphNode

end DocQuery
