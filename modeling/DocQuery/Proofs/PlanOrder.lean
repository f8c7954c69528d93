import DocQuery.Graph.Plan
import DocQuery.Proofs.Schedule

/-!
# The breadth-first plan of a query graph

The plan lists every node once, in breadth-first order, the root first; the `t`-th child of the
entry at `i` sits at `firstChild i + t`. So an entry's children are contiguous and in name order,
its parent comes before it one level up, and the depths never decrease and grow by at most one,
which groups the plan into levels (`GraphNode.levels_flatten`). The proof follows the cursor
walk that builds the plan (`PlanEntry.Walk`).
-/

namespace DocQuery

namespace GraphNode

theorem childForest_append (xs ys : List GraphNode) :
    childForest (xs ++ ys) = childForest xs ++ childForest ys := by
  simp [childForest]

theorem childForest_singleton (n : GraphNode) : childForest [n] = n.children.map (·.2) := by
  simp [childForest]

/-- Going down one level commutes with listing level by level. -/
theorem childForest_levelOrder (ns : List GraphNode) :
    childForest (levelOrder ns) = levelOrder (childForest ns) := by
  induction ns using levelOrder.induct with
  | case1 => simp [levelOrder_nil, childForest]
  | case2 ns hne ih =>
    rw [levelOrder_of_ne_nil hne, childForest_append, ih]
    by_cases hnil : childForest ns = []
    · rw [hnil]
      simp [levelOrder_nil, childForest]
    · rw [levelOrder_of_ne_nil hnil]

/-- The breadth-first order is the root followed by the children of the nodes of the order,
taken in order. -/
theorem breadthFirst_eq (n : GraphNode) : n.breadthFirst = n :: childForest n.breadthFirst := by
  rw [breadthFirst, childForest_levelOrder, levelOrder_of_ne_nil (List.cons_ne_nil n [])]
  rfl

theorem length_breadthFirst (n : GraphNode) : n.breadthFirst.length = n.nodeCount := by
  rw [breadthFirst, length_levelOrder, forestSize_singleton]

/-- Where the children of the `i`-th node of the breadth-first order start: one past the
children of the nodes before it. -/
def firstChild (root : GraphNode) (i : Nat) : Nat :=
  1 + (childForest (root.breadthFirst.take i)).length

theorem firstChild_zero (root : GraphNode) : root.firstChild 0 = 1 := by
  simp [firstChild, childForest]

theorem firstChild_succ {root : GraphNode} {i : Nat} (h : i < root.breadthFirst.length) :
    root.firstChild (i + 1) = root.firstChild i + root.breadthFirst[i].children.length := by
  rw [firstChild, firstChild, List.take_succ_eq_append_getElem h, childForest_append,
    childForest_singleton, List.length_append, List.length_map]
  omega

theorem firstChild_mono (root : GraphNode) {i j : Nat} (h : i ≤ j) :
    root.firstChild i ≤ root.firstChild j := by
  have hsplit : root.breadthFirst.take j =
      root.breadthFirst.take i ++ (root.breadthFirst.take j).drop i := by
    conv_lhs => rw [← List.take_append_drop i (root.breadthFirst.take j), List.take_take,
      Nat.min_eq_left h]
  unfold firstChild
  rw [hsplit, childForest_append, List.length_append]
  omega

/-- Past the last node come no more children: the order is the root and the children of its
nodes. -/
theorem firstChild_length (root : GraphNode) :
    root.firstChild root.breadthFirst.length = root.breadthFirst.length := by
  have hlen := congrArg List.length (breadthFirst_eq root)
  rw [List.length_cons] at hlen
  rw [firstChild, List.take_length]
  omega

/-- Past the children of the nodes before the `i`-th come its own children, then those of the
nodes after it. -/
theorem drop_firstChild {root : GraphNode} {i : Nat} (h : i < root.breadthFirst.length) :
    root.breadthFirst.drop (root.firstChild i) =
      root.breadthFirst[i].children.map (·.2) ++ childForest (root.breadthFirst.drop (i + 1)) := by
  have hB := breadthFirst_eq root
  have htail : root.breadthFirst.drop 1 =
      childForest (root.breadthFirst.take i) ++ childForest (root.breadthFirst.drop i) := by
    conv_lhs => rw [hB]
    rw [List.drop_one, List.tail_cons, ← childForest_append, List.take_append_drop]
  rw [firstChild, ← List.drop_drop, htail, List.drop_left,
    List.drop_eq_getElem_cons h, ← List.singleton_append, childForest_append,
    childForest_singleton]

theorem depth_eq (n : GraphNode) : n.depth = childrenDepth n.children := by
  obtain ⟨_, _, _, _, children⟩ := n
  simp only [depth]

/-- A child lies at least one level less deep than its parent. -/
theorem childrenDepth_le : ∀ {cs : List (String × GraphNode)} {t : Nat} (ht : t < cs.length),
    cs[t].2.depth + 1 ≤ childrenDepth cs
  | (_, c) :: cs, 0, _ => by simp [childrenDepth]
  | (_, c) :: cs, t + 1, ht => by
    have := @childrenDepth_le cs t (by simpa using ht)
    simp only [List.getElem_cons_succ, childrenDepth]
    omega

/-- Below a node that has children lies a child exactly one level less deep. -/
theorem exists_childrenDepth : ∀ (cs : List (String × GraphNode)), 0 < childrenDepth cs →
    ∃ t, ∃ ht : t < cs.length, cs[t].2.depth + 1 = childrenDepth cs
  | [], h => absurd h (Nat.lt_irrefl 0)
  | (_, c) :: cs, _ => by
    by_cases hfirst : childrenDepth cs ≤ c.depth + 1
    · exact ⟨0, by simp, by simp [childrenDepth, hfirst]⟩
    · obtain ⟨t, ht, hdeep⟩ := exists_childrenDepth cs (by omega)
      exact ⟨t + 1, by simpa using ht, by simp only [List.getElem_cons_succ, childrenDepth]; omega⟩

end GraphNode

namespace PlanEntry

/-! ## One expansion -/

section Expand

variable {plan : List PlanEntry} {cursor : Nat} {e : PlanEntry}

/-- Expanding the entry `e` under the cursor appends the entries of its node's children and
records their indices in it. -/
theorem expand_of_getElem? (he : plan[cursor]? = some e) :
    expand plan cursor =
      plan.modify cursor (addChildren (List.range' plan.length e.node.children.length)) ++
        e.node.children.map (ofChild cursor e.depth) := by
  rw [expand, he]
  exact foldl_pushChild _ (List.getElem?_eq_some_iff.mp he).1

/-- Expanding keeps the entries there were, adding child indices to the cursor's. -/
theorem getElem?_expand_of_lt (he : plan[cursor]? = some e) {j : Nat} (hj : j < plan.length) :
    (expand plan cursor)[j]? = plan[j]?.map fun x => if cursor = j then
      addChildren (List.range' plan.length e.node.children.length) x else x := by
  rw [expand_of_getElem? he, List.getElem?_append_left (by simpa using hj), List.getElem?_modify]
  rfl

/-- Expanding appends the entries of the cursor's children. -/
theorem getElem?_expand_kid (he : plan[cursor]? = some e) (t : Nat) :
    (expand plan cursor)[plan.length + t]? =
      (e.node.children[t]?).map (ofChild cursor e.depth) := by
  rw [expand_of_getElem? he, List.getElem?_append_right (by simp)]
  simp

theorem length_expand (he : plan[cursor]? = some e) :
    (expand plan cursor).length = plan.length + e.node.children.length := by
  simp [expand_of_getElem? he]

/-- The entries there were keep their node, relation, parent and depth. -/
theorem expand_keeps (he : plan[cursor]? = some e) {j : Nat} {x : PlanEntry}
    (hx : plan[j]? = some x) : ∃ x', (expand plan cursor)[j]? = some x' ∧ x'.node = x.node ∧
      x'.relation = x.relation ∧ x'.parent = x.parent ∧ x'.depth = x.depth := by
  have hj : j < plan.length := (List.getElem?_eq_some_iff.mp hx).1
  rw [getElem?_expand_of_lt he hj, hx, Option.map_some]
  refine ⟨_, rfl, ?_⟩
  split <;> simp [addChildren]

theorem map_node_expand (he : plan[cursor]? = some e) :
    (expand plan cursor).map (·.node) = plan.map (·.node) ++ e.node.children.map (·.2) := by
  have hmodify : (plan.modify cursor (addChildren
      (List.range' plan.length e.node.children.length))).map (·.node) = plan.map (·.node) := by
    apply List.ext_getElem?
    intro j
    simp only [List.getElem?_map, List.getElem?_modify]
    cases plan[j]? with
    | none => rfl
    | some x => simp only [Option.map_some]; split <;> rfl
  rw [expand_of_getElem? he, List.map_append, hmodify, List.map_map]
  rfl

end Expand

/-! ## Levels -/

/-- The depth of the entry at an index. -/
def depthAt (plan : List PlanEntry) (i : Nat) : Nat := (plan.getD i default).depth

/-- The levels of a plan: one per depth up to that of the last entry, each listing in order the
indices of the entries of its depth; read one after the other they list every index once, in
order, and none is empty. -/
structure Grouped (plan : List PlanEntry) (levels : List (List Nat)) : Prop where
  length_eq : ∀ e : PlanEntry, plan.getLast? = some e → levels.length = e.depth + 1
  getElem?_eq : ∀ k < levels.length,
    levels[k]? = some ((List.range plan.length).filter (depthAt plan · = k))
  flatten_eq : levels.flatten = List.range plan.length
  ne_nil : ∀ level ∈ levels, level ≠ []

/-- The level of depth `k` lists exactly the indices of the entries `k` deep. -/
theorem Grouped.mem_iff {plan : List PlanEntry} {levels : List (List Nat)}
    (hg : Grouped plan levels) {k : Nat} {level : List Nat} (hk : levels[k]? = some level)
    {idx : Nat} : idx ∈ level ↔ idx < plan.length ∧ depthAt plan idx = k := by
  rw [hg.getElem?_eq k (List.getElem?_eq_some_iff.mp hk).1, Option.some.injEq] at hk
  rw [← hk, List.mem_filter, List.mem_range, decide_eq_true_eq]

theorem levels?_append (plan : List PlanEntry) (x : PlanEntry) :
    levels? (plan ++ [x]) = (levels? plan).bind (addToLevel · (x, plan.length)) := by
  simp [levels?, List.zipIdx_append]

theorem depthAt_append_of_lt {plan : List PlanEntry} (x : PlanEntry) {i : Nat}
    (hi : i < plan.length) : depthAt (plan ++ [x]) i = depthAt plan i := by
  simp [depthAt, List.getD_eq_getElem?_getD, List.getElem?_append_left hi]

theorem depthAt_length (plan : List PlanEntry) (x : PlanEntry) :
    depthAt (plan ++ [x]) plan.length = x.depth := by
  simp [depthAt, List.getD_eq_getElem?_getD]

theorem modify_concat_length {α : Type} (l : List α) (a : α) (f : α → α) :
    (l ++ [a]).modify l.length f = l ++ [f a] := by
  induction l with
  | nil => rfl
  | cons b l ih => simp [ih]

/-- Grouping one more entry, as deep as the last one or one deeper, adds its index to the last
level or to a new one. -/
theorem Grouped.append {plan : List PlanEntry} {levels : List (List Nat)} {last x : PlanEntry}
    (hg : Grouped plan levels) (hlast : plan.getLast? = some last)
    (hle : ∀ i < plan.length, depthAt plan i ≤ last.depth)
    (hstep : last.depth ≤ x.depth ∧ x.depth ≤ last.depth + 1) :
    ∃ levels', addToLevel levels (x, plan.length) = some levels' ∧ Grouped (plan ++ [x]) levels' := by
  have hlen := hg.length_eq last hlast
  -- the filters over one more index gain it at its own depth only
  have hfilter : ∀ k, (List.range (plan ++ [x]).length).filter (depthAt (plan ++ [x]) · = k) =
      (List.range plan.length).filter (depthAt plan · = k) ++
        if x.depth = k then [plan.length] else [] := by
    intro k
    rw [List.length_append, List.length_singleton, List.range_succ, List.filter_append,
      List.filter_congr fun i hi => by rw [depthAt_append_of_lt x (List.mem_range.mp hi)],
      List.filter_cons, depthAt_length]
    simp
  have hrange : List.range (plan ++ [x]).length = List.range plan.length ++ [plan.length] := by
    simp [List.range_succ]
  rcases Nat.eq_or_lt_of_le hstep.1 with hsame | hdeeper
  · -- as deep as the last entry: it joins the last level
    obtain ⟨init, l, hsplit⟩ : ∃ init l, levels = init ++ [l] := by
      rcases List.eq_nil_or_concat levels with h | h
      · simp [h] at hlen
      · simpa using h
    have hx : x.depth = init.length := by simp [hsplit] at hlen; omega
    refine ⟨levels.modify x.depth (· ++ [plan.length]), ?_, ⟨?_, ?_, ?_, ?_⟩⟩
    · simp [addToLevel, show ¬ levels.length ≤ x.depth by omega, show x.depth < levels.length by omega]
    · intro e he
      rw [List.getLast?_concat] at he
      cases he
      simp [hlen, hsame]
    · intro k hk
      rw [List.length_modify] at hk
      rw [List.getElem?_modify, hg.getElem?_eq k hk, hfilter]
      by_cases hkx : x.depth = k <;> simp [hkx]
    · rw [hrange, ← hg.flatten_eq, hsplit, hx, modify_concat_length]
      simp
    · rw [hsplit, hx, modify_concat_length]
      intro level hl
      rcases List.mem_append.mp hl with hl | hl
      · exact hg.ne_nil level (by simp [hsplit, hl])
      · simp at hl
        simp [hl]
  · -- one deeper: it opens a new level
    have hx : x.depth = levels.length := by omega
    refine ⟨levels ++ [[plan.length]], ?_, ⟨?_, ?_, ?_, ?_⟩⟩
    · simp [addToLevel, hx, modify_concat_length]
    · intro e he
      rw [List.getLast?_concat] at he
      cases he
      simp [hx]
    · intro k hk
      simp only [List.length_append, List.length_singleton] at hk
      rw [hfilter]
      rcases Nat.lt_or_ge k levels.length with hk' | hk'
      · rw [List.getElem?_append_left hk', hg.getElem?_eq k hk']
        simp [show x.depth ≠ k by omega]
      · have hk : k = levels.length := by omega
        subst hk
        -- no earlier entry is that deep
        have hnone : (List.range plan.length).filter (depthAt plan · = levels.length) = [] := by
          rw [List.filter_eq_nil_iff]
          intro i hi
          have := hle i (List.mem_range.mp hi)
          simp only [decide_eq_true_eq]
          omega
        simp [hnone, hx]
    · rw [hrange, ← hg.flatten_eq, List.flatten_concat]
    · intro level hl
      rcases List.mem_append.mp hl with hl | hl
      · exact hg.ne_nil level hl
      · simp at hl
        simp [hl]

/-- Grouping a plan whose depths start at zero and grow by at most one from entry to entry
never lacks a level: there is one level per depth up to that of the last entry, each listing in
order the indices of the entries of its depth. -/
theorem levels?_of_steps : ∀ {plan : List PlanEntry}, plan ≠ [] →
    (∀ e : PlanEntry, plan[0]? = some e → e.depth = 0) →
    (∀ (j : Nat) (e e' : PlanEntry), plan[j]? = some e → plan[j + 1]? = some e' →
      e.depth ≤ e'.depth ∧ e'.depth ≤ e.depth + 1) →
    ∃ levels, levels? plan = some levels ∧ Grouped plan levels ∧
      ∀ e : PlanEntry, plan.getLast? = some e → ∀ i < plan.length, depthAt plan i ≤ e.depth := by
  intro plan
  induction plan using List.reverseRecOn with
  | nil => intro h; exact absurd rfl h
  | append_singleton plan x ih =>
    intro _ hstart hstep
    by_cases hnil : plan = []
    · subst hnil
      have hx : x.depth = 0 := hstart x rfl
      refine ⟨[[0]], by simp [levels?, addToLevel, hx],
        ⟨fun e he => ?_, fun k hk => ?_, rfl, by simp⟩, fun e he i hi => ?_⟩
      · cases he
        simp [hx]
      · simp only [List.length_singleton, Nat.lt_one_iff] at hk
        subst hk
        simp [depthAt, hx]
      · cases he
        simp only [List.nil_append, List.length_singleton, Nat.lt_one_iff] at hi
        subst hi
        simp [depthAt]
    · -- the entries before the last one are grouped already
      have hstart' : ∀ e : PlanEntry, plan[0]? = some e → e.depth = 0 := fun e he =>
        hstart e (by rw [List.getElem?_append_left (List.length_pos_iff.mpr hnil)]; exact he)
      have hstep' : ∀ (j : Nat) (e e' : PlanEntry), plan[j]? = some e →
          plan[j + 1]? = some e' → e.depth ≤ e'.depth ∧ e'.depth ≤ e.depth + 1 := by
        intro j e e' he he'
        exact hstep j e e' (by rw [List.getElem?_append_left (List.getElem?_eq_some_iff.mp he).1]; exact he)
          (by rw [List.getElem?_append_left (List.getElem?_eq_some_iff.mp he').1]; exact he')
      obtain ⟨levels, hlv, hg, hle⟩ := ih hnil hstart' hstep'
      obtain ⟨last, hlast⟩ : ∃ last, plan.getLast? = some last :=
        Option.isSome_iff_exists.mp (List.getLast?_isSome.mpr hnil)
      have hlastIdx : plan[plan.length - 1]? = some last := by
        rw [List.getLast?_eq_getElem?] at hlast
        exact hlast
      have hxstep := hstep (plan.length - 1) last x
        (by rw [List.getElem?_append_left (by have := List.length_pos_iff.mpr hnil; omega)]
            exact hlastIdx)
        (by rw [show plan.length - 1 + 1 = plan.length by
              have := List.length_pos_iff.mpr hnil; omega]; simp)
      obtain ⟨levels', hadd, hg'⟩ := hg.append hlast (hle last hlast) hxstep
      refine ⟨levels', by rw [levels?_append, hlv, Option.bind_some, hadd], hg', fun e he i hi => ?_⟩
      rw [List.getLast?_concat] at he
      cases he
      simp only [List.length_append, List.length_singleton] at hi
      rcases Nat.lt_or_ge i plan.length with hi' | hi'
      · rw [depthAt_append_of_lt x hi']
        have := hle last hlast i hi'
        omega
      · rw [show i = plan.length by omega, depthAt_length]

/-! ## The walk -/

/-- What the plan of `root` holds when the walk comes to `cursor`: the breadth-first prefix up to
the children of the entries before the cursor, those entries recording their children's indices
and no later one any, and the nodes left to expand the rest of the graph. -/
structure Walk (root : GraphNode) (plan : List PlanEntry) (cursor : Nat) : Prop where
  cursor_le : cursor ≤ plan.length
  length_eq : plan.length = root.firstChild cursor
  length_le : plan.length ≤ root.breadthFirst.length
  nodes : plan.map (·.node) = root.breadthFirst.take plan.length
  root_entry : ∃ e : PlanEntry, plan[0]? = some e ∧ e.node = root ∧ e.relation = none ∧
    e.parent = none ∧ e.depth = 0
  children : ∀ (i : Nat) (e : PlanEntry), plan[i]? = some e →
    e.children = if i < cursor then List.range' (root.firstChild i) e.node.children.length else []
  kids : ∀ (i : Nat) (e : PlanEntry), plan[i]? = some e → i < cursor →
    ∀ t (ht : t < e.node.children.length), ∃ e' : PlanEntry,
      plan[root.firstChild i + t]? = some e' ∧ e'.node = e.node.children[t].2 ∧
      e'.relation = some e.node.children[t].1 ∧ e'.parent = some i ∧ e'.depth = e.depth + 1
  reached : ∀ i < cursor, i < root.firstChild i
  pending_eq : cursor + pending plan cursor = root.nodeCount

variable {root : GraphNode}

/-- An entry of the walk's plan holds the node at its place in the breadth-first order. -/
theorem Walk.node_eq {plan : List PlanEntry} {cursor : Nat} (w : Walk root plan cursor)
    {i : Nat} {e : PlanEntry} (he : plan[i]? = some e) :
    ∃ h : i < root.breadthFirst.length, root.breadthFirst[i] = e.node := by
  have hi : i < plan.length := (List.getElem?_eq_some_iff.mp he).1
  have hmap : (plan.map (·.node))[i]? = some e.node := by simp [he]
  rw [w.nodes, List.getElem?_take_of_lt hi] at hmap
  obtain ⟨hB, hget⟩ := List.getElem?_eq_some_iff.mp hmap
  exact ⟨hB, hget⟩

/-- The walk starts from the root's entry alone. -/
theorem walk_start (root : GraphNode) : Walk root [⟨root, none, none, 0, []⟩] 0 := by
  have hB := GraphNode.breadthFirst_eq root
  refine ⟨by simp, by simp [GraphNode.firstChild_zero], ?_, ?_, ⟨_, rfl, rfl, rfl, rfl, rfl⟩,
    ?_, fun i e _ hi => absurd hi (Nat.not_lt_zero i), fun i hi => absurd hi (Nat.not_lt_zero i),
    ?_⟩
  · rw [hB]
    simp
  · rw [hB]
    simp
  · intro i e he
    cases i with
    | zero =>
      cases he
      simp
    | succ i => simp at he
  · simp [pending, GraphNode.forestSize_singleton]

/-- Expanding the entry under the cursor keeps the walk's invariant, one entry further on. -/
theorem Walk.expand {plan : List PlanEntry} {cursor : Nat} (w : Walk root plan cursor)
    (h : cursor < plan.length) : Walk root (expand plan cursor) (cursor + 1) := by
  obtain ⟨e, he⟩ : ∃ e, plan[cursor]? = some e := ⟨_, List.getElem?_eq_getElem h⟩
  obtain ⟨hcB, hnode⟩ := w.node_eq he
  have hsucc : root.firstChild (cursor + 1) = plan.length + e.node.children.length := by
    rw [GraphNode.firstChild_succ hcB, hnode, w.length_eq]
  have hlen := length_expand he
  -- the cursor's own entry had recorded no children yet
  have hnone : e.children = [] := by simpa using w.children cursor e he
  refine ⟨by omega, by rw [hlen, hsucc], ?_, ?_, ?_, ?_, ?_, ?_, ?_⟩
  · rw [hlen, ← hsucc]
    calc root.firstChild (cursor + 1) ≤ root.firstChild root.breadthFirst.length :=
          root.firstChild_mono (by omega)
      _ = root.breadthFirst.length := root.firstChild_length
  · rw [map_node_expand he, w.nodes, hlen, List.take_add]
    congr 1
    rw [w.length_eq, GraphNode.drop_firstChild hcB, hnode]
    exact (List.take_left' (by simp)).symm
  · obtain ⟨r, hr, hrfields⟩ := w.root_entry
    obtain ⟨r', hr', hsame⟩ := expand_keeps he hr
    exact ⟨r', hr', by simp_all⟩
  · intro i x hx
    by_cases hi : i < plan.length
    · rw [getElem?_expand_of_lt he hi] at hx
      obtain ⟨x₀, hx₀, rfl⟩ := Option.map_eq_some_iff.mp hx
      have hold := w.children i x₀ hx₀
      split
      · -- the cursor's entry now records its children's indices
        rename_i hci
        subst hci
        rw [he] at hx₀
        cases hx₀
        simp [addChildren, hnone, w.length_eq]
      · rename_i hci
        rw [hold]
        by_cases hic : i < cursor
        · simp [hic, show i < cursor + 1 by omega]
        · simp [hic, show ¬ i < cursor + 1 by omega]
    · -- a child's entry records no children yet
      have hle : plan.length ≤ i := Nat.le_of_not_lt hi
      obtain ⟨t, rfl⟩ := Nat.exists_eq_add_of_le hle
      rw [getElem?_expand_kid he] at hx
      obtain ⟨c, -, rfl⟩ := Option.map_eq_some_iff.mp hx
      simp [ofChild, show ¬ plan.length + t < cursor + 1 by omega]
  · intro i x hx hi t ht
    have hip : i < plan.length := by omega
    rw [getElem?_expand_of_lt he hip] at hx
    obtain ⟨x₀, hx₀, rfl⟩ := Option.map_eq_some_iff.mp hx
    by_cases hic : cursor = i
    · -- the children of the cursor's entry are the entries just appended
      subst hic
      rw [he] at hx₀
      cases hx₀
      simp only [if_true] at ht ⊢
      have ht' : t < e.node.children.length := ht
      refine ⟨ofChild cursor e.depth e.node.children[t], ?_, rfl, rfl, rfl, rfl⟩
      rw [← w.length_eq, getElem?_expand_kid he, List.getElem?_eq_getElem ht']
      rfl
    · simp only [hic, if_false] at ht ⊢
      obtain ⟨y, hy, hynode, hyrel, hypar, hydepth⟩ := w.kids i x₀ hx₀ (by omega) t ht
      obtain ⟨y', hy', hsame⟩ := expand_keeps he hy
      exact ⟨y', hy', by simp_all⟩
  · intro i hi
    by_cases hic : i < cursor
    · exact w.reached i hic
    · have : i = cursor := by omega
      subst this
      rw [← w.length_eq]
      exact h
  · have := pending_expand h
    have hp := w.pending_eq
    omega

/-- The walk keeps its invariant to the end, where the cursor has passed the last entry. -/
theorem Walk.flattenFrom {plan : List PlanEntry} {cursor : Nat} (w : Walk root plan cursor) :
    Walk root (PlanEntry.flattenFrom plan cursor) (PlanEntry.flattenFrom plan cursor).length := by
  induction plan, cursor using PlanEntry.flattenFrom.induct with
  | case1 plan cursor h ih =>
    rw [PlanEntry.flattenFrom, dif_pos h]
    exact ih (w.expand h)
  | case2 plan cursor h =>
    rw [PlanEntry.flattenFrom, dif_neg h]
    have hend : cursor = plan.length := by
      have := w.cursor_le
      omega
    subst hend
    exact w

theorem walk_flatten (root : GraphNode) : Walk root root.flatten root.flatten.length :=
  (walk_start root).flattenFrom

end PlanEntry

namespace GraphNode

open PlanEntry

variable {root : GraphNode}

/-! ## The finished plan -/

/-- The plan holds one entry per node. -/
theorem length_flatten (root : GraphNode) : root.flatten.length = root.nodeCount := by
  have h := (walk_flatten root).pending_eq
  simpa [pending, forestSize] using h

/-- The plan lists the nodes in breadth-first order. -/
theorem map_node_flatten (root : GraphNode) : root.flatten.map (·.node) = root.breadthFirst := by
  have h := (walk_flatten root).nodes
  rw [length_flatten, ← length_breadthFirst, List.take_length] at h
  exact h

/-- Every entry records the indices of its node's children, contiguous from `firstChild`. -/
theorem children_flatten {i : Nat} {e : PlanEntry} (he : root.flatten[i]? = some e) :
    e.children = List.range' (root.firstChild i) e.node.children.length := by
  have hi := (List.getElem?_eq_some_iff.mp he).1
  simpa [hi] using (walk_flatten root).children i e he

/-- Some entry's children run over each position past the first. -/
theorem exists_firstChild_le_lt {j : Nat} (h0 : root.firstChild 0 ≤ j) :
    ∀ {n : Nat}, j < root.firstChild n → ∃ i < n, root.firstChild i ≤ j ∧ j < root.firstChild (i + 1)
  | 0, hn => absurd hn (Nat.not_lt_of_le h0)
  | n + 1, hn => by
    by_cases hj : j < root.firstChild n
    · obtain ⟨i, hi, h⟩ := exists_firstChild_le_lt h0 hj
      exact ⟨i, by omega, h⟩
    · exact ⟨n, by omega, by omega, hn⟩

/-- The entries whose children run over two positions come in the order of the positions. -/
theorem le_of_firstChild_le_lt {i i' j j' : Nat}
    (h : root.firstChild i ≤ j ∧ j < root.firstChild (i + 1))
    (h' : root.firstChild i' ≤ j' ∧ j' < root.firstChild (i' + 1)) (hj : j ≤ j') : i ≤ i' := by
  by_contra hlt
  have := root.firstChild_mono (show i' + 1 ≤ i by omega)
  omega

/-- Every entry but the root's is the entry of a child of an earlier entry, one level deeper:
of the entry whose children's indices run over its position, where it carries that child's
node and relation. -/
theorem parent_flatten {j : Nat} {e : PlanEntry} (he : root.flatten[j]? = some e) (hj : 0 < j) :
    ∃ (i : Nat) (x : PlanEntry), root.flatten[i]? = some x ∧ i < j ∧
      (root.firstChild i ≤ j ∧ j < root.firstChild (i + 1)) ∧ e.parent = some i ∧
      e.depth = x.depth + 1 ∧ j ∈ x.children ∧
      ∃ (t : Nat) (ht : t < x.node.children.length), j = root.firstChild i + t ∧
        e.node = x.node.children[t].2 ∧ e.relation = some x.node.children[t].1 := by
  have w := walk_flatten root
  have hjn : j < root.flatten.length := (List.getElem?_eq_some_iff.mp he).1
  obtain ⟨i, hi, hlo, hhi⟩ := exists_firstChild_le_lt
    (show root.firstChild 0 ≤ j by rw [firstChild_zero]; omega) (w.length_eq ▸ hjn)
  obtain ⟨x, hx⟩ : ∃ x, root.flatten[i]? = some x := ⟨_, List.getElem?_eq_getElem hi⟩
  obtain ⟨hiB, hnode⟩ := w.node_eq hx
  have hk : root.firstChild (i + 1) = root.firstChild i + x.node.children.length := by
    rw [firstChild_succ hiB, hnode]
  obtain ⟨t, rfl⟩ := Nat.exists_eq_add_of_le hlo
  have ht : t < x.node.children.length := by omega
  obtain ⟨e', he', hnode', hrel, hpar, hdepth⟩ := w.kids i x hx hi t ht
  rw [he] at he'
  cases he'
  refine ⟨i, x, hx, Nat.lt_of_lt_of_le (w.reached i hi) hlo, ⟨hlo, hhi⟩, hpar, hdepth, ?_,
    t, ht, rfl, hnode', hrel⟩
  rw [children_flatten hx, List.mem_range'_1]
  omega

/-- The first entry is the root's. -/
theorem root_flatten (root : GraphNode) :
    ∃ e : PlanEntry, root.flatten[0]? = some e ∧ e.node = root ∧ e.relation = none ∧
      e.parent = none ∧ e.depth = 0 :=
  (walk_flatten root).root_entry

/-- Along the plan the depths never decrease. -/
theorem depth_mono_flatten : ∀ {j j' : Nat} {e e' : PlanEntry}, root.flatten[j]? = some e →
    root.flatten[j']? = some e' → j ≤ j' → e.depth ≤ e'.depth := by
  intro j j'
  induction j' using Nat.strong_induction_on generalizing j with
  | _ j' ih =>
    intro e e' he he' hjj
    obtain ⟨r, hr, -, -, -, hr0⟩ := root_flatten root
    rcases Nat.eq_zero_or_pos j with rfl | hj
    · rw [hr] at he
      cases he
      omega
    · -- both are children; their parents come in the same order, earlier
      obtain ⟨i, x, hx, hij, hlo, -, hdx, -⟩ := parent_flatten he hj
      obtain ⟨i', x', hx', hij', hlo', -, hdx', -⟩ := parent_flatten he' (by omega)
      have := ih i' hij' hx hx' (le_of_firstChild_le_lt hlo hlo' hjj)
      omega

/-- From one entry to the next the depth grows by at most one. -/
theorem depth_succ_le_flatten {j : Nat} {e e' : PlanEntry} (he : root.flatten[j]? = some e)
    (he' : root.flatten[j + 1]? = some e') : e'.depth ≤ e.depth + 1 := by
  obtain ⟨i, x, hx, hij, -, -, hdx, -⟩ := parent_flatten he' (Nat.succ_pos j)
  have := depth_mono_flatten hx he (by omega)
  omega


/-- The entry of the `t`-th child of an entry's node sits `t` past the entry's `firstChild`,
one level deeper. -/
theorem kid_flatten {i : Nat} {x : PlanEntry} (hx : root.flatten[i]? = some x) (t : Nat)
    (ht : t < x.node.children.length) :
    ∃ e : PlanEntry, root.flatten[root.firstChild i + t]? = some e ∧ e.node = x.node.children[t].2 ∧
      e.relation = some x.node.children[t].1 ∧ e.parent = some i ∧ e.depth = x.depth + 1 :=
  (walk_flatten root).kids i x hx (List.getElem?_eq_some_iff.mp hx).1 t ht

/-- An entry lies no deeper than its node's subtree leaves room for. -/
theorem depth_add_depth_flatten : ∀ {j : Nat} {e : PlanEntry}, root.flatten[j]? = some e →
    e.depth + e.node.depth ≤ root.depth := by
  intro j
  induction j using Nat.strong_induction_on with
  | _ j ih =>
    intro e he
    obtain ⟨r, hr, hrnode, -, -, hr0⟩ := root_flatten root
    rcases Nat.eq_zero_or_pos j with rfl | hj
    · rw [hr] at he
      cases he
      rw [hrnode]
      omega
    · -- the parent's node has the entry's node as a child
      obtain ⟨i, x, hx, hij, -, -, hdx, -, t, ht, -, hnode, -⟩ := parent_flatten he hj
      have hchild := childrenDepth_le ht
      rw [← depth_eq, ← hnode] at hchild
      have := ih i hij hx
      omega

/-- Every depth down to the graph's is that of some entry, whose node's subtree reaches the
bottom. -/
theorem exists_depth_flatten : ∀ d ≤ root.depth,
    ∃ (j : Nat) (e : PlanEntry), root.flatten[j]? = some e ∧ e.depth = d ∧
      e.depth + e.node.depth = root.depth
  | 0, _ => by
    obtain ⟨r, hr, hrnode, -, -, hr0⟩ := root_flatten root
    exact ⟨0, r, hr, hr0, by rw [hr0, hrnode, Nat.zero_add]⟩
  | d + 1, hd => by
    obtain ⟨i, x, hx, hxd, hxsum⟩ := exists_depth_flatten d (by omega)
    -- the node of the entry at depth `d` still has a deepest child below it
    obtain ⟨t, ht, hdeep⟩ := exists_childrenDepth x.node.children
      (by rw [← depth_eq]; omega)
    rw [← depth_eq] at hdeep
    obtain ⟨e, he, hnode, -, -, hdepth⟩ := kid_flatten hx t ht
    exact ⟨_, e, he, by omega, by rw [hnode]; omega⟩

/-- The last entry lies as deep as the graph goes. -/
theorem depth_getLast_flatten {e : PlanEntry} (he : root.flatten.getLast? = some e) :
    e.depth = root.depth := by
  rw [List.getLast?_eq_getElem?] at he
  obtain ⟨j, x, hx, hxd, -⟩ := @exists_depth_flatten root root.depth (Nat.le_refl _)
  have hj : j ≤ root.flatten.length - 1 := by
    have := (List.getElem?_eq_some_iff.mp hx).1
    omega
  have hge := depth_mono_flatten hx he hj
  have hle := depth_add_depth_flatten he
  omega

/-- The plan's entries group into one level per depth of the graph, each listing in order the
indices of the entries of its depth; read one after the other the levels list every index once,
in order, and none is empty. -/
theorem levels_flatten (root : GraphNode) :
    ∃ levels, levels? root.flatten = some levels ∧ Grouped root.flatten levels ∧
      levels.length = root.depth + 1 := by
  have hne : root.flatten ≠ [] := by
    obtain ⟨r, hr, -⟩ := root_flatten root
    intro hnil
    simp [hnil] at hr
  have hstart : ∀ e : PlanEntry, root.flatten[0]? = some e → e.depth = 0 := by
    obtain ⟨r, hr, -, -, -, hr0⟩ := root_flatten root
    intro e he
    rw [hr] at he
    cases he
    exact hr0
  obtain ⟨levels, hlv, hg, -⟩ := levels?_of_steps hne hstart fun j e e' he he' =>
    ⟨depth_mono_flatten he he' (Nat.le_succ j), depth_succ_le_flatten he he'⟩
  obtain ⟨last, hlast⟩ : ∃ last, root.flatten.getLast? = some last :=
    Option.isSome_iff_exists.mp (List.getLast?_isSome.mpr hne)
  exact ⟨levels, hlv, hg, by rw [hg.length_eq last hlast, depth_getLast_flatten hlast]⟩

end GraphNode

end DocQuery
