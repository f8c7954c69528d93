import Mathlib
import DocQuery.Proofs.Schedule
import DocQuery.Client.Request
import DocQuery.Store.Memory

/-!
# The reads of a local resolution

A local resolution that succeeds reads the store once for every body of the relation tree,
whatever the rows, in breadth-first order of the compiled graph. The root reads its selector
with its options, the skip dropped unless allowed; every other node reads its collection with
its sort and fields and the keys its parent's kept rows offer, each once, in row order.
-/

namespace DocQuery

/-! ## The keys of a batch -/

namespace Json

/-- The values a linking value offers as keys: the items of an array, or the value itself. -/
def offered : Json → List Json
  | .arr items => items
  | v => [v]

/-- The first value of each key, in order; values without a key are left out. -/
def firstOfEachKey : List Json → List Json
  | [] => []
  | v :: vs =>
    match v.key? with
    | none => firstOfEachKey vs
    | some k => v :: firstOfEachKey (vs.filter fun w => w.key? != some k)
termination_by l => l.length
decreasing_by
  all_goals simp_wf
  all_goals grind [List.length_filter_le]

end Json

namespace Batch

theorem add_eq_foldl (b : Batch) (v : Json) : b.add v = (Json.offered v).foldl addOne b := by
  cases v <;> rfl

/-- Adding values one by one to a batch that holds keys `K` appends the first value of each key
that `K` does not hold yet. -/
theorem foldl_addOne (collection field : String) (K : List Json)
    (hK : ∀ k ∈ K, k.key? ≠ none) (l : List Json) :
    l.foldl addOne ⟨collection, field, K⟩ =
      ⟨collection, field, K ++ Json.firstOfEachKey (l.filter fun w => K.all (·.key? != w.key?))⟩ := by
  induction l generalizing K with
  | nil => simp [Json.firstOfEachKey]
  | cons v vs ih =>
    rw [List.foldl_cons]
    cases hv : v.key? with
    | none =>
      have hkeep : K.all (·.key? != v.key?) = true := by
        simp only [List.all_eq_true, bne_iff_ne, ne_eq, hv]
        exact hK
      have hstep : addOne ⟨collection, field, K⟩ v = ⟨collection, field, K⟩ := by
        simp [addOne, hv]
      rw [hstep, ih K hK, List.filter_cons, if_pos hkeep, Json.firstOfEachKey, hv]
    | some k =>
      by_cases hin : K.any (·.key? == some k)
      · have hstep : addOne ⟨collection, field, K⟩ v = ⟨collection, field, K⟩ := by
          simp [addOne, hv, hin]
        have hdrop : K.all (·.key? != v.key?) = false := by
          obtain ⟨j, hj, hjk⟩ := List.any_eq_true.mp hin
          simp only [List.all_eq_false, bne_iff_ne, ne_eq, Decidable.not_not, hv]
          exact ⟨j, hj, by simpa using hjk⟩
        rw [hstep, ih K hK, List.filter_cons, if_neg (by simp [hdrop])]
      · have hstep : addOne ⟨collection, field, K⟩ v = ⟨collection, field, K ++ [v]⟩ := by
          simp [addOne, hv, hin]
        have hkeep : K.all (·.key? != v.key?) = true := by
          simp only [List.any_eq_true, beq_iff_eq, not_exists, not_and] at hin
          simp only [List.all_eq_true, bne_iff_ne, ne_eq, hv]
          exact hin
        have hK' : ∀ j ∈ K ++ [v], j.key? ≠ none := by
          intro j hj
          rcases List.mem_append.mp hj with hj | hj
          · exact hK j hj
          · simp only [List.mem_singleton] at hj
            simp [hj, hv]
        rw [hstep, ih (K ++ [v]) hK', List.filter_cons, if_pos hkeep, Json.firstOfEachKey, hv]
        dsimp only
        rw [List.filter_filter]
        simp only [List.append_assoc, List.singleton_append, Batch.mk.injEq, true_and,
          List.append_cancel_left_eq, List.cons.injEq]
        congr 1
        apply List.filter_congr
        intro w _
        simp only [List.all_append, List.all_cons, List.all_nil, Bool.and_true, hv]
        rw [bne_comm, Bool.and_comm]

/-- A batch built from parent rows: the fold over the rows is a fold over the keys they offer. -/
theorem ofParents_eq (link : Link) (parents : List Document) :
    ofParents link parents = ((parents.filterMap link.parentKey?).flatMap Json.offered).foldl
      addOne ⟨link.collection, link.matchField, []⟩ := by
  unfold ofParents
  generalize (⟨link.collection, link.matchField, []⟩ : Batch) = b
  induction parents generalizing b with
  | nil => rfl
  | cons p ps ih =>
    cases hp : link.parentKey? p with
    | none => simp [hp, ih]
    | some k =>
      simp only [List.foldl_cons, hp, List.filterMap_cons, List.flatMap_cons, List.foldl_append]
      rw [ih, add_eq_foldl]

/-- The keys a level's parent rows offer: the values at their linking field, in row order, an
array giving its items, each key once at its first place, `null` left out. -/
theorem ofParents_keys (link : Link) (parents : List Document) :
    (ofParents link parents).keys =
      Json.firstOfEachKey ((parents.filterMap link.parentKey?).flatMap Json.offered) := by
  rw [ofParents_eq, foldl_addOne _ _ [] (by simp)]
  simp

theorem ofParents_field (link : Link) (parents : List Document) :
    (ofParents link parents).field = link.matchField := by
  rw [ofParents_eq, foldl_addOne _ _ [] (by simp)]

end Batch

/-! ## The relation tree of a body -/

namespace QueryBody

mutual
/-- The number of bodies in a body's relation tree, the body itself included. -/
def nodeCount : QueryBody → Nat
  | ⟨_, _, _, _, _, _, relations⟩ => 1 + relationsNodeCount relations

/-- The number of bodies in the relation trees of a list of relations. -/
def relationsNodeCount : List (String × QueryBody) → Nat
  | [] => 0
  | (_, b) :: rest => nodeCount b + relationsNodeCount rest
end

end QueryBody

namespace ConcreteBody

mutual
/-- The number of bodies in a concrete body's relation tree, the body itself included. -/
def nodeCount : ConcreteBody → Nat
  | ⟨_, _, relations⟩ => 1 + relationsNodeCount relations

/-- The number of bodies in the relation trees of a list of concrete relations. -/
def relationsNodeCount : List (String × ConcreteBody) → Nat
  | [] => 0
  | (_, b) :: rest => nodeCount b + relationsNodeCount rest
end

theorem nodeCount_eq (c : ConcreteBody) : c.nodeCount = 1 + relationsNodeCount c.relations := by
  obtain ⟨_, _, _⟩ := c
  rfl

mutual
/-- The relations of the body and of every nested body are in strictly increasing name order. -/
def NamesSorted : ConcreteBody → Prop
  | ⟨_, _, relations⟩ => (relations.map (·.1)).Pairwise (· < ·) ∧ relationsNamesSorted relations

/-- Every body of a list of relations has its relations in name order, at every depth. -/
def relationsNamesSorted : List (String × ConcreteBody) → Prop
  | [] => True
  | (_, b) :: rest => NamesSorted b ∧ relationsNamesSorted rest
end

theorem namesSorted_iff (c : ConcreteBody) :
    c.NamesSorted ↔ (c.relations.map (·.1)).Pairwise (· < ·) ∧ relationsNamesSorted c.relations := by
  obtain ⟨_, _, _⟩ := c
  rfl

theorem relationsNamesSorted_of_mem {rs : List (String × ConcreteBody)}
    (h : relationsNamesSorted rs) {r : String × ConcreteBody} (hr : r ∈ rs) : r.2.NamesSorted := by
  induction rs with
  | nil => cases hr
  | cons s rest ih =>
    obtain ⟨name, b⟩ := s
    rcases List.mem_cons.mp hr with rfl | hr
    · exact h.1
    · exact ih h.2 hr

/-- Dropping the root skip changes the root options only. -/
theorem applySkipPolicy_relations (c : ConcreteBody) (allowSkip : Bool) :
    (c.applySkipPolicy allowSkip).relations = c.relations := by
  cases allowSkip <;> rfl

theorem applySkipPolicy_selector (c : ConcreteBody) (allowSkip : Bool) :
    (c.applySkipPolicy allowSkip).selector = c.selector := by
  cases allowSkip <;> rfl

theorem applySkipPolicy_options (c : ConcreteBody) (allowSkip : Bool) :
    (c.applySkipPolicy allowSkip).options =
      { c.options with skip := if allowSkip then c.options.skip else none } := by
  cases allowSkip <;> rfl

end ConcreteBody

namespace QueryBody

mutual
/-- The relations of the body and of every nested body are in strictly increasing name order,
as the body builders and the reader keep them. -/
def NamesSorted : QueryBody → Prop
  | ⟨_, _, _, _, _, _, relations⟩ =>
    (relations.map (·.1)).Pairwise (· < ·) ∧ relationsNamesSorted relations

/-- Every body of a list of relations has its relations in name order, at every depth. -/
def relationsNamesSorted : List (String × QueryBody) → Prop
  | [] => True
  | (_, b) :: rest => NamesSorted b ∧ relationsNamesSorted rest
end

variable {params : Params}

/-- A level resolves to the body of its resolved selector, options and relations. -/
theorem resolveLevel_eq_ok {b : QueryBody} {c : ConcreteBody} :
    resolveLevel params b = .ok c ↔ ∃ sel options rels,
      resolveSelector params b.selector = .ok sel ∧ resolveOptions params b = .ok options ∧
      resolveRelations params b.relations = .ok rels ∧
      { selector := sel, options, relations := rels } = c := by
  obtain ⟨selector, sort, limit, skip, fields, paginate, relations⟩ := b
  simp only [resolveLevel, Except.bind_eq_ok, pure, Except.pure, Except.ok.injEq, exists_and_left]

/-- A list of relations resolves to its first body resolved, then the others. -/
theorem resolveRelations_cons_eq_ok {name : String} {b : QueryBody}
    {rest : List (String × QueryBody)} {cs : List (String × ConcreteBody)} :
    resolveRelations params ((name, b) :: rest) = .ok cs ↔ ∃ c tail,
      resolveLevel params b = .ok c ∧ resolveRelations params rest = .ok tail ∧
      (name, c) :: tail = cs := by
  simp only [resolveRelations, Except.bind_eq_ok, pure, Except.pure, Except.ok.injEq,
    exists_and_left]

mutual
/-- Resolving a body keeps the names of its relations at every depth. -/
theorem resolveLevel_namesSorted : ∀ {b : QueryBody} {c : ConcreteBody},
    b.NamesSorted → resolveLevel params b = .ok c → c.NamesSorted
  | ⟨selector, sort, limit, skip, fields, paginate, relations⟩, c, hs, h => by
    obtain ⟨sel, options, rels, -, -, hrels, rfl⟩ := resolveLevel_eq_ok.mp h
    obtain ⟨hnames, hsorted⟩ := resolveRelations_namesSorted hs.2 hrels
    exact ⟨hnames ▸ hs.1, hsorted⟩

theorem resolveRelations_namesSorted : ∀ {rs : List (String × QueryBody)}
    {cs : List (String × ConcreteBody)}, relationsNamesSorted rs →
    resolveRelations params rs = .ok cs →
      cs.map (·.1) = rs.map (·.1) ∧ ConcreteBody.relationsNamesSorted cs
  | [], cs, _, h => by
    cases h
    exact ⟨rfl, trivial⟩
  | (name, b) :: rest, cs, hs, h => by
    obtain ⟨c, tail, hc, htail, rfl⟩ := resolveRelations_cons_eq_ok.mp h
    obtain ⟨hnames, hsorted⟩ := resolveRelations_namesSorted hs.2 htail
    exact ⟨by simp [hnames], resolveLevel_namesSorted hs.1 hc, hsorted⟩
end

mutual
/-- Resolving a body keeps its relation tree. -/
theorem resolveLevel_nodeCount : ∀ {b : QueryBody} {c : ConcreteBody},
    resolveLevel params b = .ok c → c.nodeCount = b.nodeCount
  | ⟨selector, sort, limit, skip, fields, paginate, relations⟩, c, h => by
    obtain ⟨sel, options, rels, -, -, hrels, rfl⟩ := resolveLevel_eq_ok.mp h
    simp only [ConcreteBody.nodeCount, nodeCount, resolveRelations_nodeCount hrels]

/-- Resolving a list of relations keeps their relation trees. -/
theorem resolveRelations_nodeCount : ∀ {rs : List (String × QueryBody)}
    {cs : List (String × ConcreteBody)},
    resolveRelations params rs = .ok cs →
      ConcreteBody.relationsNodeCount cs = relationsNodeCount rs
  | [], cs, h => by
    cases h
    rfl
  | (name, b) :: rest, cs, h => by
    obtain ⟨c, tail, hc, htail, rfl⟩ := resolveRelations_cons_eq_ok.mp h
    simp only [ConcreteBody.relationsNodeCount, relationsNodeCount, resolveLevel_nodeCount hc,
      resolveRelations_nodeCount htail]
end

/-! ## The pagination overrides -/

/-- The body with its root limit set to a count. -/
def setRootLimit (c : ConcreteBody) (n : Option Nat) : ConcreteBody :=
  { c with options := { c.options with limit := n } }

/-- The body with its root skip set to a count. -/
def setRootSkip (c : ConcreteBody) (n : Option Nat) : ConcreteBody :=
  { c with options := { c.options with skip := n } }

/-- One pagination override: when the parameter named after the option is given, the count it
reads as, set into the body; otherwise the body as it is. -/
def overrideCount (params : Params) (option : String)
    (set : ConcreteBody → Option Nat → ConcreteBody) (c : ConcreteBody) :
    Except Error ConcreteBody :=
  match params.get? option with
  | some v => (Json.toCount option v).map (set c)
  | none => .ok c

/-- A resolution resolves the body level by level and then, with pagination on, overrides the
root limit and after it the root skip. -/
theorem resolve_eq_overrideCount (b : QueryBody) (params : Params) :
    b.resolve params = (resolveLevel params b).bind fun c =>
      if b.paginate then
        (overrideCount params "limit" setRootLimit c).bind
          (overrideCount params "skip" setRootSkip)
      else .ok c := by
  -- the source binds the skip override inside each case of the limit override
  unfold resolve overrideCount
  cases params.get? "limit" <;> rfl

theorem overrideCount_eq_ok {option : String} {set : ConcreteBody → Option Nat → ConcreteBody}
    {c c' : ConcreteBody} :
    overrideCount params option set c = .ok c' ↔
      (params.get? option = none ∧ c = c') ∨
        ∃ v n, params.get? option = some v ∧ Json.toCount option v = .ok n ∧ set c n = c' := by
  unfold overrideCount
  cases params.get? option with
  | none => simp
  | some v => simp [Except.map_eq_ok]

theorem overrideCount_eq_error {option : String} {set : ConcreteBody → Option Nat → ConcreteBody}
    {c : ConcreteBody} {e : Error} :
    overrideCount params option set c = .error e ↔
      ∃ v, params.get? option = some v ∧ Json.toCount option v = .error e := by
  unfold overrideCount
  cases params.get? option with
  | none => simp
  | some v => simp [Except.map_eq_error]

/-- An override leaves alone what its setter leaves alone. -/
theorem overrideCount_keeps {α : Type} {option : String}
    {set : ConcreteBody → Option Nat → ConcreteBody} {c c' : ConcreteBody}
    (h : overrideCount params option set c = .ok c') (get : ConcreteBody → α)
    (hget : ∀ c n, get (set c n) = get c) : get c' = get c := by
  rcases overrideCount_eq_ok.mp h with ⟨-, rfl⟩ | ⟨v, n, -, -, rfl⟩
  · rfl
  · exact hget c n

/-- An override commutes with a change of the body that its setter commutes with. -/
theorem overrideCount_map {option : String} {set : ConcreteBody → Option Nat → ConcreteBody}
    (f : ConcreteBody → ConcreteBody) (hf : ∀ c n, set (f c) n = f (set c n)) (c : ConcreteBody) :
    overrideCount params option set (f c) = (overrideCount params option set c).map f := by
  unfold overrideCount
  cases params.get? option with
  | none => rfl
  | some v => cases hv : Json.toCount option v <;> simp [hv, Except.map, hf]

/-- The pagination overrides set the root limit and skip, and nothing else. -/
theorem resolve_eq_resolveLevel {b : QueryBody} {c : ConcreteBody} (h : b.resolve params = .ok c) :
    ∃ c₀, resolveLevel params b = .ok c₀ ∧
      c = { c₀ with options := { c₀.options with limit := c.options.limit, skip := c.options.skip } } := by
  rw [resolve_eq_overrideCount] at h
  obtain ⟨c₀, hc₀, h⟩ := Except.bind_eq_ok.mp h
  refine ⟨c₀, hc₀, ?_⟩
  split at h
  · -- the limit override, then the skip override, each rewrites one count of the root
    obtain ⟨c₁, hc₁, h⟩ := Except.bind_eq_ok.mp h
    rcases overrideCount_eq_ok.mp hc₁ with ⟨-, rfl⟩ | ⟨v, n, -, -, rfl⟩ <;>
      rcases overrideCount_eq_ok.mp h with ⟨-, rfl⟩ | ⟨w, n', -, -, rfl⟩ <;>
      cases c₀ <;> rfl
  · obtain rfl := Except.ok.inj h
    cases c₀
    rfl

theorem resolve_relations {b : QueryBody} {c : ConcreteBody} (h : b.resolve params = .ok c) :
    ∃ c₀, resolveLevel params b = .ok c₀ ∧ c.relations = c₀.relations := by
  obtain ⟨c₀, hc₀, hc⟩ := resolve_eq_resolveLevel h
  exact ⟨c₀, hc₀, by rw [hc]⟩

theorem resolve_namesSorted {b : QueryBody} {c : ConcreteBody} (hs : b.NamesSorted)
    (h : b.resolve params = .ok c) : c.NamesSorted := by
  obtain ⟨c₀, hc₀, hrel⟩ := resolve_relations h
  rw [ConcreteBody.namesSorted_iff, hrel, ← ConcreteBody.namesSorted_iff]
  exact resolveLevel_namesSorted hs hc₀

theorem resolve_nodeCount {b : QueryBody} {c : ConcreteBody} (h : b.resolve params = .ok c) :
    c.nodeCount = b.nodeCount := by
  obtain ⟨c₀, hc₀, hrel⟩ := resolve_relations h
  rw [ConcreteBody.nodeCount_eq, hrel, ← ConcreteBody.nodeCount_eq]
  exact resolveLevel_nodeCount hc₀

end QueryBody

/-! ## Compiled graphs -/

namespace ConcreteBody

variable {links : Links} {maxDepth : Option Nat}

/-- A compiled node copies its body's selector and options and holds the compiled relations. -/
theorem compileNode_ok {collection : String} {link : Option Link} {depth : Nat}
    {c : ConcreteBody} {n : GraphNode}
    (h : compileNode links maxDepth collection link depth c = .ok n) :
    ∃ children, compileChildren links maxDepth collection depth c.relations = .ok children ∧
      n = ⟨collection, c.selector, c.options, link, children⟩ := by
  obtain ⟨selector, options, relations⟩ := c
  cases maxDepth with
  | none =>
    simp only [compileNode] at h
    obtain ⟨children, hchildren, rfl⟩ := Except.map_eq_ok.mp h
    exact ⟨children, hchildren, rfl⟩
  | some max =>
    simp only [compileNode] at h
    split at h
    · cases h
    · obtain ⟨children, hchildren, rfl⟩ := Except.map_eq_ok.mp h
      exact ⟨children, hchildren, rfl⟩

/-- Each compiled relation keeps its name and is the node compiled from its body, attached by
the registered link. -/
theorem compileChildren_ok {collection : String} {depth : Nat}
    {rs : List (String × ConcreteBody)} {cs : List (String × GraphNode)}
    (h : compileChildren links maxDepth collection depth rs = .ok cs) :
    List.Forall₂ (fun r c => r.1 = c.1 ∧ ∃ l, links.get? collection r.1 = some l ∧
      compileNode links maxDepth l.collection (some l) (depth + 1) r.2 = .ok c.2) rs cs := by
  induction rs generalizing cs with
  | nil =>
    simp only [compileChildren, Except.ok.injEq] at h
    subst h
    exact .nil
  | cons r rest ih =>
    obtain ⟨relation, nested⟩ := r
    simp only [compileChildren] at h
    split at h
    · cases h
    · rename_i l hl
      split at h
      · cases h
      · rename_i child hchild
        obtain ⟨tail, htail, rfl⟩ := Except.map_eq_ok.mp h
        exact .cons ⟨rfl, l, hl, hchild⟩ (ih htail)

mutual
/-- A compiled graph has one node per body of the relation tree. -/
theorem compileNode_nodeCount : ∀ {collection : String} {link : Option Link} {depth : Nat}
    {c : ConcreteBody} {n : GraphNode},
    compileNode links maxDepth collection link depth c = .ok n → n.nodeCount = c.nodeCount
  | _, _, _, ⟨_, _, relations⟩, _, h => by
    obtain ⟨children, hchildren, rfl⟩ := compileNode_ok h
    simp only [GraphNode.nodeCount, nodeCount, compileChildren_nodeCount hchildren]

theorem compileChildren_nodeCount : ∀ {collection : String} {depth : Nat}
    {rs : List (String × ConcreteBody)} {cs : List (String × GraphNode)},
    compileChildren links maxDepth collection depth rs = .ok cs →
      GraphNode.childrenNodeCount cs = relationsNodeCount rs
  | _, _, [], cs, h => by
    simp only [compileChildren, Except.ok.injEq] at h
    subst h
    rfl
  | collection, depth, (relation, nested) :: rest, cs, h => by
    simp only [compileChildren] at h
    split at h
    · cases h
    · split at h
      · cases h
      · rename_i child hchild
        obtain ⟨tail, htail, rfl⟩ := Except.map_eq_ok.mp h
        simp only [GraphNode.childrenNodeCount, relationsNodeCount, compileNode_nodeCount hchild,
          compileChildren_nodeCount htail]
end

/-- A node that some body compiles to. -/
def Compiled (links : Links) (maxDepth : Option Nat) (n : GraphNode) : Prop :=
  ∃ collection link depth c, compileNode links maxDepth collection link depth c = .ok n

/-- The children of a compiled node are compiled nodes, each attached by a link. -/
theorem Compiled.child {n : GraphNode} (h : Compiled links maxDepth n)
    {c : String × GraphNode} (hc : c ∈ n.children) :
    (∃ l, c.2.link = some l) ∧ Compiled links maxDepth c.2 := by
  obtain ⟨collection, link, depth, body, hbody⟩ := h
  obtain ⟨children, hchildren, rfl⟩ := compileNode_ok hbody
  obtain ⟨r, -, -, l, -, hr⟩ := forall₂_exists_of_mem_right (compileChildren_ok hchildren) hc
  obtain ⟨children', -, hnode⟩ := compileNode_ok hr
  exact ⟨⟨l, by rw [hnode]⟩, ⟨_, _, _, _, hr⟩⟩

/-- A node that a body with its relations in name order compiles to. -/
def CompiledSorted (links : Links) (maxDepth : Option Nat) (n : GraphNode) : Prop :=
  ∃ collection link depth c, c.NamesSorted ∧
    compileNode links maxDepth collection link depth c = .ok n

/-- A node compiled from a body in name order has its children in name order, and they are
compiled from bodies in name order. -/
theorem CompiledSorted.children {n : GraphNode} (h : CompiledSorted links maxDepth n) :
    (n.children.map (·.1)).Pairwise (· < ·) ∧
      ∀ c ∈ n.children, CompiledSorted links maxDepth c.2 := by
  obtain ⟨collection, link, depth, body, hsorted, hbody⟩ := h
  obtain ⟨children, hchildren, rfl⟩ := compileNode_ok hbody
  have hall := compileChildren_ok hchildren
  rw [namesSorted_iff] at hsorted
  refine ⟨?_, fun c hc => ?_⟩
  · have hnames : body.relations.map (·.1) = children.map (·.1) :=
      forall₂_map_eq hall fun _ _ h => h.1
    simpa [← hnames] using hsorted.1
  · obtain ⟨r, hr, -, l, -, hrc⟩ := forall₂_exists_of_mem_right hall hc
    exact ⟨_, _, _, _, relationsNamesSorted_of_mem hsorted.2 hr, hrc⟩

/-- The root of a compiled graph reads the body's collection with its selector and options. -/
theorem compile_root {c : ConcreteBody} {collection : String} {config : Config}
    {root : GraphNode} (h : c.compile collection links config = .ok root) :
    root.collection = collection ∧ root.selector = c.selector ∧ root.options = c.options ∧
      root.link = none := by
  obtain ⟨children, -, rfl⟩ := compileNode_ok h
  exact ⟨rfl, rfl, rfl, rfl⟩

theorem compile_nodeCount {c : ConcreteBody} {collection : String} {config : Config}
    {root : GraphNode} (h : c.compile collection links config = .ok root) :
    root.nodeCount = c.nodeCount :=
  compileNode_nodeCount h

end ConcreteBody

/-! ## The reads -/

namespace Request

/-- A successful local resolution reads once per body, in breadth-first order, the root with its
options and every other node with the keys its parent's kept rows offer, each once at its first
place; siblings are read in name order when the body keeps its relations so. -/
theorem resolveLocally_reads_each_node_once {r : Request} {eng : Engine} {read : Reader}
    {reqs : List FindRequest} {rows : List Document}
    (h : r.resolveLocally eng read = (reqs, .ok rows)) :
    ∃ c root done, r.body.resolve r.params = .ok c ∧
      (c.applySkipPolicy r.allowSkip).compile r.collection eng.links eng.config = .ok root ∧
      reqs.length = r.body.nodeCount ∧
      List.Forall₂ (FetchTask.Done read eng.config.oneToOne)
        (FetchTask.schedule [⟨root, none, none⟩] done) done ∧
      reqs = (FetchTask.schedule [⟨root, none, none⟩] done).map FetchTask.request ∧
      (FetchTask.schedule [⟨root, none, none⟩] done).map (·.node) = root.breadthFirst ∧
      reqs.head? = some ⟨r.collection, c.selector,
        { c.options with skip := if r.allowSkip then c.options.skip else none,
                         fields := root.fetchFields }⟩ ∧
      (∀ f ∈ done, ∀ rel ∈ f.node.children, ∃ link, rel.2.link = some link ∧
        FetchTask.request ⟨rel.2, some rel.1, some f.rows⟩ =
          ⟨rel.2.collection, (Batch.ofParents link f.rows).selector rel.2.selector,
            { sort := rel.2.options.sort, fields := rel.2.fetchFields }⟩ ∧
        (Batch.ofParents link f.rows).field = link.matchField ∧
        (Batch.ofParents link f.rows).keys =
          Json.firstOfEachKey ((f.rows.filterMap link.parentKey?).flatMap Json.offered)) ∧
      (r.body.NamesSorted → ∀ f ∈ done, (f.node.children.map (·.1)).Pairwise (· < ·)) := by
  unfold resolveLocally at h
  cases hc : r.body.resolve r.params with
  | error e => simp [hc] at h
  | ok c =>
    simp only [hc] at h
    cases hroot : (c.applySkipPolicy r.allowSkip).compile r.collection eng.links eng.config with
    | error e => simp [hroot] at h
    | ok root =>
      simp only [hroot] at h
      obtain ⟨done, hdone, hreqs, horder⟩ := GraphNode.fetch_reads_ok (congrArg Prod.snd h)
      simp only [h] at hreqs
      obtain ⟨hcoll, hsel, hopts, hlink⟩ := ConcreteBody.compile_root hroot
      -- every node of the compiled graph is compiled, so every child is attached by a link
      have hcompiled : ∀ n ∈ root.breadthFirst,
          ConcreteBody.Compiled eng.links eng.config.maxDepth n :=
        GraphNode.forall_mem_levelOrder (fun n hn c hc => (hn.child hc).2)
          (by simpa using ⟨_, _, _, _, hroot⟩)
      have hmem : ∀ f ∈ done, f.node ∈ root.breadthFirst := by
        intro f hf
        rw [← horder, ← FetchTask.forall₂_done_nodes hdone]
        exact List.mem_map_of_mem hf
      refine ⟨c, root, done, rfl, hroot, ?_, hdone, hreqs, horder, ?_, ?_, ?_⟩
      · -- one read per node: the schedule lists the breadth-first order of the graph
        have hlen := congrArg List.length horder
        rw [List.length_map, GraphNode.breadthFirst, GraphNode.length_levelOrder,
          GraphNode.forestSize_singleton, ConcreteBody.compile_nodeCount hroot,
          ConcreteBody.nodeCount_eq, ConcreteBody.applySkipPolicy_relations,
          ← ConcreteBody.nodeCount_eq, QueryBody.resolve_nodeCount hc] at hlen
        rw [hreqs, List.length_map, hlen]
      · rw [hreqs]
        simp only [FetchTask.schedule, List.cons_append, List.map_cons, List.head?_cons,
          Option.some.injEq]
        simp only [FetchTask.request, hlink, hcoll, hsel, hopts,
          ConcreteBody.applySkipPolicy_selector, ConcreteBody.applySkipPolicy_options]
      · intro f hf rel hrel
        obtain ⟨⟨link, hl⟩, -⟩ := (hcompiled f.node (hmem f hf)).child hrel
        refine ⟨link, hl, ?_, Batch.ofParents_field link f.rows, Batch.ofParents_keys link f.rows⟩
        simp only [FetchTask.request, hl]
      · -- a body in name order compiles to a graph whose every node has its children in order
        intro hsorted
        have hroot_sorted : (c.applySkipPolicy r.allowSkip).NamesSorted := by
          rw [ConcreteBody.namesSorted_iff, ConcreteBody.applySkipPolicy_relations,
            ← ConcreteBody.namesSorted_iff]
          exact QueryBody.resolve_namesSorted hsorted hc
        have hall : ∀ n ∈ root.breadthFirst,
            ConcreteBody.CompiledSorted eng.links eng.config.maxDepth n :=
          GraphNode.forall_mem_levelOrder (fun n hn c hc => hn.children.2 c hc)
            (by simpa using ⟨_, _, _, _, hroot_sorted, hroot⟩)
        exact fun f hf => (hall f.node (hmem f hf)).children.1

/-- Posts with their comments, read from a store holding two posts and three comments: one read
per body, the comments read asking for the ids of both posts. -/
theorem resolveLocally_posts_with_comments :
    let store : MemoryStore := { collections :=
      [("comments", [[("_id", .str "c1"), ("postId", .str "p1")],
          [("_id", .str "c2"), ("postId", .str "p2")], [("_id", .str "c3"), ("postId", .str "p1")]]),
       ("posts", [[("_id", .str "p1")], [("_id", .str "p2")]])] }
    let r : Request :=
      ⟨"posts", "posts", { relations := [("comments", {})] }, {}, .adHoc, false⟩
    let eng : Engine :=
      { links := ({} : Links).insert "posts" "comments" (Link.inverseMany "comments" "postId") }
    ∃ reqs rows, r.resolveLocally eng (fun req => .ok (store.find req)) = (reqs, .ok rows) ∧
      reqs.length = r.body.nodeCount ∧
      reqs.map (·.selector) = [[], [("postId", .obj [("$in", .arr [.str "p1", .str "p2"])])]] := by
  intro store r eng
  refine ⟨_, _, rfl, ?_⟩
  obtain ⟨_, _, _, -, -, hlen, -⟩ := resolveLocally_reads_each_node_once
    (rfl : r.resolveLocally eng (fun req => .ok (store.find req)) = _)
  exact ⟨hlen, rfl⟩

end Request

end DocQuery
