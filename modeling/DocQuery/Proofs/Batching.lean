import DocQuery.Proofs.SplitRead

/-!
# Batched reads resolve as reads per parent

A fetch reads each node once for all the rows of the level above and splits the read back per
parent row; resolving parent by parent (`GraphNode.resolvePerParent`) reads every relation once
per row. Where documents keep their keys distinct and key texts decide equality as the selector
does, both fail or both give the same rows (`GraphNode.fetch_resolves_per_parent`), by induction
down the tree (`GraphNode.induction_children`).
-/

namespace DocQuery

namespace MemoryStore

/-- Reading the store, which always answers. -/
def reader (store : MemoryStore) : Reader := fun req => .ok (store.find req)

theorem mem_docs {store : MemoryStore} {collection : String} {d : Document}
    (h : d ∈ store.docs collection) : ∃ e ∈ store.collections, d ∈ e.2 := by
  unfold docs Keyed.get? at h
  cases hfind : store.collections.find? (·.1 == collection) with
  | none => simp [hfind] at h
  | some e => exact ⟨e, List.mem_of_find?_eq_some hfind, by simpa [hfind] using h⟩

end MemoryStore

namespace GraphNode

theorem nodeCount_le_forestSize {ns : List GraphNode} {n : GraphNode} (h : n ∈ ns) :
    n.nodeCount ≤ forestSize ns := by
  induction ns with
  | nil => cases h
  | cons m ms ih =>
    rw [forestSize]
    rcases List.mem_cons.mp h with rfl | h
    · omega
    · have := ih h
      omega

theorem nodeCount_lt_of_mem_children {n : GraphNode} {c : String × GraphNode}
    (hc : c ∈ n.children) : c.2.nodeCount < n.nodeCount := by
  have hle := nodeCount_le_forestSize (List.mem_map_of_mem (f := (·.2)) hc)
  rw [nodeCount_eq n]
  omega

/-- Induction over a query graph: a node has a property when all its children have it. -/
@[elab_as_elim]
theorem induction_children {motive : GraphNode → Prop}
    (step : ∀ n, (∀ c ∈ n.children, motive c.2) → motive n) (n : GraphNode) : motive n :=
  step n fun c _hc => induction_children step c.2
termination_by n.nodeCount
decreasing_by exact nodeCount_lt_of_mem_children _hc

/-- The level order of a forest lists the children of every node it lists. -/
theorem mem_levelOrder_of_child {ns : List GraphNode} {n : GraphNode} (hn : n ∈ levelOrder ns)
    {c : String × GraphNode} (hc : c ∈ n.children) : c.2 ∈ levelOrder ns := by
  induction ns using levelOrder.induct with
  | case1 => simp [levelOrder_nil] at hn
  | case2 ns hne ih =>
    rw [levelOrder_of_ne_nil hne] at hn ⊢
    rcases List.mem_append.mp hn with hn | hn
    · have hchild : c.2 ∈ childForest ns :=
        List.mem_flatMap.mpr ⟨n, hn, List.mem_map_of_mem hc⟩
      rw [levelOrder_of_ne_nil (List.ne_nil_of_mem hchild)]
      exact List.mem_append_right _ (List.mem_append_left _ hchild)
    · exact List.mem_append_right _ (ih hn)

end GraphNode

namespace Fetched

/-- Attaches one child's results to rows. -/
def attachKid (rows : List Document)
    (entry : (String × GraphNode) × (List (List Nat) × List Document)) : List Document :=
  attachChild entry.1.1 ((entry.1.2.link.map (·.cardinality)).getD .many) entry.2.2 rows entry.2.1

/-- Putting an entry together: its rows cut to the requested fields, each child attached in
turn. -/
theorem assembleWith_eq (f : Fetched) (kids : List (List (List Nat) × List Document)) :
    f.assembleWith kids =
      (f.node.children.zip kids).foldl attachKid (f.rows.map (Document.cut f.node.options.fields)) := by
  unfold assembleWith
  split
  · rename_i requested hsome
    rw [hsome]
    rfl
  · rename_i hnone
    rw [hnone, Document.cut_none, List.map_id]
    rfl

/-- With one group per row, each pointing into the child's rows, attaching a child gives each
row the rows of its group. -/
theorem attachChild_eq (relation : String) (card : Cardinality) {childRows : List Document} :
    ∀ {rows : List Document} {groups : List (List Nat)},
      (∀ g ∈ groups, ∀ i ∈ g, i < childRows.length) → groups.length = rows.length →
      attachChild relation card childRows rows groups = List.zipWith
        (fun g row => GraphNode.attach relation card (g.map (childRows.getD · [])) row) groups rows
  | [], [], _, _ => rfl
  | _ :: _, [], _, hlen => by simp at hlen
  | [], _ :: _, _, hlen => by simp at hlen
  | row :: rows, g :: groups, hvalid, hlen => by
    have hg : ∀ i ∈ g, i < childRows.length := hvalid g List.mem_cons_self
    simp only [attachChild]
    rw [List.zipWith_cons_cons, attachChild_eq relation card
      (fun g' hg' => hvalid g' (List.mem_cons_of_mem _ hg')) (by simpa using hlen)]
    congr 1
    cases card with
    | many =>
      simp only [GraphNode.attach]
      rw [← filterMap_getElem?_eq_map_getD hg [], List.map_filterMap]
    | one =>
      have hhead : (g.head? >>= (childRows[·]?)) = (g.map (childRows.getD · [])).head? := by
        cases g with
        | nil => rfl
        | cons i rest =>
          have hi := hg i List.mem_cons_self
          simp [List.getElem?_eq_getElem hi, List.getD_eq_getElem?_getD]
      simp only [GraphNode.attach]
      rewrite [hhead]
      cases (g.map (childRows.getD · [])).head? <;> rfl

end Fetched

namespace GraphNode

/-- A child's batched result gives the parent rows `groups`: its groups point into its rows, and
looked up there they are `groups`. -/
def LooksUp (kid : List (List Nat) × List Document) (groups : List (List Document)) : Prop :=
  (∀ g ∈ kid.1, ∀ i ∈ g, i < kid.2.length) ∧ kid.1.map (·.map (kid.2.getD · [])) = groups

/-- Attaching a child's batched result that looks up each row's own group `F d` gives each row
that group. -/
theorem attachKid_of_looksUp {relation : String} {c : GraphNode} {link : Link}
    (hl : c.link = some link) {v : List (List Nat) × List Document}
    {F : Document → Except Error (List Document)} {D : List Document} {Gs : List (List Document)}
    (hv : LooksUp v Gs) (hF : List.Forall₂ (fun d G => F d = .ok G) D Gs) (o : Document → Document) :
    Fetched.attachKid (D.map o) ((relation, c), v) =
      D.map fun d => attach relation link.cardinality ((F d).toOption.getD []) (o d) := by
  have hlen : v.1.length = (D.map o).length := by
    rw [List.length_map, hF.length_eq, ← hv.2, List.length_map]
  have hzip : List.zipWith (fun g row => attach relation link.cardinality
      (g.map (v.2.getD · [])) row) v.1 (D.map o) =
      List.zipWith (attach relation link.cardinality) Gs (D.map o) := by
    rw [← hv.2, List.zipWith_map_left]
  simp only [Fetched.attachKid, hl, Option.map_some, Option.getD_some]
  rw [Fetched.attachChild_eq _ _ hv.1 hlen, hzip]
  exact zipWith_eq_map_of_forall₂ hF _ o []

/-- What batched reads of the nodes `nodes` of a query graph need of a store to split back per
parent: the nodes' children are among them and each is attached by a link whose key texts agree
with the selector on the store, and the store's documents keep their keys distinct. -/
structure SplitsPerParent (store : MemoryStore) (nodes : List GraphNode) : Prop where
  closed : ∀ n ∈ nodes, ∀ c ∈ n.children, c.2 ∈ nodes
  linked : ∀ n ∈ nodes, ∀ c ∈ n.children, ∃ link, c.2.link = some link ∧
    link.KeyTextsAgree store n.collection c.2.collection
  distinct : ∀ collection, ∀ d ∈ store.docs collection, Json.KeysDistinct (.obj d)

/-- A child node read in one batch against the rows `Pb` its parent level keeps gives each parent
its own rows, resolved: `P` are the whole documents of those rows. -/
def BatchAgrees (store : MemoryStore) (policy : OneToOnePolicy) (c : GraphNode) : Prop :=
  ∀ {parentCollection : String} {link : Link} {relation : String} {Pb P : List Document},
    c.link = some link → link.KeyTextsAgree store parentCollection c.collection →
    List.Forall₂ (fun pb p => link.parentKey? pb = link.parentKey? p) Pb P →
    (∀ p ∈ P, p ∈ store.docs parentCollection) →
    Except.Agree LooksUp (FetchTask.evalNode store.reader policy c (some relation) (some Pb))
      (P.mapM (ownGroup store policy c link relation))

section Batching

variable {store : MemoryStore} {policy : OneToOnePolicy} {nodes : List GraphNode}
  (hsplit : SplitsPerParent store nodes)
include hsplit

/-- The children of a node, evaluated against its rows and attached in turn to rows `D.map o`,
give what each row of `D` gets from its own reads, attaching to `o` of it. -/
theorem evalChildren_fold {m : GraphNode} (hm : m ∈ nodes)
    (ih : ∀ c ∈ m.children, BatchAgrees store policy c.2) {D : List Document}
    (hD : ∀ d ∈ D, d ∈ store.docs m.collection) (cs : List (String × GraphNode))
    (hcs : ∀ c ∈ cs, c ∈ m.children) (o : Document → Document) :
    Except.Agree (· = ·)
      ((FetchTask.evalChildren store.reader policy cs (D.map (Document.cut m.fetchFields))).map
        fun kids => (cs.zip kids).foldl Fetched.attachKid (D.map o))
      (D.mapM fun d => resolveChildren store policy cs d (o d)) := by
  induction cs generalizing o with
  | nil =>
    have hright : D.mapM (fun d => resolveChildren store policy [] d (o d)) = .ok (D.map o) :=
      List.mapM_pure
    rw [hright]
    rfl
  | cons entry rest ih' =>
    obtain ⟨relation, c⟩ := entry
    have hc : (relation, c) ∈ m.children := hcs _ List.mem_cons_self
    obtain ⟨link, hl, hagree⟩ := hsplit.linked m hm _ hc
    have hl : c.link = some link := hl
    -- The batch's parents are the rows cut to the node's fetch fields, which keep their keys.
    have hkeys : List.Forall₂ (fun pb p => link.parentKey? pb = link.parentKey? p)
        (D.map (Document.cut m.fetchFields)) D := by
      rw [List.forall₂_map_left_iff]
      exact List.forall₂_same.mpr fun d hd =>
        parentKey?_cut_fetchFields (hsplit.distinct _ d (hD d hd)) hc hl
    have hN : Except.Agree LooksUp
        (FetchTask.evalNode store.reader policy c (some relation)
          (some (D.map (Document.cut m.fetchFields))))
        (D.mapM (ownGroup store policy c link relation)) :=
      ih _ hc hl hagree hkeys hD
    rw [FetchTask.evalChildren]
    cases hv : FetchTask.evalNode store.reader policy c (some relation)
        (some (D.map (Document.cut m.fetchFields))) with
    | error e =>
      cases hG : D.mapM (ownGroup store policy c link relation) with
      | ok Gs => rw [hv, hG] at hN; exact hN.elim
      | error e' =>
        -- Some parent's own rows fail, and so does that parent's resolution.
        obtain ⟨e'', hR⟩ := mapM_resolveChildren_cons_error store policy rest o hl hG
        rw [hR]
        trivial
    | ok v =>
      cases hG : D.mapM (ownGroup store policy c link relation) with
      | error e => rw [hv, hG] at hN; exact hN.elim
      | ok Gs =>
        rw [hv, hG] at hN
        -- Each row, with this child attached, is what the rest of the children start from.
        let o' : Document → Document := fun d => attach relation link.cardinality
          ((ownGroup store policy c link relation d).toOption.getD []) (o d)
        have hleft : (fun kids => (((relation, c) :: rest).zip kids).foldl Fetched.attachKid
            (D.map o)) ∘ (v :: ·) = fun kids => (rest.zip kids).foldl Fetched.attachKid (D.map o') := by
          funext kids
          simp only [Function.comp, List.zip_cons_cons, List.foldl_cons,
            attachKid_of_looksUp hl hN (mapM_eq_ok_iff.mp hG) o, o']
        dsimp only
        rw [Except.map_map, hleft, mapM_resolveChildren_cons_ok store policy rest o hl hG]
        exact ih' (fun c' hc' => hcs c' (List.mem_cons_of_mem _ hc')) o'

/-- A node's children, evaluated against its rows read with its fetch fields, put together the
rows as each whole document of `D` resolves on its own. -/
theorem evalChildren_assemble {m : GraphNode} (hm : m ∈ nodes)
    (ih : ∀ c ∈ m.children, BatchAgrees store policy c.2) {D : List Document}
    (hD : ∀ d ∈ D, d ∈ store.docs m.collection) (relation : Option String)
    (groups : List (List Nat)) :
    Except.Agree (· = ·)
      ((FetchTask.evalChildren store.reader policy m.children (D.map (Document.cut m.fetchFields))).map
        (Fetched.assembleWith ⟨m, relation, D.map (Document.cut m.fetchFields), groups⟩))
      (D.mapM (resolveRow store policy m)) := by
  -- Cut to the fetch fields and then to the requested ones, a row is cut to the requested ones.
  have hrows : (D.map (Document.cut m.fetchFields)).map (Document.cut m.options.fields) =
      D.map (Document.cut m.options.fields) := by
    rw [List.map_map]
    exact List.map_congr_left fun d hd => cut_cut_fetchFields (hsplit.distinct _ d (hD d hd))
  have hassemble : Fetched.assembleWith ⟨m, relation, D.map (Document.cut m.fetchFields), groups⟩ =
      fun kids => (m.children.zip kids).foldl Fetched.attachKid (D.map (Document.cut m.options.fields)) := by
    funext kids
    rw [Fetched.assembleWith_eq]
    dsimp only
    rw [hrows]
  have hright : D.mapM (resolveRow store policy m) =
      D.mapM fun d => resolveChildren store policy m.children d (d.cut m.options.fields) :=
    mapM_congr_of_mem fun d _ => resolveRow_eq store policy m d
  rw [hassemble, hright]
  exact evalChildren_fold hsplit hm ih hD m.children (fun _ h => h) (Document.cut m.options.fields)

omit hsplit in
/-- A child node's read for a level: one read for all the parent rows, split back per parent and
compacted. -/
theorem run_child {c : GraphNode} {link : Link} (hl : c.link = some link) (relation : String)
    (Pb : List Document) :
    (FetchTask.run store.reader policy ⟨c, some relation, some Pb⟩).2 =
      (Fetched.partition policy (some relation) link c.options Pb
        ((batchDocs store c link Pb).map (Document.cut c.fetchFields))).map fun groups =>
          ⟨c, some relation,
            (Fetched.compact ((batchDocs store c link Pb).map (Document.cut c.fetchFields)) groups).1,
            (Fetched.compact ((batchDocs store c link Pb).map (Document.cut c.fetchFields)) groups).2⟩ := by
  rw [FetchTask.run_snd_child
    (show (⟨c, some relation, some Pb⟩ : FetchTask).node.link = some link from hl) rfl]
  simp only [MemoryStore.reader, find_request_child hl]
  rfl

/-- The rows a child node keeps after compacting its batched read are resolved, group by group,
as each parent resolves the rows of its own read. -/
theorem evalChildren_compact {c : GraphNode} (hc : c ∈ nodes)
    (ihc : ∀ c' ∈ c.children, BatchAgrees store policy c'.2) {S : List Document}
    (hS : ∀ d ∈ S, d ∈ store.docs c.collection) {groups : List (List Nat)}
    {Gs : List (List Document)}
    (hG : List.Forall₂ (fun g rows => (∀ i ∈ g, i < S.length) ∧ g.map (S.getD · []) = rows)
      groups Gs) {f : Fetched} (hnode : f.node = c)
    (hcompact : (f.rows, f.groups) = Fetched.compact (S.map (Document.cut c.fetchFields)) groups) :
    Except.Agree LooksUp
      ((FetchTask.evalChildren store.reader policy c.children f.rows).map fun kids =>
        (f.groups, f.assembleWith kids))
      (Gs.mapM (·.mapM (resolveRow store policy c))) := by
  obtain ⟨node, relation, rows, kept⟩ := f
  dsimp only at hnode hcompact ⊢
  subst node
  rw [Fetched.compact_map, Prod.mk.injEq] at hcompact
  obtain ⟨rfl, rfl⟩ := hcompact
  have hvalid : ∀ g ∈ groups, ∀ i ∈ g, i < S.length := fun g hg => by
    obtain ⟨_, -, h⟩ := forall₂_exists_of_mem_left hG hg
    exact h.1
  obtain ⟨hv, hmap, hcover, hsub⟩ := Fetched.compact_lookup S groups hvalid
  have hGs : (Fetched.compact S groups).2.map (·.map ((Fetched.compact S groups).1.getD · [])) = Gs := by
    rw [hmap]
    simpa using forall₂_map_eq hG fun _ _ h => h.2
  -- The kept rows resolve together as they resolve one by one, and the groups look them up.
  have hR := evalChildren_assemble hsplit hc ihc (fun d hd => hS d (hsub d hd)) relation
    (Fetched.compact S groups).2
  have hL := agree_mapM_lookup (h := resolveRow store policy c) hv hcover
  rw [hGs] at hL
  have hfinal := (hR.trans hL).map_left (S := LooksUp)
    (f := fun rows => ((Fetched.compact S groups).2, rows)) fun _ _ h => by
      obtain ⟨_, rfl, hlen, rfl⟩ := h
      exact ⟨fun g hg i hi => hlen ▸ hv g hg i hi, rfl⟩
  rw [Except.map_map] at hfinal
  exact hfinal

/-- Every node of the graph, read in one batch for its parents' rows, gives each parent its own
rows, resolved. -/
theorem batchAgrees_of_mem : ∀ c ∈ nodes, BatchAgrees store policy c := by
  intro c
  induction c using induction_children with
  | step c ih =>
    intro hc parentCollection link relation Pb P hl hagree hkeys hP
    have ihc : ∀ c' ∈ c.children, BatchAgrees store policy c'.2 := fun c' hc' =>
      ih c' hc' (hsplit.closed c hc c' hc')
    have hparents : ∀ pb ∈ Pb, ∃ d ∈ store.docs parentCollection,
        link.parentKey? pb = link.parentKey? d := by
      intro pb hpb
      obtain ⟨p, hp, hkey⟩ := forall₂_exists_of_mem_left hkeys hpb
      exact ⟨p, hP p hp, hkey⟩
    -- Per parent, the own rows are checked first for every parent, then resolved.
    have hright : Except.Agree (· = ·) (P.mapM (ownGroup store policy c link relation))
        ((Pb.mapM fun p => keepOne policy relation link (ownRows store c link p)).bind fun Gs =>
          Gs.mapM (·.mapM (resolveRow store policy c))) := by
      have hPb : Pb.mapM (ownGroup store policy c link relation) =
          P.mapM (ownGroup store policy c link relation) :=
        mapM_eq_of_forall₂ (hkeys.imp fun _ _ h => ownGroup_congr store policy c link relation h)
      rw [← hPb]
      exact Except.agree_mapM_bind Pb
    rw [FetchTask.evalNode_eq, run_child hl relation Pb, Except.map_bind]
    refine ((Except.Agree.bind
      (agree_partition hagree hparents hl (hsplit.distinct c.collection) relation)
      fun groups Gs hG => evalChildren_compact hsplit hc ihc (fun d hd => mem_batchDocs hd) hG
        rfl rfl).trans hright.symm).imp ?_
    rintro kid _ ⟨G, hG, rfl⟩
    exact hG

/-- The root's rows, read with its fetch fields and put together from its children's batched
reads, are the rows it resolves parent by parent. -/
theorem evalNode_root {root : GraphNode} (hroot : root ∈ nodes) :
    Except.Agree (· = ·) ((FetchTask.evalNode store.reader policy root none none).map (·.2))
      (resolvePerParent store policy root) := by
  rw [resolvePerParent]
  generalize hreq : (⟨root.collection, root.selector,
    { sort := root.options.sort, limit := root.options.limit, skip := root.options.skip }⟩ :
      FindRequest) = req
  have hfind : store.find (FetchTask.request ⟨root, none, none⟩) =
      (store.find req).map (Document.cut root.fetchFields) := by
    subst hreq
    simp only [FetchTask.request_root, MemoryStore.find_eq, Document.cut_none, List.map_id]
    rfl
  have hD : ∀ d ∈ store.find req, d ∈ store.docs root.collection := by
    intro d hd
    subst hreq
    simp only [MemoryStore.find_eq, Document.cut_none, List.map_id] at hd
    exact (List.mem_filter.mp (Document.mem_sortAll.mp (FindOptions.mem_of_mem_page hd))).1
  have hrun : (FetchTask.run store.reader policy ⟨root, none, none⟩).2 =
      .ok ⟨root, none, (store.find req).map (Document.cut root.fetchFields), []⟩ := by
    rw [FetchTask.run_snd_root fun _ _ _ hp => by cases hp]
    simp only [MemoryStore.reader, hfind]
    rfl
  rw [FetchTask.evalNode_eq, hrun]
  dsimp only [Except.bind]
  rw [Except.map_map]
  exact evalChildren_assemble hsplit hroot
    (fun c hc => batchAgrees_of_mem hsplit c.2 (hsplit.closed root hroot c hc)) hD none []

end Batching

/-- On a store whose documents keep their keys distinct, and where at every link of the graph
key texts decide equality as the selector does, fetching a compiled query graph in batches
gives what resolving it parent by parent gives: both fail, or both give the same rows. -/
theorem fetch_resolves_per_parent {body : ConcreteBody} {collection : String} {links : Links}
    {config : Config} {root : GraphNode} {store : MemoryStore} (policy : OneToOnePolicy)
    (hroot : body.compile collection links config = .ok root)
    (hdistinct : ∀ coll, ∀ d ∈ store.docs coll, Json.KeysDistinct (.obj d))
    (hagree : ∀ n ∈ root.breadthFirst, ∀ c ∈ n.children, ∀ link, c.2.link = some link →
      link.KeyTextsAgree store n.collection c.2.collection) :
    (root.fetch store.reader policy).2.toOption = (resolvePerParent store policy root).toOption := by
  have hcompiled : ∀ n ∈ root.breadthFirst, ConcreteBody.Compiled links config.maxDepth n :=
    forall_mem_levelOrder (fun _ hn _ hc => (ConcreteBody.Compiled.child hn hc).2) fun n hn => by
      rw [List.mem_singleton.mp hn]
      exact ⟨collection, none, 0, body, hroot⟩
  have hsplit : SplitsPerParent store root.breadthFirst :=
    { closed := fun _ hn _ hc => mem_levelOrder_of_child hn hc
      linked := fun n hn c hc => by
        obtain ⟨link, hl⟩ := (ConcreteBody.Compiled.child (hcompiled n hn) hc).1
        exact ⟨link, hl, hagree n hn c hc link hl⟩
      distinct := hdistinct }
  have hmem : root ∈ root.breadthFirst := by
    rw [breadthFirst, levelOrder_of_ne_nil (List.cons_ne_nil _ _)]
    exact List.mem_append_left _ List.mem_cons_self
  rw [fetch_eq_evalNode]
  exact (evalNode_root hsplit hmem).toOption_eq

/-- A post and its author, linked by a string key: the store and the graph meet the conditions,
and the batched fetch resolves as per-parent reads do. -/
theorem fetch_resolves_post_author :
    let links := ({} : Links).insert "posts" "author" (Link.one "users" "by")
    let store : MemoryStore := { collections := [("users", [[("_id", .str "u1"), ("name", .str "X")]]),
      ("posts", [[("_id", .str "p1"), ("by", .str "u1")]])] }
    let root : GraphNode := ⟨"posts", [], {}, none,
      [("author", ⟨"users", [], {}, some (Link.one "users" "by"), []⟩)]⟩
    ConcreteBody.compile { relations := [("author", {})] } "posts" links {} = .ok root ∧
      (∀ coll, ∀ d ∈ store.docs coll, Json.KeysDistinct (.obj d)) ∧
      (∀ n ∈ root.breadthFirst, ∀ c ∈ n.children, ∀ link, c.2.link = some link →
        link.KeyTextsAgree store n.collection c.2.collection) ∧
      (root.fetch store.reader .reject).2.toOption = (resolvePerParent store .reject root).toOption := by
  intro links store root
  have hroot : ConcreteBody.compile { relations := [("author", {})] } "posts" links {} = .ok root := rfl
  have hdistinct : ∀ coll, ∀ d ∈ store.docs coll, Json.KeysDistinct (.obj d) := by
    intro coll d hd
    obtain ⟨e, he, hde⟩ := MemoryStore.mem_docs hd
    simp only [store, List.mem_cons, List.not_mem_nil, or_false] at he
    rcases he with rfl | rfl <;> simp only [List.mem_singleton] at hde <;> subst hde <;>
      simp [Json.KeysDistinct, Json.entriesKeysDistinct]
  have hsplitBy : "by".splitOn "." = ["by"] := by cbv
  have hsplitId : "_id".splitOn "." = ["_id"] := by cbv
  have hagree : ∀ n ∈ root.breadthFirst, ∀ c ∈ n.children, ∀ link, c.2.link = some link →
      link.KeyTextsAgree store n.collection c.2.collection := by
    intro n hn c hc link hl
    simp [root, breadthFirst, levelOrder_of_ne_nil, childForest, levelOrder_nil] at hn
    rcases hn with rfl | rfl
    · -- The only link: the post's key and the user's `_id` are the same string.
      simp only [List.mem_singleton] at hc
      subst hc
      simp only [Option.some.injEq] at hl
      subst hl
      refine ⟨by simp [Link.matchField, Link.one, Document.idField], ?_⟩
      intro p hp k hk v hv hsome d hd
      simp [store, MemoryStore.docs, Keyed.get?] at hp hd
      subst hp hd
      simp [Link.parentKey?, Link.one, Document.field?, hsplitBy, Object.get?] at hk
      subst hk
      simp [Json.offered] at hv
      subst hv
      simp [Link.matchField, Link.one, KeyIndex.heldValues, Document.field?, hsplitId, Object.get?,
        Document.idField, Selector.fieldEquals, Json.sameValue, Json.equal]
    · simp at hc
  exact ⟨hroot, hdistinct, hagree, fetch_resolves_per_parent .reject hroot hdistinct hagree⟩

/-- Where key texts do not decide equality the batched fetch loses rows: a post's key is an
object with its entries in another order than the user's `_id`. The selector takes them as equal
and per-parent reads attach the user, but their key texts differ, so the batched fetch attaches
nothing. -/
theorem fetch_drops_author_of_reordered_key :
    let links := ({} : Links).insert "posts" "author" (Link.one "users" "by")
    let store : MemoryStore := { collections := [("users", [[("_id", .obj [("a", .null), ("b", .null)])]]),
      ("posts", [[("_id", .str "p"), ("by", .obj [("b", .null), ("a", .null)])]])] }
    let root : GraphNode := ⟨"posts", [], {}, none,
      [("author", ⟨"users", [], {}, some (Link.one "users" "by"), []⟩)]⟩
    ConcreteBody.compile { relations := [("author", {})] } "posts" links {} = .ok root ∧
      (root.fetch store.reader .firstBySort).2.toOption.map
        (·.map fun row => (Object.get? row "author").isSome) = some [false] ∧
      (resolvePerParent store .firstBySort root).toOption.map
        (·.map fun row => (Object.get? row "author").isSome) = some [true] :=
  ⟨rfl, by cbv, by cbv⟩

end GraphNode

end DocQuery
