import DocQuery.Proofs.Batching
import DocQuery.Proofs.Keys

/-!
# The groups of a read node

A node read below the root comes back with, for each parent row, the group of positions of the
rows that parent keeps. Putting the result together zips parent rows with groups and looks the
positions up unchecked, so the groups must fit the parent (`Fetched.Fits`). Every read yields
fitting groups (`FetchTask.run_fits`), and compacting keeps the rows they point to
(`Fetched.compact_keeps_referenced`).
-/

namespace DocQuery

/-- In an increasing list, a smaller member comes first. -/
theorem idxOf_lt_idxOf {l : List Nat} (hl : l.Pairwise (· < ·)) {a b : Nat} (ha : a ∈ l)
    (hb : b ∈ l) (hab : a < b) : l.idxOf a < l.idxOf b := by
  have hia := List.idxOf_lt_length_of_mem ha
  have hib := List.idxOf_lt_length_of_mem hb
  rcases Nat.lt_trichotomy (l.idxOf a) (l.idxOf b) with hlt | heq | hgt
  · exact hlt
  · exact absurd ((List.idxOf_inj ha).mp heq) (Nat.ne_of_lt hab)
  · -- the member at the earlier position is the smaller one
    have hba := List.pairwise_iff_getElem.mp hl _ _ hib hia hgt
    rw [List.getElem_idxOf hib, List.getElem_idxOf hia] at hba
    omega

namespace FindOptions

/-- A page of a list is a piece of it. -/
theorem page_sublist {α : Type} (o : FindOptions) (rows : List α) : List.Sublist (o.page rows) rows := by
  unfold page
  split
  · exact (List.take_sublist _ _).trans (List.drop_sublist _ _)
  · exact List.drop_sublist _ _

end FindOptions

namespace GraphNode

/-- The one-to-one check keeps a piece of the rows, and at most one row for a one-to-one
link. -/
theorem keepOne_ok {policy : OneToOnePolicy} {α : Type} {relation : String} {link : Link}
    {l g : List α} (h : keepOne policy relation link l = .ok g) :
    List.Sublist g l ∧ (link.cardinality = .one → g.length ≤ 1) := by
  unfold keepOne at h
  split at h
  · cases policy with
    | reject => cases h
    | firstBySort =>
      cases h
      exact ⟨List.take_sublist _ _, fun _ => by simp⟩
  · rename_i hmany
    cases h
    exact ⟨List.Sublist.refl _, fun hone => Nat.le_of_not_lt (not_and.mp hmany hone)⟩

end GraphNode

namespace Fetched

/-! ## Splitting back per parent -/

/-- The positions an index gives a parent are increasing. -/
theorem pairwise_window (rows : List Document) (link : Link) (options : FindOptions)
    (p : Document) :
    (window (KeyIndex.build rows link.matchField) link options p).Pairwise (· < ·) := by
  rw [window_eq_page]
  refine List.Pairwise.sublist (FindOptions.page_sublist _ _) ?_
  cases link.parentKey? p with
  | none => exact List.Pairwise.nil
  | some k => exact (KeyIndex.build_lists_holders rows link.matchField k).2.2.1

/-- Splitting rows back per parent gives one group per parent, each increasing, pointing into
the rows, and of at most one row for a one-to-one link. -/
theorem partition_ok {policy : OneToOnePolicy} {relation : Option String} {link : Link}
    {options : FindOptions} {parents rows : List Document} {groups : List (List Nat)}
    (h : partition policy relation link options parents rows = .ok groups) :
    groups.length = parents.length ∧
      ∀ g ∈ groups, g.Pairwise (· < ·) ∧ (∀ i ∈ g, i < rows.length) ∧
        (link.cardinality = .one → g.length ≤ 1) := by
  rw [partition_eq, mapM_eq_ok_iff] at h
  refine ⟨h.length_eq.symm, fun g hg => ?_⟩
  obtain ⟨p, -, hp⟩ := forall₂_exists_of_mem_right h hg
  obtain ⟨hsub, hone⟩ := GraphNode.keepOne_ok hp
  exact ⟨(pairwise_window rows link options p).sublist hsub,
    fun i hi => GraphNode.lt_of_mem_window (hsub.subset hi), hone⟩

/-! ## Dropping the rows no group keeps -/

/-- The positions below `n` that some group names, in increasing order. -/
def keptPositions (n : Nat) (groups : List (List Nat)) : List Nat :=
  (List.range n).filter fun i => groups.any (·.contains i)

theorem compact_eq (rows : List Document) (groups : List (List Nat)) :
    compact rows groups = ((keptPositions rows.length groups).filterMap (rows[·]?),
      groups.map (·.map (keptPositions rows.length groups).idxOf)) := rfl

theorem pairwise_keptPositions (n : Nat) (groups : List (List Nat)) :
    (keptPositions n groups).Pairwise (· < ·) :=
  List.pairwise_lt_range.filter _

theorem mem_keptPositions {n : Nat} {groups : List (List Nat)} {i : Nat} :
    i ∈ keptPositions n groups ↔ i < n ∧ ∃ g ∈ groups, i ∈ g := by
  simp [keptPositions]

/-- The kept positions are those of the numbered rows that some group names. -/
theorem keptPositions_eq_zipIdx (rows : List Document) (groups : List (List Nat)) :
    keptPositions rows.length groups =
      (rows.zipIdx.filter fun e => groups.any (·.contains e.2)).map (·.2) := by
  rw [keptPositions, List.range_eq_range', ← List.zipIdx_map_snd 0 rows, List.filter_map]
  rfl

/-- The rows that compacting keeps: those some group names, in their order. -/
theorem compact_fst (rows : List Document) (groups : List (List Nat)) :
    (compact rows groups).1 = (rows.zipIdx.filter fun e => groups.any (·.contains e.2)).map (·.1) := by
  have hget : ∀ e ∈ rows.zipIdx.filter (fun e => groups.any (·.contains e.2)),
      ((rows[·]?) ∘ (·.2)) e = some e.1 := fun e he =>
    List.mem_zipIdx_iff_getElem?.mp (List.mem_of_mem_filter he)
  rw [compact_eq, keptPositions_eq_zipIdx, List.filterMap_map, List.filterMap_congr hget,
    List.filterMap_eq_map']

/-- As many rows are kept as there are kept positions. -/
theorem length_compact_fst (rows : List Document) (groups : List (List Nat)) :
    (compact rows groups).1.length = (keptPositions rows.length groups).length := by
  have hlt : ∀ i ∈ keptPositions rows.length groups, i < rows.length := fun i hi =>
    (mem_keptPositions.mp hi).1
  rw [compact_eq, filterMap_getElem?_eq_map_getD hlt [], List.length_map]

/-- Renumbering keeps each group increasing. -/
theorem compact_increasing {rows : List Document} {groups : List (List Nat)}
    (hvalid : ∀ g ∈ groups, ∀ i ∈ g, i < rows.length)
    (hinc : ∀ g ∈ groups, g.Pairwise (· < ·)) :
    ∀ g ∈ (compact rows groups).2, g.Pairwise (· < ·) := by
  intro g hg
  rw [compact_eq] at hg
  obtain ⟨g₀, hg₀, rfl⟩ := List.mem_map.mp hg
  have hin : ∀ i ∈ g₀, i ∈ keptPositions rows.length groups := fun i hi =>
    mem_keptPositions.mpr ⟨hvalid g₀ hg₀ i hi, g₀, hg₀, hi⟩
  refine List.pairwise_map.mpr ((hinc g₀ hg₀).imp_of_mem fun ha hb hab => ?_)
  exact idxOf_lt_idxOf (pairwise_keptPositions _ _) (hin _ ha) (hin _ hb) hab

/-- Every kept row is named by some renumbered group. -/
theorem compact_covered (rows : List Document) (groups : List (List Nat)) :
    ∀ j < (compact rows groups).1.length, ∃ g ∈ (compact rows groups).2, j ∈ g := by
  intro j hj
  rw [length_compact_fst] at hj
  set kept := keptPositions rows.length groups
  -- the row kept at `j` comes from a position that some group names
  obtain ⟨-, g, hg, hig⟩ := mem_keptPositions.mp (List.getElem_mem hj : kept[j] ∈ kept)
  refine ⟨g.map kept.idxOf, by rw [compact_eq]; exact List.mem_map_of_mem hg, ?_⟩
  have hidx : kept.idxOf kept[j] = j := (pairwise_keptPositions _ _).nodup.idxOf_getElem j hj
  exact List.mem_map.mpr ⟨kept[j], hig, hidx⟩

/-- A position in range reads the row that a position-wise lookup with a default reads. -/
theorem map_getElem?_eq {l : List Document} {g : List Nat} (hg : ∀ i ∈ g, i < l.length) :
    g.map (l[·]?) = (g.map (l.getD · [])).map some := by
  rw [List.map_map]
  refine List.map_congr_left fun i hi => ?_
  simp [List.getElem?_eq_getElem (hg i hi), List.getD_eq_getElem?_getD]

/-- Dropping the rows that no group keeps keeps exactly the rows some group names, in their
order; the renumbered groups point into the kept rows, name every one of them, and each names
the same rows as before, in the same order. -/
theorem compact_keeps_referenced (rows : List Document) (groups : List (List Nat))
    (hvalid : ∀ g ∈ groups, ∀ i ∈ g, i < rows.length) :
    (compact rows groups).1 =
        (rows.zipIdx.filter fun e => groups.any (·.contains e.2)).map (·.1) ∧
      (∀ g ∈ (compact rows groups).2, ∀ j ∈ g, j < (compact rows groups).1.length) ∧
      (∀ j < (compact rows groups).1.length, ∃ g ∈ (compact rows groups).2, j ∈ g) ∧
      (compact rows groups).2.map (·.map ((compact rows groups).1[·]?)) =
        groups.map (·.map (rows[·]?)) := by
  obtain ⟨hlt, hsame, -, -⟩ := compact_lookup rows groups hvalid
  refine ⟨compact_fst rows groups, hlt, compact_covered rows groups, ?_⟩
  calc (compact rows groups).2.map (·.map ((compact rows groups).1[·]?))
      = ((compact rows groups).2.map (·.map ((compact rows groups).1.getD · []))).map
          (·.map some) := by
        rw [List.map_map]
        exact List.map_congr_left fun g hg => by rw [Function.comp_apply, map_getElem?_eq (hlt g hg)]
    _ = (groups.map (·.map (rows.getD · []))).map (·.map some) := by rw [hsame]
    _ = groups.map (·.map (rows[·]?)) := by
        rw [List.map_map]
        exact List.map_congr_left fun g hg => by rw [Function.comp_apply, map_getElem?_eq (hvalid g hg)]

/-! ## The groups of a read node -/

/-- The groups of a read node fit the rows of the parent it was read against: one group per
parent row, each naming rows in increasing order, every row named by some group, and at most
one row per group for a one-to-one link. -/
structure Fits (parents : List Document) (card : Cardinality) (f : Fetched) : Prop where
  length_groups : f.groups.length = parents.length
  increasing : ∀ g ∈ f.groups, g.Pairwise (· < ·)
  lt_length : ∀ g ∈ f.groups, ∀ i ∈ g, i < f.rows.length
  covered : ∀ i < f.rows.length, ∃ g ∈ f.groups, i ∈ g
  atMostOne : card = .one → ∀ g ∈ f.groups, g.length ≤ 1

/-- Compacting rows split back per parent gives groups that fit the parents. -/
theorem fits_compact {policy : OneToOnePolicy} {relation : Option String} {link : Link}
    {options : FindOptions} {parents rows : List Document} {groups : List (List Nat)}
    (h : partition policy relation link options parents rows = .ok groups) (node : GraphNode) :
    Fits parents link.cardinality
      ⟨node, relation, (compact rows groups).1, (compact rows groups).2⟩ := by
  obtain ⟨hlen, hgroups⟩ := partition_ok h
  have hvalid : ∀ g ∈ groups, ∀ i ∈ g, i < rows.length := fun g hg => (hgroups g hg).2.1
  refine ⟨by rw [compact_eq, List.length_map, hlen], compact_increasing hvalid
    (fun g hg => (hgroups g hg).1), (compact_keeps_referenced rows groups hvalid).2.1,
    compact_covered rows groups, fun hone g hg => ?_⟩
  rw [compact_eq] at hg
  obtain ⟨g₀, hg₀, rfl⟩ := List.mem_map.mp hg
  rw [List.length_map]
  exact (hgroups g₀ hg₀).2.2 hone

/-- Groups that fit the parent rows pair every parent row with its own group: attaching the
child gives each row the child rows its group names, none of them out of range. -/
theorem Fits.attachChild_eq {parents : List Document} {card : Cardinality} {f : Fetched}
    (h : f.Fits parents card) (relation : String) {rows : List Document}
    (hrows : rows.length = parents.length) :
    attachChild relation card f.rows rows f.groups = List.zipWith
      (fun g row => GraphNode.attach relation card (g.map (f.rows.getD · [])) row) f.groups rows :=
  Fetched.attachChild_eq relation card h.lt_length (h.length_groups.trans hrows.symm)

end Fetched

namespace FetchTask

variable {read : Reader} {policy : OneToOnePolicy}

/-- A task read against a parent's rows yields groups that fit those rows. -/
theorem run_fits {t : FetchTask} {link : Link} {parents : List Document}
    (hl : t.node.link = some link) (hp : t.parents = some parents) {f : Fetched}
    (h : (t.run read policy).2 = .ok f) : f.Fits parents link.cardinality := by
  rw [run_snd_child hl hp] at h
  obtain ⟨rows, -, hrows⟩ := Except.bind_eq_ok.mp h
  obtain ⟨groups, hpart, rfl⟩ := Except.map_eq_ok.mp hrows
  exact Fetched.fits_compact hpart t.node

end FetchTask

namespace GraphNode

variable {read : Reader} {policy : OneToOnePolicy}

/-- A read of a graph that succeeds read every node once, and every node below the root, read
against the rows its parent kept, came back with groups that fit those rows: the entries below
the root pair up, in reading order, with the children of the entries read, each with its
parent's entry. -/
theorem fetch_groups_fit {root : GraphNode} {rows : List Document}
    (h : (root.fetch read policy).2 = .ok rows) :
    ∃ done, List.Forall₂ (FetchTask.Done read policy)
        (FetchTask.schedule [⟨root, none, none⟩] done) done ∧
      List.Forall₂ (fun (pc : Fetched × (String × GraphNode)) f => f.node = pc.2.2 ∧
          ∀ link, pc.2.2.link = some link → f.Fits pc.1.rows link.cardinality)
        (done.flatMap fun p => p.node.children.map (p, ·)) done.tail := by
  obtain ⟨done, hdone, -, -⟩ := fetch_reads_ok h
  refine ⟨done, hdone, ?_⟩
  -- the schedule is the root's task followed by the child tasks of the entries read
  have htasks : done.flatMap Fetched.childTasks =
      (done.flatMap fun p => p.node.children.map (p, ·)).map
        fun pc => (⟨pc.2.2, some pc.2.1, some pc.1.rows⟩ : FetchTask) := by
    simp only [List.map_flatMap, List.map_map]
    rfl
  rw [FetchTask.schedule, List.singleton_append] at hdone
  cases hdone with
  | cons _ hrest =>
    rw [htasks, List.forall₂_map_left_iff] at hrest
    refine hrest.imp fun pc f hf => ⟨hf.node_eq, fun link hl => ?_⟩
    exact FetchTask.run_fits hl rfl hf

/-- In a read of a graph that succeeds, every node below the root carries groups that fit its
parent's rows; compacting keeps exactly the rows named, renumbered; so attaching a child pairs
every parent row with its own group and looks up only rows in range. -/
theorem fetch_groups_fit_parents :
    (∀ (root : GraphNode) (read : Reader) (policy : OneToOnePolicy) rows,
      (root.fetch read policy).2 = .ok rows →
      ∃ done, List.Forall₂ (FetchTask.Done read policy)
          (FetchTask.schedule [⟨root, none, none⟩] done) done ∧
        List.Forall₂ (fun (pc : Fetched × (String × GraphNode)) f => f.node = pc.2.2 ∧
            ∀ link, pc.2.2.link = some link → f.Fits pc.1.rows link.cardinality)
          (done.flatMap fun p => p.node.children.map (p, ·)) done.tail) ∧
    (∀ (rows : List Document) (groups : List (List Nat)),
      (∀ g ∈ groups, ∀ i ∈ g, i < rows.length) →
      (Fetched.compact rows groups).1 =
          (rows.zipIdx.filter fun e => groups.any (·.contains e.2)).map (·.1) ∧
        (∀ g ∈ (Fetched.compact rows groups).2, ∀ j ∈ g,
          j < (Fetched.compact rows groups).1.length) ∧
        (∀ j < (Fetched.compact rows groups).1.length,
          ∃ g ∈ (Fetched.compact rows groups).2, j ∈ g) ∧
        (Fetched.compact rows groups).2.map (·.map ((Fetched.compact rows groups).1[·]?)) =
          groups.map (·.map (rows[·]?))) ∧
    (∀ (parents : List Document) (card : Cardinality) (f : Fetched), f.Fits parents card →
      ∀ (relation : String) (rows : List Document), rows.length = parents.length →
        Fetched.attachChild relation card f.rows rows f.groups = List.zipWith
          (fun g row => attach relation card (g.map (f.rows.getD · [])) row) f.groups rows) :=
  ⟨fun _ _ _ _ h => fetch_groups_fit h, Fetched.compact_keeps_referenced,
    fun _ _ _ h relation _ hrows => h.attachChild_eq relation hrows⟩

/-- Three rows `a`, `b`, `c` kept by the groups `[2]`, `[0, 2]` and `[]`: `b` is dropped and the
groups are renumbered onto `a` and `c`. -/
theorem compact_drops_unnamed_row :
    let rows : List Document := [[("_id", .str "a")], [("_id", .str "b")], [("_id", .str "c")]]
    let groups : List (List Nat) := [[2], [0, 2], []]
    (∀ g ∈ groups, ∀ i ∈ g, i < rows.length) ∧
      (Fetched.compact rows groups).1 =
          (rows.zipIdx.filter fun e => groups.any (·.contains e.2)).map (·.1) ∧
        (∀ g ∈ (Fetched.compact rows groups).2, ∀ j ∈ g,
          j < (Fetched.compact rows groups).1.length) ∧
        (∀ j < (Fetched.compact rows groups).1.length,
          ∃ g ∈ (Fetched.compact rows groups).2, j ∈ g) ∧
        (Fetched.compact rows groups).2.map (·.map ((Fetched.compact rows groups).1[·]?)) =
          groups.map (·.map (rows[·]?)) :=
  ⟨by decide, fetch_groups_fit_parents.2.1 _ _ (by decide)⟩

example : Fetched.compact [[("_id", .str "a")], [("_id", .str "b")], [("_id", .str "c")]]
    [[2], [0, 2], []] = ([[("_id", .str "a")], [("_id", .str "c")]], [[1], [0, 1], []]) := rfl

end GraphNode

end DocQuery
