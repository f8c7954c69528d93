import DocQuery.Proofs.PerParent

/-!
# One read for all parents, split back per parent

A child node reads once for all parent rows of its level and hands each parent its rows through
a key index. Where key texts decide equality as the selector does, each parent gets the rows of
its own read after its skip and limit (`GraphNode.window_eq_ownRows`), the split fails exactly
when some parent's own rows fail the one-to-one check (`GraphNode.agree_partition`), and
compacting keeps the rows each group points to (`Fetched.compact_lookup`).
-/

namespace DocQuery

/-- Resolving the rows at some positions one by one against resolving all rows first: both
succeed when every row is looked up somewhere, and then the results are looked up alike. -/
theorem agree_mapM_lookup {h : Document → Except Error Document} {D : List Document}
    {G : List (List Nat)} (hvalid : ∀ g ∈ G, ∀ i ∈ g, i < D.length)
    (hcover : ∀ x ∈ D, ∃ g ∈ G, ∃ i ∈ g, D.getD i [] = x) :
    Except.Agree (fun A GG => A.length = D.length ∧ GG = G.map (·.map (A.getD · [])))
      (D.mapM h) ((G.map (·.map (D.getD · []))).mapM (·.mapM h)) := by
  cases hD : D.mapM h with
  | ok A =>
    have hF := mapM_eq_ok_iff.mp hD
    have hlen := hF.length_eq
    have hlookup : ∀ i, i < D.length → h (D.getD i []) = .ok (A.getD i []) := by
      intro i hi
      rw [getD_eq_of_lt hi, getD_eq_of_lt (hlen ▸ hi)]
      exact hF.get hi (hlen ▸ hi)
    have hgroups : (G.map (·.map (D.getD · []))).mapM (·.mapM h) =
        .ok (G.map (·.map (A.getD · []))) := by
      refine mapM_eq_ok_iff.mpr (List.forall₂_map_left_iff.mpr
        (List.forall₂_map_right_iff.mpr (List.forall₂_same.mpr fun g hg => ?_)))
      refine mapM_eq_ok_iff.mpr (List.forall₂_map_left_iff.mpr
        (List.forall₂_map_right_iff.mpr (List.forall₂_same.mpr fun i hi => ?_)))
      exact hlookup i (hvalid g hg i hi)
    rw [hgroups]
    exact ⟨hlen.symm, rfl⟩
  | error e =>
    -- The row that fails is looked up in some group, so the groups fail too.
    obtain ⟨before, x, after, hsplit, -, hx⟩ := mapM_eq_error hD
    obtain ⟨g, hg, i, hi, hxi⟩ := hcover x (by rw [hsplit]; simp)
    cases hGG : (G.map (·.map (D.getD · []))).mapM (·.mapM h) with
    | error e' => exact trivial
    | ok GG =>
      obtain ⟨rows, -, hrows⟩ := forall₂_exists_of_mem_left (mapM_eq_ok_iff.mp hGG)
        (List.mem_map_of_mem hg)
      obtain ⟨y, -, hy⟩ := forall₂_exists_of_mem_left (mapM_eq_ok_iff.mp hrows)
        (List.mem_map_of_mem hi)
      rw [hxi, hx] at hy
      cases hy

namespace Document

theorem field?_idField (d : Document) : d.field? idField = Object.get? d idField := by
  unfold field?
  rw [splitOn_idField]
  show (Object.get? d idField).bind (fun v => getKeys? v []) = _
  cases Object.get? d idField <;> rfl

end Document

namespace GraphNode

theorem mem_addField_self (fields : List String) (f : String) : f ∈ addField fields f := by
  unfold addField
  split
  · rename_i h
    simpa using h
  · simp

/-- The fields a projecting node reads before its children's keys: the requested ones, `_id`
and the key its rows hold for its parent. -/
def baseFields (n : GraphNode) (requested : List String) : List String :=
  let fs := addField requested Document.idField
  match n.link.bind Link.childField? with
  | some f => addField fs f
  | none => fs

/-- Adds the key field that a child's parent holds, if any. -/
def addParentField (fs : List String) (c : String × GraphNode) : List String :=
  match c.2.link.bind Link.parentField? with
  | some f => addField fs f
  | none => fs

theorem fetchFields_eq (n : GraphNode) :
    n.fetchFields = n.options.fields.map fun requested =>
      n.children.foldl addParentField (n.baseFields requested) := rfl

theorem mem_baseFields {n : GraphNode} {requested : List String} {f : String}
    (hf : f ∈ requested ∨ f = Document.idField ∨ n.link.bind Link.childField? = some f) :
    f ∈ n.baseFields requested := by
  unfold baseFields
  cases hc : n.link.bind Link.childField? with
  | none =>
    rcases hf with hf | rfl | hf
    · exact mem_addField hf _
    · exact mem_addField_self _ _
    · simp [hc] at hf
  | some g =>
    rcases hf with hf | rfl | hf
    · exact mem_addField (mem_addField hf _) _
    · exact mem_addField (mem_addField_self _ _) _
    · rw [hc, Option.some.injEq] at hf
      subst hf
      exact mem_addField_self _ _

/-- Adding the children's keys one by one keeps the fields there and adds each child's key. -/
theorem mem_foldl_addParentField (cs : List (String × GraphNode)) (fs : List String) :
    (∀ f ∈ fs, f ∈ cs.foldl addParentField fs) ∧
      ∀ c ∈ cs, ∀ f, c.2.link.bind Link.parentField? = some f → f ∈ cs.foldl addParentField fs := by
  induction cs generalizing fs with
  | nil => simp
  | cons c rest ih =>
    obtain ⟨hk, ha⟩ := ih (addParentField fs c)
    have hkeep : ∀ f ∈ fs, f ∈ addParentField fs c := by
      intro f hf
      unfold addParentField
      split
      · exact mem_addField hf _
      · exact hf
    refine ⟨fun f hf => hk f (hkeep f hf), fun c' hc' f hf => ?_⟩
    rcases List.mem_cons.mp hc' with rfl | hc'
    · apply hk f
      simp only [addParentField, hf]
      exact mem_addField_self _ _
    · exact ha c' hc' f hf

/-- The fields a projecting node reads: its requested fields, `_id`, the key its rows hold for
its parent and the keys its children's parents hold. -/
theorem fetchFields_spec {n : GraphNode} {requested : List String}
    (h : n.options.fields = some requested) :
    ∃ fields, n.fetchFields = some fields ∧ (∀ f ∈ requested, f ∈ fields) ∧
      Document.idField ∈ fields ∧ (∀ f, n.link.bind Link.childField? = some f → f ∈ fields) ∧
      ∀ c ∈ n.children, ∀ f, c.2.link.bind Link.parentField? = some f → f ∈ fields := by
  obtain ⟨hk, ha⟩ := mem_foldl_addParentField n.children (n.baseFields requested)
  refine ⟨_, by rw [fetchFields_eq, h]; rfl, fun f hf => hk f (mem_baseFields (.inl hf)),
    hk _ (mem_baseFields (.inr (.inl rfl))), fun f hf => hk f (mem_baseFields (.inr (.inr hf))),
    ha⟩

theorem fetchFields_of_fields_none {n : GraphNode} (h : n.options.fields = none) :
    n.fetchFields = none := by
  simp [fetchFields, h]

section Cut

variable {n : GraphNode} {d : Document} (hd : Json.KeysDistinct (.obj d))
include hd

/-- Cutting a row read with its node's fetch fields down to the requested fields cuts the
whole document down to them. -/
theorem cut_cut_fetchFields : (d.cut n.fetchFields).cut n.options.fields = d.cut n.options.fields := by
  cases h : n.options.fields with
  | none => simp [fetchFields_of_fields_none h, Document.cut]
  | some requested =>
    obtain ⟨fields, hff, hreq, -⟩ := fetchFields_spec h
    simp only [Document.cut, hff]
    exact Document.project_project hd hreq

theorem field?_cut_fetchFields {f : String} (hf : ∀ fields, n.fetchFields = some fields →
    f ∈ Document.idField :: fields) : (d.cut n.fetchFields).field? f = d.field? f := by
  cases h : n.fetchFields with
  | none => rfl
  | some fields => exact Document.field?_project hd (hf fields h)

/-- A row read with its node's fetch fields offers every child the key the whole document
offers. -/
theorem parentKey?_cut_fetchFields {c : String × GraphNode} (hc : c ∈ n.children) {link : Link}
    (hl : c.2.link = some link) : link.parentKey? (d.cut n.fetchFields) = link.parentKey? d := by
  have hid := field?_cut_fetchFields (n := n) hd (f := Document.idField) fun _ _ =>
    List.mem_cons_self
  unfold Link.parentKey?
  cases hk : link.kind with
  | childHoldsKey =>
    simpa only [Document.field?_idField] using hid
  | parentHoldsKey | manyToMany =>
    refine field?_cut_fetchFields hd fun fields hff => List.mem_cons_of_mem _ ?_
    cases hfields : n.options.fields with
    | none => simp [fetchFields_of_fields_none hfields] at hff
    | some requested =>
      obtain ⟨fields', hff', -, -, -, hpar⟩ := fetchFields_spec hfields
      rw [hff] at hff'
      cases hff'
      exact hpar c hc link.field (by simp [hl, Link.parentField?, hk])

/-- A row read with its node's fetch fields holds at the field its parents join on what the
whole document holds there. -/
theorem heldValues_cut_fetchFields {link : Link} (hl : n.link = some link) :
    KeyIndex.heldValues (d.cut n.fetchFields) link.matchField =
      KeyIndex.heldValues d link.matchField := by
  have hfield : (d.cut n.fetchFields).field? link.matchField = d.field? link.matchField := by
    refine field?_cut_fetchFields hd fun fields hff => ?_
    cases hfields : n.options.fields with
    | none => simp [fetchFields_of_fields_none hfields] at hff
    | some requested =>
      obtain ⟨fields', hff', -, -, hchild, -⟩ := fetchFields_spec hfields
      rw [hff] at hff'
      cases hff'
      unfold Link.matchField
      cases hk : link.kind with
      | parentHoldsKey | manyToMany => exact List.mem_cons_self
      | childHoldsKey =>
        exact List.mem_cons_of_mem _ (hchild link.field (by simp [hl, Link.childField?, hk]))
  simp only [KeyIndex.heldValues, hfield]

end Cut

end GraphNode

namespace GraphNode

section KeepOne

variable {policy : OneToOnePolicy} {α β : Type} {relation : String} {link : Link}

theorem keepOne_map (f : α → β) (l : List α) :
    (keepOne policy relation link l).map (List.map f) = keepOne policy relation link (l.map f) := by
  unfold keepOne
  rw [List.length_map]
  split
  · cases policy <;> simp [Except.map, List.map_take]
  · rfl

theorem mem_of_keepOne {l g : List α} (h : keepOne policy relation link l = .ok g) :
    ∀ x ∈ g, x ∈ l := by
  unfold keepOne at h
  split at h
  · cases policy with
    | reject => cases h
    | firstBySort =>
      cases h
      exact fun x hx => List.mem_of_mem_take hx
  · cases h
    exact fun x hx => hx

end KeepOne

end GraphNode

namespace Fetched

/-- The positions an index gives a parent: those matching its key, if it offers one, after the
skip and the limit. -/
theorem window_eq_page (ix : KeyIndex) (link : Link) (options : FindOptions) (p : Document) :
    window ix link options p = options.page ((link.parentKey? p).elim [] ix.matching) := by
  unfold window FindOptions.page
  cases link.parentKey? p <;> rfl

/-- Splitting rows back per parent is the one-to-one check on each parent's positions. -/
theorem partition_eq (policy : OneToOnePolicy) (relation : Option String) (link : Link)
    (options : FindOptions) (parents rows : List Document) :
    partition policy relation link options parents rows = parents.mapM fun p =>
      GraphNode.keepOne policy (relation.getD "") link
        (window (KeyIndex.build rows link.matchField) link options p) := rfl

/-- Dropping the rows that no group keeps is the same for rows and for their images. -/
theorem compact_map (rows : List Document) (f : Document → Document) (groups : List (List Nat)) :
    compact (rows.map f) groups = ((compact rows groups).1.map f, (compact rows groups).2) := by
  simp [compact, List.map_filterMap]

/-- Dropping the rows that no group keeps: the renumbered groups point to kept rows, and to the
rows they pointed to before; every kept row is in some group and is one of the rows. -/
theorem compact_lookup (rows : List Document) (groups : List (List Nat))
    (hvalid : ∀ g ∈ groups, ∀ i ∈ g, i < rows.length) :
    (∀ g ∈ (compact rows groups).2, ∀ j ∈ g, j < (compact rows groups).1.length) ∧
      (compact rows groups).2.map (·.map ((compact rows groups).1.getD · [])) =
        groups.map (·.map (rows.getD · [])) ∧
      (∀ x ∈ (compact rows groups).1,
        ∃ g ∈ (compact rows groups).2, ∃ j ∈ g, (compact rows groups).1.getD j [] = x) ∧
      ∀ x ∈ (compact rows groups).1, x ∈ rows := by
  let kept := (List.range rows.length).filter fun i => groups.any (·.contains i)
  have hkept : ∀ i ∈ kept, i < rows.length := fun i hi =>
    List.mem_range.mp (List.mem_of_mem_filter hi)
  have hrows : (compact rows groups).1 = kept.map (rows.getD · []) :=
    filterMap_getElem?_eq_map_getD hkept []
  have hgroups : (compact rows groups).2 = groups.map (·.map kept.idxOf) := rfl
  have hin : ∀ g ∈ groups, ∀ i ∈ g, i ∈ kept := fun g hg i hi => by
    simp only [kept, List.mem_filter, List.mem_range, List.any_eq_true, List.contains_iff_mem]
    exact ⟨hvalid g hg i hi, g, hg, by simpa using hi⟩
  have hidx : ∀ i ∈ kept, kept.idxOf i < kept.length := fun i hi => List.idxOf_lt_length_of_mem hi
  -- A kept position is found again at its index among the kept positions.
  have hback : ∀ i ∈ kept, (compact rows groups).1.getD (kept.idxOf i) [] = rows.getD i [] := by
    intro i hi
    have hlt : kept.idxOf i < (kept.map (rows.getD · [])).length := by simpa using hidx i hi
    rw [hrows, getD_eq_of_lt hlt]
    simp [List.getElem_idxOf (hidx i hi)]
  refine ⟨?_, ?_, ?_, ?_⟩
  · intro g hg j hj
    rw [hgroups] at hg
    obtain ⟨g₀, hg₀, rfl⟩ := List.mem_map.mp hg
    obtain ⟨i, hi, rfl⟩ := List.mem_map.mp hj
    rw [hrows, List.length_map]
    exact hidx i (hin g₀ hg₀ i hi)
  · rw [hgroups, List.map_map]
    refine List.map_congr_left fun g hg => ?_
    simp only [Function.comp, List.map_map]
    exact List.map_congr_left fun i hi => hback i (hin g hg i hi)
  · intro x hx
    rw [hrows] at hx
    obtain ⟨i, hi, rfl⟩ := List.mem_map.mp hx
    obtain ⟨g, hg, hig⟩ := List.any_eq_true.mp (List.mem_filter.mp hi).2
    refine ⟨g.map kept.idxOf, by rw [hgroups]; exact List.mem_map_of_mem hg, kept.idxOf i,
      List.mem_map_of_mem (by simpa using hig), ?_⟩
    rw [hback i hi]
  · intro x hx
    rw [hrows] at hx
    obtain ⟨i, hi, rfl⟩ := List.mem_map.mp hx
    rw [getD_eq_of_lt (hkept i hi)]
    exact List.get_mem _ _

end Fetched

namespace Link

/-- On the documents of a store, joining on key texts decides what the selector decides: the
field a link matches on is no combining key, and for every key value that a parent document
offers, a child document equals it exactly when it holds a value with the same key text. -/
def KeyTextsAgree (store : MemoryStore) (parentCollection childCollection : String)
    (link : Link) : Prop :=
  link.matchField ∉ ["$and", "$or", "$nor"] ∧
    ∀ p ∈ store.docs parentCollection, ∀ k, link.parentKey? p = some k →
      ∀ v ∈ Json.offered k, v.key?.isSome →
        ∀ d ∈ store.docs childCollection,
          Selector.fieldEquals (d.field? link.matchField) v =
            (KeyIndex.heldValues d link.matchField).any (·.key? == v.key?)

end Link

theorem any_congr_of_mem {α : Type} {p q : α → Bool} {l : List α} (h : ∀ x ∈ l, p x = q x) :
    l.any p = l.any q := by
  induction l with
  | nil => rfl
  | cons x xs ih =>
    simp only [List.any_cons, h x List.mem_cons_self,
      ih fun y hy => h y (List.mem_cons_of_mem _ hy)]

namespace KeyIndex

/-- An index over rows changed in a way that keeps what they hold at the field matches the
positions of the original rows. -/
theorem matching_build_map {rows : List Document} {f : Document → Document} {field : String}
    (hf : ∀ r ∈ rows, heldValues (f r) field = heldValues r field) (key : Json) :
    (build (rows.map f) field).matching key =
      (rows.zipIdx.filter fun e => Meets field key e.1).map (·.2) := by
  rw [matching_build, List.zipIdx_map, List.filter_map, List.map_map]
  have hfilter : (rows.zipIdx.filter ((fun e => Meets field key e.1) ∘ Prod.map f id)) =
      rows.zipIdx.filter fun e => Meets field key e.1 := by
    refine List.filter_congr fun e he => ?_
    have hmem : e.1 ∈ rows := List.mem_of_getElem? (List.mem_zipIdx_iff_getElem?.mp he)
    simp only [Function.comp, Prod.map, Meets, hf e.1 hmem]
  rw [hfilter]
  rfl

end KeyIndex

namespace GraphNode

variable {store : MemoryStore} {policy : OneToOnePolicy}

section Join

variable {parentCollection : String} {c : GraphNode} {link : Link} {parents : List Document}
  (hagree : link.KeyTextsAgree store parentCollection c.collection)
  (hparents : ∀ p ∈ parents, ∃ d ∈ store.docs parentCollection, link.parentKey? p = link.parentKey? d)
include hagree hparents

/-- A child document meets the selector of its level's batch when it meets the node's own
selector and is joined to one of the parents. -/
theorem satisfies_ofParents (own : Document) {d : Document} (hd : d ∈ store.docs c.collection) :
    d.satisfies ((Batch.ofParents link parents).selector own) =
      (d.satisfies own && parents.any (link.Joins · d)) := by
  have hfield : (Batch.ofParents link parents).field = link.matchField := Batch.ofParents_field _ _
  have hfaith : ∀ v ∈ (parents.filterMap link.parentKey?).flatMap Json.offered, v.key?.isSome →
      Selector.fieldEquals (d.field? link.matchField) v =
        (KeyIndex.heldValues d link.matchField).any (·.key? == v.key?) := by
    intro v hv hsome
    obtain ⟨k, hk, hvk⟩ := List.mem_flatMap.mp hv
    obtain ⟨p, hp, hpk⟩ := List.mem_filterMap.mp hk
    obtain ⟨dp, hdp, hkey⟩ := hparents p hp
    exact hagree.2 dp hdp k (hkey ▸ hpk) v hvk hsome d hd
  rw [Batch.satisfies_selector _ _ _ (by rw [hfield]; exact hagree.1), hfield,
    Batch.any_keys_ofParents link parents fun v hv w hw hsome hvw => by
      rw [hfaith v hv hsome, hfaith w hw (hvw ▸ hsome), hvw],
    Link.any_joins]
  congr 1
  refine any_congr_of_mem fun v hv => ?_
  cases hsome : v.key?.isSome
  · rfl
  · simp [hfaith v hv hsome]

/-- The documents a level's batched read of a child node returns, whole: those meeting the
batch's selector, in the child's sort. -/
def batchDocs (store : MemoryStore) (c : GraphNode) (link : Link) (parents : List Document) :
    List Document :=
  Document.sortAll c.options.sort
    ((store.docs c.collection).filter (·.satisfies ((Batch.ofParents link parents).selector c.selector)))

omit hagree hparents in
theorem mem_batchDocs {d : Document} (h : d ∈ batchDocs store c link parents) :
    d ∈ store.docs c.collection :=
  (List.mem_filter.mp (Document.mem_sortAll.mp h)).1

omit hagree hparents in
/-- A batched read returns the batch's documents cut to the node's fetch fields. -/
theorem find_request_child {relation : String} (hl : c.link = some link) :
    store.find (FetchTask.request ⟨c, some relation, some parents⟩) =
      (batchDocs store c link parents).map (Document.cut c.fetchFields) := by
  simp [FetchTask.request, hl, MemoryStore.find_eq, FindOptions.page, batchDocs]

omit hagree hparents in
theorem ownRows_eq (p : Document) :
    ownRows store c link p = c.options.page (Document.sortAll c.options.sort
      ((store.docs c.collection).filter (·.satisfies ((Batch.ofParents link [p]).selector c.selector)))) := by
  simp [ownRows, MemoryStore.find_eq, FindOptions.page]

/-- The rows an index over a batched read gives a parent are, whole, the rows of the parent's
own read. -/
theorem window_eq_ownRows (hl : c.link = some link)
    (hdistinct : ∀ d ∈ store.docs c.collection, Json.KeysDistinct (.obj d)) {p : Document}
    (hp : p ∈ parents) :
    (Fetched.window (KeyIndex.build ((batchDocs store c link parents).map
      (Document.cut c.fetchFields)) link.matchField) link c.options p).map
        ((batchDocs store c link parents).getD · []) = ownRows store c link p := by
  have hsingle : ∀ d ∈ store.docs c.collection,
      d.satisfies ((Batch.ofParents link [p]).selector c.selector) =
        (d.satisfies c.selector && link.Joins p d) := by
    intro d hd
    have hone : ∀ q ∈ [p], ∃ d ∈ store.docs parentCollection, link.parentKey? q = link.parentKey? d :=
      fun q hq => hparents q (by rw [List.mem_singleton.mp hq]; exact hp)
    simpa using satisfies_ofParents hagree hone c.selector hd
  rw [Fetched.window_eq_page, FindOptions.map_page, ownRows_eq]
  congr 1
  cases hk : link.parentKey? p with
  | none =>
    -- A parent without a key is joined to no document.
    have hnone : (store.docs c.collection).filter
        (·.satisfies ((Batch.ofParents link [p]).selector c.selector)) = [] :=
      List.filter_eq_nil_iff.mpr fun d hd => by simp [hsingle d hd, Link.Joins, hk]
    simp [hnone, Document.sortAll]
  | some k =>
    have hheld : ∀ r ∈ batchDocs store c link parents, KeyIndex.heldValues
        (r.cut c.fetchFields) link.matchField = KeyIndex.heldValues r link.matchField :=
      fun r hr => heldValues_cut_fetchFields (hdistinct r (mem_batchDocs hr)) hl
    rw [Option.elim_some, KeyIndex.matching_build_map hheld, map_getD_filter_zipIdx, batchDocs,
      ← Document.sortAll_filter, List.filter_filter]
    congr 1
    refine List.filter_congr fun d hd => ?_
    -- Joined to this parent, a document is joined to one of the level's parents.
    rw [satisfies_ofParents hagree hparents c.selector hd, hsingle d hd]
    have hjoins : link.Joins p d = KeyIndex.Meets link.matchField k d := by
      simp [Link.Joins, hk]
    cases hmeet : KeyIndex.Meets link.matchField k d
    · simp [hjoins, hmeet]
    · have hany : parents.any (link.Joins · d) = true :=
        List.any_eq_true.mpr ⟨p, hp, hjoins.trans hmeet⟩
      simp [hjoins, hmeet, hany]

omit hagree hparents in
theorem lt_of_mem_window {rows : List Document} {options : FindOptions} {p : Document} {i : Nat}
    (h : i ∈ Fetched.window (KeyIndex.build rows link.matchField) link options p) :
    i < rows.length := by
  rw [Fetched.window_eq_page] at h
  have h := FindOptions.mem_of_mem_page h
  cases hk : link.parentKey? p with
  | none => simp [hk] at h
  | some k =>
    rw [hk, Option.elim_some] at h
    exact KeyIndex.lt_of_mem_matching h

/-- Splitting the batched read back per parent fails exactly when some parent's own rows fail
the one-to-one check; otherwise each parent keeps positions of the batch's documents that give
the rows it keeps of its own read. -/
theorem agree_partition (hl : c.link = some link)
    (hdistinct : ∀ d ∈ store.docs c.collection, Json.KeysDistinct (.obj d)) (relation : String) :
    Except.Agree (List.Forall₂ fun g rows =>
        (∀ i ∈ g, i < (batchDocs store c link parents).length) ∧
          g.map ((batchDocs store c link parents).getD · []) = rows)
      (Fetched.partition policy (some relation) link c.options parents
        ((batchDocs store c link parents).map (Document.cut c.fetchFields)))
      (parents.mapM fun p => keepOne policy relation link (ownRows store c link p)) := by
  rw [Fetched.partition_eq, Option.getD_some]
  refine Except.Agree.mapM fun p hp => ?_
  rw [← window_eq_ownRows hagree hparents hl hdistinct hp, ← keepOne_map]
  cases hkeep : keepOne policy relation link (Fetched.window (KeyIndex.build
      ((batchDocs store c link parents).map (Document.cut c.fetchFields)) link.matchField)
      link c.options p) with
  | error e => exact trivial
  | ok g =>
    refine ⟨fun i hi => ?_, rfl⟩
    simpa using lt_of_mem_window (mem_of_keepOne hkeep i hi)

end Join

end GraphNode

end DocQuery
