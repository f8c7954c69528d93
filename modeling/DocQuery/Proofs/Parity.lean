import DocQuery.Proofs.Projection
import DocQuery.Proofs.WireForm
import DocQuery.Client.Query
import DocQuery.Store.Memory

/-!
# One remote read and a subscribed read agree

Without a subscription a query sends its resolved body in one remote call; with one, the same
body is compiled and read from the local store the subscription filled. For a body without
relations, over documents with distinct ids inserted in order, both give the rows a server
serves: the body reads back from its JSON, both sides sort and skip before the limit, and the
local read fetches `_id` only to cut it away. Without the skip allowed they agree on bodies with
no skip.
-/

namespace DocQuery

/-! ## Bodies without relations -/

namespace ConcreteBody

/-- A body without relations reads back from its JSON form. -/
theorem read_toJson_of_relations_nil {c : ConcreteBody} (h : c.relations = []) :
    read c.toJson = .ok c := by
  apply read_toJson
  rw [namesSorted_iff, h]
  exact ⟨.nil, trivial⟩

/-- A body without relations compiles to a single node. -/
theorem compile_of_relations_nil {c : ConcreteBody} (h : c.relations = []) (collection : String)
    (links : Links) (config : Config) :
    c.compile collection links config = .ok ⟨collection, c.selector, c.options, none, []⟩ := by
  obtain ⟨selector, options, relations⟩ := c
  cases h
  unfold compile compileNode
  cases config.maxDepth <;> simp [compileChildren, Except.map]

end ConcreteBody

namespace QueryBody

/-- A body without relations resolves to one without relations. -/
theorem resolve_relations_nil {b : QueryBody} {params : Params} {c : ConcreteBody}
    (hb : b.relations = []) (h : b.resolve params = .ok c) : c.relations = [] := by
  obtain ⟨c₀, hc₀, hrel⟩ := resolve_relations h
  obtain ⟨sel, options, rels, -, -, hrels, rfl⟩ := resolveLevel_eq_ok.mp hc₀
  rw [hb] at hrels
  cases hrels
  exact hrel

end QueryBody

/-! ## The store holds the documents inserted -/

namespace MemoryStore

theorem upsert_of_fresh {id : Json} {doc : Document} {docs : List Document}
    (h : ∀ d ∈ docs, hasId d id = false) : upsert id doc docs = docs ++ [doc] := by
  induction docs with
  | nil => rfl
  | cons d rest ih =>
    simp only [upsert, h d List.mem_cons_self, Bool.false_eq_true, if_false, List.cons_append]
    rw [ih fun d' hd' => h d' (List.mem_cons_of_mem d hd')]

theorem docs_insert_self (s : MemoryStore) (collection : String) (docs : List Document) :
    ({ s with collections := Keyed.insert collection docs s.collections } : MemoryStore).docs
      collection = docs := by
  simp [MemoryStore.docs, Keyed.get?_insert_self]

/-- Documents with ids, none equal to an id already held or inserted before it, are appended
in order, and every insert succeeds. -/
theorem insertMany_of_fresh {s : MemoryStore} {mint : Nat → Json} {collection : String}
    {docs : List Document} (hid : ∀ d ∈ docs, (Object.get? d Document.idField).isSome)
    (hheld : ∀ d ∈ docs, ∀ x, Object.get? d Document.idField = some x →
      ∀ p ∈ s.docs collection, hasId p x = false)
    (hdistinct : docs.Pairwise fun a b =>
      ∀ x, Object.get? b Document.idField = some x → hasId a x = false) :
    (s.insertMany mint collection (docs.map .obj)).2 = none ∧
      (s.insertMany mint collection (docs.map .obj)).1.docs collection = s.docs collection ++ docs := by
  induction docs generalizing s with
  | nil => simp [insertMany]
  | cons d rest ih =>
    obtain ⟨x, hx⟩ := Option.isSome_iff_exists.mp (hid d List.mem_cons_self)
    have hins : s.insert mint collection (.obj d) =
        .ok ({ s with
          collections := (Keyed.insert collection (s.docs collection ++ [d]) s.collections) }, x) := by
      simp only [insert, hx, upsert_of_fresh (hheld d List.mem_cons_self x hx)]
    simp only [List.map_cons, insertMany, hins]
    -- the documents held now end with `d`, whose id the later ones do not repeat
    have hrest := @ih { s with
      collections := (Keyed.insert collection (s.docs collection ++ [d]) s.collections) } (fun d' hd' => hid d' (List.mem_cons_of_mem d hd'))
      (fun d' hd' x' hx' p hp => by
        rw [docs_insert_self] at hp
        rcases List.mem_append.mp hp with hp | hp
        · exact hheld d' (List.mem_cons_of_mem d hd') x' hx' p hp
        · rw [List.mem_singleton.mp hp]
          exact List.rel_of_pairwise_cons hdistinct hd' x' hx')
      (List.Pairwise.of_cons hdistinct)
    rw [docs_insert_self, List.append_assoc, List.singleton_append] at hrest
    exact hrest

end MemoryStore

/-! ## The two reads -/

namespace Document

theorem mem_sortAll {sort : List SortField} {docs : List Document} {d : Document} :
    d ∈ sortAll sort docs ↔ d ∈ docs := by
  unfold sortAll
  split
  · rfl
  · exact (List.mergeSort_perm docs _).mem_iff

end Document

namespace GraphNode

/-- A node without link or children reads its rows with its own options and returns them cut
down to the requested fields. -/
theorem fetch_leaf (n : GraphNode) (hl : n.link = none) (hc : n.children = [])
    (read : Reader) (policy : OneToOnePolicy) :
    n.fetch read policy =
      ([FetchTask.request ⟨n, none, none⟩], (read (FetchTask.request ⟨n, none, none⟩)).map
        fun rows => match n.options.fields with
          | some requested => rows.map (Document.project · requested)
          | none => rows) := by
  obtain ⟨collection, selector, options, link, children⟩ := n
  cases hl
  cases hc
  cases hread : read (FetchTask.request ⟨⟨collection, selector, options, none, []⟩, none, none⟩) <;>
    cases hf : options.fields <;>
    simp [fetch, nodeCount, childrenNodeCount, FetchTask.runLevels, FetchTask.runLevel,
      FetchTask.run, Fetched.assemble, Fetched.assembleLevel, Fetched.assembleWith, Except.map,
      hf, hread]

/-- A node without link or children reads `_id` besides its requested fields. -/
theorem fetchFields_leaf {n : GraphNode} (hl : n.link = none) (hc : n.children = []) :
    n.fetchFields = n.options.fields.map (addField · Document.idField) := by
  simp [fetchFields, hl, hc]

theorem mem_addField {fields : List String} {f : String} (h : f ∈ fields) (g : String) :
    f ∈ addField fields g := by
  unfold addField
  split
  · exact h
  · exact List.mem_append_left _ h

end GraphNode

namespace FetchTask

/-- The root reads its selector with its own options and its fetch fields. -/
theorem request_root (n : GraphNode) (relation : Option String) :
    FetchTask.request ⟨n, relation, none⟩ =
      ⟨n.collection, n.selector, { n.options with fields := n.fetchFields }⟩ := by
  unfold request
  dsimp only
  cases n.link <;> rfl

end FetchTask

namespace ConcreteBody

/-- The documents a server answers for a body: those matching its selector, in the order of its
sort, after its skip and then its limit, each cut down to its fields. -/
def served (body : ConcreteBody) (docs : List Document) : List Document :=
  let found := Document.sortAll body.options.sort (docs.filter (·.satisfies body.selector))
  let found := found.drop (body.options.skip.getD 0)
  let found := match body.options.limit with
    | some l => found.take l
    | none => found
  match body.options.fields with
  | some fields => found.map (Document.project · fields)
  | none => found

theorem applySkipPolicy_of_skip_none {c : ConcreteBody} (h : c.options.skip = none)
    (allowSkip : Bool) : c.applySkipPolicy allowSkip = c := by
  obtain ⟨selector, ⟨sort, limit, skip, fields⟩, relations⟩ := c
  cases h
  cases allowSkip <;> rfl

end ConcreteBody

namespace MethodSpec

/-- A remote method answering reads of documents the way a server would: it reads the body it
is sent and answers the documents the body asks for. A payload that is not a body is refused
with the code `400`. -/
def serveFind (docs : List Document) : MethodSpec :=
  .handle fun args =>
    match ConcreteBody.read args with
    | .error e => .error { error := "400", reason := some e.message }
    | .ok body => .ok (.arr ((body.served docs).map Json.obj))

end MethodSpec

namespace MemoryStore

/-- A store holding documents with distinct keys, read for `_id` besides the requested fields
and then cut down to them, answers what a server holding the documents answers. -/
theorem find_cut_eq_served {store : MemoryStore} {collection : String} {docs : List Document}
    (hdocs : store.docs collection = docs) (hkeys : ∀ d ∈ docs, Json.KeysDistinct (.obj d))
    (body : ConcreteBody) :
    (let rows := store.find ⟨collection, body.selector,
        { body.options with fields := body.options.fields.map (GraphNode.addField · Document.idField) }⟩;
      match body.options.fields with
      | some requested => rows.map (Document.project · requested)
      | none => rows) = body.served docs := by
  obtain ⟨selector, ⟨sort, limit, skip, fields⟩, relations⟩ := body
  simp only [find, ConcreteBody.served, hdocs]
  cases fields with
  | none => cases limit <;> rfl
  | some requested =>
    -- the rows read are documents of the store, whatever the sort, skip and limit
    have hsub : ∀ d ∈ (Document.sortAll sort (docs.filter (·.satisfies selector))).drop
        (skip.getD 0), d ∈ docs :=
      fun d hd => (List.mem_filter.mp (Document.mem_sortAll.mp (List.mem_of_mem_drop hd))).1
    have hcut : ∀ d ∈ docs, (d.project (GraphNode.addField requested Document.idField)).project
        requested = d.project requested :=
      fun d hd => Document.project_project (hkeys d hd)
        fun f hf => GraphNode.mem_addField hf Document.idField
    cases limit with
    | none =>
      simp only [Option.map_some, List.map_map]
      exact List.map_congr_left fun d hd => hcut d (hsub d hd)
    | some l =>
      simp only [Option.map_some, List.map_map]
      exact List.map_congr_left fun d hd => hcut d (hsub d (List.mem_of_mem_take hd))

end MemoryStore

namespace Request

theorem decodeRows_obj (rows : List Document) : decodeRows (.arr (rows.map Json.obj)) = .ok rows := by
  simp only [decodeRows, List.mapM_map]
  exact @mapM_read_comp Error Document _ Json.obj (fun _ => rfl) rows

end Request

namespace Query

/-- For an ad-hoc body without relations, over documents with distinct ids and keys inserted
into an empty collection, fetching before subscribing gives the rows a server serves, and after
subscribing the same rows, when the skip is allowed or the body has none. -/
theorem fetch_remote_agrees_with_subscribed {q : Query} {eng : Engine} {ch : Channel}
    {s : MemoryStore} {mint : Nat → Json} {docs : List Document} {c : ConcreteBody}
    (hkind : q.kind = .adHoc) (hrel : q.body.relations = []) (hfresh : q.subscription = none)
    (hres : q.body.resolve q.params = .ok c) (hempty : s.docs q.collection = [])
    (hid : ∀ d ∈ docs, (Object.get? d Document.idField).isSome)
    (hdistinct : docs.Pairwise fun a b =>
      ∀ x, Object.get? b Document.idField = some x → MemoryStore.hasId a x = false)
    (hkeys : ∀ d ∈ docs, Json.KeysDistinct (.obj d))
    (hserver : Keyed.get? ch.methods q.name = some (MethodSpec.serveFind docs)) :
    let store := (s.insertMany mint q.collection (docs.map .obj)).1
    let read : Reader := fun req => .ok (store.find req)
    let once := q.fetch eng read ch false none
    once.2.2 = .ok (c.served docs) ∧
      ∃ q' ch' h, q.subscribe once.1 = .ok (q', ch', h) ∧
        (q'.fetch eng read ch' true none).2.2 = .ok (c.served docs) ∧
        (c.options.skip = none → (q'.fetch eng read ch' false none).2.2 = .ok (c.served docs)) := by
  intro store read once
  have hstore : store.docs q.collection = docs := by
    have hins := @MemoryStore.insertMany_of_fresh s mint q.collection docs hid
      (fun _ _ _ _ p hp => by simp [hempty] at hp) hdistinct
    rw [hempty, List.nil_append] at hins
    exact hins.2
  have hcrel := QueryBody.resolve_relations_nil hrel hres
  have hpayload : (q.request q.params false).payload = .ok c.toJson := by
    simp [Request.payload, request, hkind, hres, Except.map]
  -- the remote read: the body travels as JSON, the server reads it back and serves the rows
  have honce : once.2.2 = .ok (c.served docs) := by
    simp only [once, fetch, hfresh, Request.resolveOnce, hpayload]
    simp [request, Request.callRemote, Channel.call, hserver, MethodSpec.serveFind,
      ConcreteBody.read_toJson_of_relations_nil hcrel, Except.mapError, Request.decodeRows_obj,
      Except.bind]
  -- the local read: a body without a skip to drop compiles to one node over the store
  have hlocal : ∀ allowSkip (h : Handle) (ch' : Channel), c.applySkipPolicy allowSkip = c →
      ({ q with subscription := some h }.fetch eng read ch' allowSkip none).2.2 =
        .ok (c.served docs) := by
    intro allowSkip h ch' hskip
    have hroot := ConcreteBody.compile_of_relations_nil hcrel q.collection eng.links eng.config
    rw [← MemoryStore.find_cut_eq_served hstore hkeys c]
    simp [fetch, request, Request.resolveLocally, hres, hskip, hroot,
      GraphNode.fetch_leaf ⟨q.collection, c.selector, c.options, none, []⟩ rfl rfl, FetchTask.request_root, GraphNode.fetchFields_leaf,
      read, Except.map]
  refine ⟨honce, ?_⟩
  simp only [subscribe, hpayload]
  refine ⟨_, _, _, rfl, hlocal true _ _ rfl, fun hskip => hlocal false _ _ ?_⟩
  exact ConcreteBody.applySkipPolicy_of_skip_none hskip false

/-- Two posts read by rank, highest first, one at a time and cut down to their titles: fetched
from a server and then while subscribed, with or without the skip allowed, both give the
higher-ranked post. -/
theorem fetch_remote_agrees_top_ranked_post :
    let draft : Document := [("_id", .str "p1"), ("title", .str "Draft"), ("rank", .num (.int 1))]
    let launch : Document := [("_id", .str "p2"), ("title", .str "Launch"), ("rank", .num (.int 2))]
    let docs := [draft, launch]
    let q := Engine.createQuery "posts"
      (((({} : QueryBody).sortDesc "rank").withLimit (.literal (.num (.int 1)))).withFields ["title"])
    let ch := ({} : Channel).register "posts" (MethodSpec.serveFind docs)
    let store := (({} : MemoryStore).insertMany (fun _ => .null) "posts" (docs.map .obj)).1
    let read : Reader := fun req => .ok (store.find req)
    let once := q.fetch {} read ch false none
    let top : List Document := [[("_id", .str "p2"), ("title", .str "Launch")]]
    once.2.2 = .ok top ∧
      ∃ q' ch' h, q.subscribe once.1 = .ok (q', ch', h) ∧
        (q'.fetch {} read ch' true none).2.2 = .ok top ∧
        (q'.fetch {} read ch' false none).2.2 = .ok top := by
  have hrank : "rank".splitOn "." = ["rank"] := by simp +decide [String.splitOn, String.splitOnAux]
  have htitle : "title".splitOn "." = ["title"] := by
    simp +decide [String.splitOn, String.splitOnAux]
  have hcmp : Json.sortCmp (some (.num (.int 1))) (some (.num (.int 2))) = .lt := by decide +kernel
  have hids : (Json.str "p1").equal (.str "p2") = false := by simp [Json.equal]
  intro draft launch docs q ch store read once top
  let c : ConcreteBody := ⟨[], ⟨[SortField.desc "rank"], some 1, none, some ["title"]⟩, []⟩
  have hres : q.body.resolve q.params = .ok c := rfl
  -- what the server serves: the higher rank first, one row, cut to its title and `_id`
  have hserved : c.served docs = top := by
    have horder : Document.sortOrder [SortField.desc "rank"] draft launch = .gt := by
      simp [draft, launch, Document.sortOrder, Document.field?, hrank, Object.get?, Document.getKeys?,
        hcmp, SortField.desc]
    have hsort : Document.sortAll [SortField.desc "rank"] docs = [launch, draft] := by
      simp [docs, Document.sortAll, List.mergeSort, horder]
    have hfilter : docs.filter (·.satisfies []) = docs := by simp [Document.satisfies]
    simp only [c, ConcreteBody.served, hfilter, hsort]
    simp [launch, top, Document.project, Document.field?, Document.insertPath, htitle, Object.get?,
      Object.set, Document.insertKeys, Document.idField, Document.getKeys?]
  obtain ⟨honce, q', ch', h, hsub, htrue, hfalse⟩ :=
    @fetch_remote_agrees_with_subscribed q {} ch {} (fun _ => .null) docs c rfl rfl rfl hres rfl
      (by simp [docs, draft, launch, Object.get?, Document.idField])
      (by simp [docs, draft, launch, MemoryStore.hasId, Object.get?, Document.idField, hids])
      (by simp [docs, draft, launch, Json.KeysDistinct, Json.entriesKeysDistinct])
      (Keyed.get?_insert_self _ _ _)
  rw [hserved] at honce htrue hfalse
  exact ⟨honce, q', ch', h, hsub, htrue, hfalse rfl⟩

end Query

end DocQuery
