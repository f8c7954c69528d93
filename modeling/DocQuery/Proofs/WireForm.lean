import DocQuery.Proofs.ReadPlan

/-!
# The JSON form of a concrete body

A concrete body travels as JSON: selector, find options with defaults left out, and relations by
name. It reads back as itself whatever its options and however deep, its relations in name order
(`ConcreteBody.read_toJson`); so an ad-hoc payload fails exactly when resolving fails and reads
back as the resolved body (`Request.payload_reads_back_as_resolved_body`).
-/

namespace DocQuery

namespace SortField

theorem read_toJson (s : SortField) : read s.toJson = .ok s := by
  obtain ⟨field, order⟩ := s
  cases order <;> rfl

end SortField

/-- Reading back the items of a list written item by item gives the list. -/
theorem mapM_read_comp {ε α : Type} {read : Json → Except ε α} {write : α → Json}
    (h : ∀ a, read (write a) = .ok a) (l : List α) : l.mapM (read ∘ write) = .ok l := by
  induction l with
  | nil => rfl
  | cons a rest ih => simp [List.mapM_cons, h, ih, bind, Except.bind, pure, Except.pure]

namespace FindOptions

theorem read_toJson (o : FindOptions) : read o.toJson = .ok o := by
  obtain ⟨sort, limit, skip, fields⟩ := o
  simp only [read, toJson, Json.readRecord]
  -- each option is written or left out, and each written one reads back
  cases limit <;> cases skip <;> cases fields <;> cases sort <;>
    simp [setField, Json.readList, Json.readOption, Json.readWord,
      mapM_read_comp SortField.read_toJson, SortField.read_toJson,
      @mapM_read_comp ShapeError String Json.readText Json.str (fun _ => rfl),
      bind, Except.bind, pure, Except.pure, Functor.map, Except.map, Except.mapError, Json.ofNat]

end FindOptions

namespace Keyed

/-- A key larger than every key of the list goes at its end. -/
theorem insert_of_lt {α : Type} {key : String} (v : α) :
    ∀ {l : List (String × α)}, (∀ e ∈ l, e.1 < key) → insert key v l = l ++ [(key, v)]
  | [], _ => rfl
  | (k, w) :: rest, h => by
    have hk : k < key := h (k, w) List.mem_cons_self
    have hrest : ∀ e ∈ rest, e.1 < key := fun e he => h e (List.mem_cons_of_mem _ he)
    simp only [insert, not_lt_of_gt hk, ne_of_gt hk, if_false, List.cons_append,
      insert_of_lt v hrest]

/-- Pairs already in strictly increasing key order are their own map. -/
theorem ofList_of_sorted {α : Type} {l : List (String × α)}
    (h : (l.map (·.1)).Pairwise (· < ·)) : ofList l = l := by
  induction l using List.reverseRecOn with
  | nil => rfl
  | append_singleton l e ih =>
    rw [List.map_append, List.pairwise_append] at h
    obtain ⟨hl, -, hlast⟩ := h
    have hlt : ∀ x ∈ l, x.1 < e.1 := fun x hx =>
      hlast x.1 (List.mem_map_of_mem hx) e.1 (by simp)
    rw [ofList, List.foldl_append, ← ofList, ih hl, List.foldl_cons, List.foldl_nil]
    exact insert_of_lt e.2 hlt

end Keyed

namespace ConcreteBody

mutual
/-- A concrete body whose relations are in name order at every depth reads back from its JSON
form. -/
theorem read_toJson : ∀ {c : ConcreteBody}, c.NamesSorted → read c.toJson = .ok c
  | ⟨selector, options, relations⟩, hs => by
    obtain ⟨hnames, hsorted⟩ := hs
    -- the relations, when written, read back in the name order they already have
    have hrel : readRelations (.obj (relationsToJson relations)) = .ok relations := by
      simp only [readRelations, readRelationList_relationsToJson hsorted, Except.map,
        Keyed.ofList_of_sorted hnames]
    by_cases hempty : relations.isEmpty
    · have hnil : relations = [] := List.isEmpty_iff.mp hempty
      subst hnil
      simp [toJson, read, readEntries, Json.readObject, FindOptions.read_toJson, bind, Except.bind]
    · simp [toJson, hempty, read, readEntries, Json.readObject, FindOptions.read_toJson, hrel,
        bind, Except.bind]

/-- Relations in name order at every depth read back from their JSON entries. -/
theorem readRelationList_relationsToJson : ∀ {rs : List (String × ConcreteBody)},
    relationsNamesSorted rs → readRelationList (relationsToJson rs) = .ok rs
  | [], _ => rfl
  | (name, b) :: rest, hs => by
    simp only [relationsToJson, readRelationList, read_toJson hs.1,
      readRelationList_relationsToJson hs.2, Except.map]
end

end ConcreteBody

namespace Request

/-- The payload of an ad-hoc request is the JSON form of its resolved body. -/
theorem payload_adHoc {r : Request} (h : r.kind = .adHoc) :
    r.payload = (r.body.resolve r.params).map ConcreteBody.toJson := by
  simp [payload, h]

/-- Every concrete body with its relations in name order reads back from its JSON form; an ad-hoc
payload fails exactly when the body fails to resolve, with the same error, and otherwise reads
back as the resolved body. -/
theorem payload_reads_back_as_resolved_body :
    (∀ c : ConcreteBody, c.NamesSorted → ConcreteBody.read c.toJson = .ok c) ∧
    ∀ r : Request, r.kind = .adHoc → r.body.NamesSorted →
      (∀ e, r.payload = .error e ↔ r.body.resolve r.params = .error e) ∧
      ∀ c, r.body.resolve r.params = .ok c →
        r.payload = .ok c.toJson ∧ ConcreteBody.read c.toJson = .ok c := by
  refine ⟨fun c hc => ConcreteBody.read_toJson hc, fun r hkind hsorted => ⟨fun e => ?_, ?_⟩⟩
  · rw [payload_adHoc hkind, Except.map_eq_error]
  · intro c hc
    have hpayload : r.payload = .ok c.toJson := by
      rw [payload_adHoc hkind, hc]
      rfl
    exact ⟨hpayload, ConcreteBody.read_toJson (QueryBody.resolve_namesSorted hsorted hc)⟩

/-- The posts of one author with the name of their author: the resolved body, with its nested
projection, travels as JSON and reads back. -/
theorem payload_reads_back_posts_with_author :
    let body := (QueryBody.filter {} "authorId" (.param "userId" none)).withRelation "author"
      (({} : QueryBody).withFields ["name"])
    let r : Request := ⟨"posts", "posts", body, Params.empty.insert "userId" (.str "u2"), .adHoc, false⟩
    let c : ConcreteBody :=
      ⟨[("authorId", .str "u2")], {}, [("author", ⟨[], { fields := some ["name"] }, []⟩)]⟩
    r.kind = .adHoc ∧ r.body.NamesSorted ∧ r.body.resolve r.params = .ok c ∧
      r.payload = .ok c.toJson ∧ ConcreteBody.read c.toJson = .ok c := by
  intro body r c
  have hsorted : r.body.NamesSorted := by
    simp [r, body, QueryBody.NamesSorted, QueryBody.relationsNamesSorted, QueryBody.withRelation,
      QueryBody.filter, QueryBody.withFields, Keyed.insert]
  have hc : c.NamesSorted := by
    simp [c, ConcreteBody.NamesSorted, ConcreteBody.relationsNamesSorted]
  have hres : r.body.resolve r.params = .ok c := rfl
  exact ⟨rfl, hsorted, hres, ((payload_reads_back_as_resolved_body.2 r rfl hsorted).2 c hres).1,
    payload_reads_back_as_resolved_body.1 c hc⟩

end Request

end DocQuery
