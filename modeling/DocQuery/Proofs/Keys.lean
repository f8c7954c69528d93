import Mathlib
import DocQuery.Proofs.Join

/-!
# The keys of a batch and of a key index

A batch fed the linking values of parent rows keeps the first value of each key among those
offered, counts the distinct key texts and is empty exactly when no value has a key
(`Batch.foldl_add_gathers_keys`). A key index lists the positions of the rows holding a key in
increasing order without repeats (`KeyIndex.build_lists_holders`).
-/

namespace DocQuery

namespace Json

/-- The first values of the keys have as many entries as there are distinct key texts. -/
theorem length_firstOfEachKey (vs : List Json) :
    (firstOfEachKey vs).length = (vs.filterMap key?).toFinset.card := by
  induction vs using firstOfEachKey.induct with
  | case1 => simp [firstOfEachKey]
  | case2 v vs hv ih => simp [firstOfEachKey, hv, ih]
  | case3 v vs k hv ih =>
    simp only [List.unattach_filter, List.unattach_attach] at ih
    -- The values after `v` that keep their place are those with another key.
    have hrest : ((vs.filter fun w => w.key? != some k).filterMap key?).toFinset =
        (vs.filterMap key?).toFinset.erase k := by
      ext j
      simp only [List.mem_toFinset, List.mem_filterMap, List.mem_filter, Finset.mem_erase]
      constructor
      · rintro ⟨w, ⟨hw, hne⟩, hwj⟩
        exact ⟨fun hjk => by simp [hwj, hjk] at hne, w, hw, hwj⟩
      · rintro ⟨hjk, w, hw, hwj⟩
        exact ⟨w, ⟨hw, by simp [hwj, hjk]⟩, hwj⟩
    rw [firstOfEachKey, hv, List.length_cons, ih, hrest, List.filterMap_cons_some hv,
      List.toFinset_cons, Finset.card_insert_eq_ite]
    split
    · rename_i hk
      have := Finset.card_pos.mpr ⟨k, hk⟩
      rw [Finset.card_erase_of_mem hk]
      omega
    · rename_i hk
      rw [Finset.erase_eq_of_notMem hk]

/-- No value is kept exactly when no value has a key. -/
theorem firstOfEachKey_eq_nil_iff (vs : List Json) :
    firstOfEachKey vs = [] ↔ ∀ v ∈ vs, v.key? = none := by
  induction vs using firstOfEachKey.induct with
  | case1 => simp [firstOfEachKey]
  | case2 v vs hv ih => simp [firstOfEachKey, hv, ih]
  | case3 v vs k hv _ => simp [firstOfEachKey, hv]

end Json

namespace Batch

/-- Adding values one by one adds the values they offer one by one. -/
theorem foldl_add_eq (b : Batch) (vs : List Json) :
    vs.foldl add b = (vs.flatMap Json.offered).foldl addOne b := by
  induction vs generalizing b with
  | nil => rfl
  | cons v vs ih => rw [List.foldl_cons, ih, add_eq_foldl, List.flatMap_cons, List.foldl_append]

/-- A batch keeps the first value of each key offered, in order, counts the distinct key texts,
is empty exactly when no value has a key, and selects a document exactly when the node's own
selector and the key constraint both hold. -/
theorem foldl_add_gathers_keys (collection field : String) (vs : List Json) :
    let b := vs.foldl add ⟨collection, field, []⟩
    b.keys = Json.firstOfEachKey (vs.flatMap Json.offered) ∧
    b.len = ((vs.flatMap Json.offered).filterMap Json.key?).toFinset.card ∧
    (b.isEmpty = true ↔ ∀ v ∈ vs.flatMap Json.offered, v.key? = none) ∧
    ∀ own d : Document, d.satisfies (b.selector own) =
      (d.satisfies own && d.satisfies [(field, .obj [("$in", .arr b.keys)])]) := by
  intro b
  have hb : b = ⟨collection, field, Json.firstOfEachKey (vs.flatMap Json.offered)⟩ := by
    simp only [b, foldl_add_eq, foldl_addOne _ _ [] (by simp)]
    simp
  have hkeys : b.keys = Json.firstOfEachKey (vs.flatMap Json.offered) := by rw [hb]
  refine ⟨hkeys, ?_, ?_, fun own d => ?_⟩
  · rw [len, hkeys, Json.length_firstOfEachKey]
  · rw [isEmpty, hkeys, List.isEmpty_iff, Json.firstOfEachKey_eq_nil_iff]
  · rw [satisfies_selector_iff, hb]

end Batch

namespace KeyIndex

/-- The key texts a row holds at a field: those of the items of an array, or of the value;
`null` holds none. -/
def heldKeys (row : Document) (field : String) : List String :=
  (heldValues row field).filterMap Json.key?

/-- A list of positions names, in increasing order, exactly the rows with a property. -/
def ListsRows (l : List Nat) (rows : List Document) (p : Document → Prop) : Prop :=
  l.Pairwise (· < ·) ∧ ∀ i, i ∈ l ↔ ∃ row, rows[i]? = some row ∧ p row

theorem listsRows_filter_zipIdx (rows : List Document) (p : Document → Bool) :
    ListsRows ((rows.zipIdx.filter fun e => p e.1).map (·.2)) rows (p · = true) := by
  refine ⟨List.pairwise_map.mpr ((pairwise_snd_lt_zipIdx rows).filter _), fun i => ?_⟩
  simp only [List.mem_map, List.mem_filter]
  constructor
  · rintro ⟨e, ⟨he, hp⟩, rfl⟩
    exact ⟨e.1, List.mem_zipIdx_iff_getElem?.mp he, hp⟩
  · rintro ⟨row, hrow, hp⟩
    exact ⟨(row, i), ⟨List.mem_zipIdx_iff_getElem?.mpr hrow, hp⟩, rfl⟩

theorem any_key_eq_iff (row : Document) (field : String) (k : String) :
    (heldValues row field).any (·.key? == some k) = true ↔ k ∈ heldKeys row field := by
  simp only [heldKeys, List.any_eq_true, beq_iff_eq, List.mem_filterMap]

theorem meets_iff (field : String) (key : Json) (row : Document) :
    Meets field key row = true ↔
      ∃ x ∈ Json.offered key, ∃ k, x.key? = some k ∧ k ∈ heldKeys row field := by
  simp only [Meets, List.any_eq_true, Bool.and_eq_true]
  constructor
  · rintro ⟨x, hx, hsome, hheld⟩
    obtain ⟨k, hk⟩ := Option.isSome_iff_exists.mp hsome
    rw [hk] at hheld
    exact ⟨x, hx, k, hk, (any_key_eq_iff row field k).mp (List.any_eq_true.mpr hheld)⟩
  · rintro ⟨x, hx, k, hk, hheld⟩
    refine ⟨x, hx, by simp [hk], ?_⟩
    rw [hk]
    exact List.any_eq_true.mp ((any_key_eq_iff row field k).mpr hheld)

/-- The positions an index built over rows gives a value are those of the rows holding its
key, in increasing order. -/
theorem get_build_lists (rows : List Document) (field : String) (v : Json) :
    ListsRows ((build rows field).get v) rows
      fun row => ∃ k, v.key? = some k ∧ k ∈ heldKeys row field := by
  rw [get_eq]
  cases hv : v.key? with
  | none => exact ⟨List.Pairwise.nil, by simp⟩
  | some k =>
    have h := listsRows_filter_zipIdx rows (Holds field k)
    rw [← holders, ← positionsOf_build] at h
    refine ⟨h.1, fun i => ?_⟩
    rw [h.2 i]
    simp only [Holds, any_key_eq_iff, Option.some.injEq, exists_eq_left']

/-- An index built over rows gives a value the rows holding its key, and a parent's key the
rows holding the key of any value it offers: each as the increasing list of their positions.
A value without a key, `null`, gets no row. -/
theorem build_lists_holders (rows : List Document) (field : String) (v : Json) :
    ListsRows ((build rows field).get v) rows
      (fun row => ∃ k, v.key? = some k ∧ k ∈ heldKeys row field) ∧
    (build rows field).get .null = [] ∧
    ListsRows ((build rows field).matching v) rows
      (fun row => ∃ x ∈ Json.offered v, ∃ k, x.key? = some k ∧ k ∈ heldKeys row field) := by
  refine ⟨get_build_lists rows field v, rfl, ?_⟩
  have h := listsRows_filter_zipIdx rows (Meets field v)
  rw [← matching_build] at h
  refine ⟨h.1, fun i => ?_⟩
  rw [h.2 i]
  simp only [meets_iff]

end KeyIndex

end DocQuery
