import Mathlib
import DocQuery.Proofs.ReadPlan
import DocQuery.Proofs.StableSort

/-!
# Joining rows on keys

A batched read asks for the rows whose key field is among the keys a level's parents offer, and
a key index hands each parent back its own rows. The index gives a key the rows holding a value
keyed as one the key offers (`KeyIndex.matching_build`); a batch's selector is the node's own
and the key constraint (`Batch.satisfies_selector_iff`); and where key texts decide equality,
the batch selects what the parents' own keys select (`Batch.any_keys_ofParents`).
-/

namespace DocQuery

namespace Keyed

theorem get?_insert_of_ne {α : Type} {key k : String} (v : α) (l : List (String × α))
    (hne : k ≠ key) : get? (insert key v l) k = get? l k := by
  induction l with
  | nil => simp [insert, get?, Ne.symm hne]
  | cons e rest ih =>
    obtain ⟨k', w⟩ := e
    unfold insert
    by_cases hlt : key < k'
    · simp [hlt, get?, Ne.symm hne]
    · by_cases heq : key = k'
      · subst heq
        simp [get?, Ne.symm hne]
      · simp only [hlt, heq, if_false]
        simp only [get?, List.find?_cons] at ih ⊢
        cases k' == k <;> simp [ih]

end Keyed

namespace KeyIndex

/-- The row holds a value keyed `k` at the field. -/
def Holds (field k : String) (row : Document) : Bool :=
  (heldValues row field).any (·.key? == some k)

/-- The row meets a parent's key: it holds at the field a value keyed as one of the values
that the key offers. A value without a key, `null`, meets nothing. -/
def Meets (field : String) (key : Json) (row : Document) : Bool :=
  (Json.offered key).any fun v => v.key?.isSome && (heldValues row field).any (·.key? == v.key?)

/-- The positions of the rows holding `k`, in increasing order. -/
def holders (rows : List Document) (field k : String) : List Nat :=
  (rows.zipIdx.filter fun e => Holds field k e.1).map (·.2)

/-- The positions an index lists under a key text. -/
def positionsOf (ix : KeyIndex) (k : String) : List Nat := (Keyed.get? ix.positions k).getD []

theorem positionsOf_record (ix : KeyIndex) (key : String) (pos : Nat) (k : String) :
    (ix.record key pos).positionsOf k =
      if k = key then
        if (ix.positionsOf k).getLast? = some pos then ix.positionsOf k else ix.positionsOf k ++ [pos]
      else ix.positionsOf k := by
  unfold record positionsOf
  by_cases hk : k = key
  · subst hk
    cases h : Keyed.get? ix.positions k with
    | none => simp [Keyed.get?_insert_self]
    | some ps =>
      by_cases hlast : ps.getLast? = some pos
      · simp [h, hlast]
      · simp [hlast, Keyed.get?_insert_self]
  · cases h : Keyed.get? ix.positions key with
    | none => simp [hk, Keyed.get?_insert_of_ne _ _ hk]
    | some ps =>
      by_cases hlast : ps.getLast? = some pos
      · simp [hk, hlast]
      · simp [hk, hlast, Keyed.get?_insert_of_ne _ _ hk]

/-- The step of `build` that records one held value of the row at `pos`. -/
def recordValue (pos : Nat) (ix : KeyIndex) (v : Json) : KeyIndex :=
  match v.key? with
  | some k => ix.record k pos
  | none => ix

theorem recordValue_of_key?_none {pos : Nat} {ix : KeyIndex} {v : Json} (h : v.key? = none) :
    recordValue pos ix v = ix := by
  simp [recordValue, h]

theorem recordValue_of_key?_some {pos : Nat} {ix : KeyIndex} {v : Json} {k : String}
    (h : v.key? = some k) : recordValue pos ix v = ix.record k pos := by
  simp [recordValue, h]

/-- Recording the values a row holds appends its position once under each of their keys,
when every position already listed is smaller. -/
theorem positionsOf_foldl_recordValue (pos : Nat) (ix : KeyIndex)
    (hlt : ∀ k, ∀ q ∈ ix.positionsOf k, q < pos) (vs : List Json) (k : String) :
    (vs.foldl (recordValue pos) ix).positionsOf k =
      ix.positionsOf k ++ if vs.any (·.key? == some k) then [pos] else [] := by
  induction vs using List.reverseRecOn with
  | nil => simp
  | append_singleton vs v ih =>
    rw [List.foldl_append, List.foldl_cons, List.foldl_nil]
    have hnot : (ix.positionsOf k).getLast? ≠ some pos := by
      intro h
      have := hlt k _ (List.mem_of_getLast? h)
      omega
    cases hv : v.key? with
    | none =>
      rw [recordValue_of_key?_none hv, ih]
      simp [hv]
    | some k' =>
      rw [recordValue_of_key?_some hv, positionsOf_record, ih]
      by_cases hk : k = k'
      · subst hk
        cases hany : vs.any (·.key? == some k) <;> simp [hany, hv, hnot]
      · simp [hk, hv, Ne.symm hk]

theorem holders_append (rows : List Document) (row : Document) (field k : String) :
    holders (rows ++ [row]) field k =
      holders rows field k ++ if Holds field k row then [rows.length] else [] := by
  unfold holders
  rw [List.zipIdx_append]
  cases h : Holds field k row <;> simp [h]

theorem lt_of_mem_holders {rows : List Document} {field k : String} {q : Nat}
    (h : q ∈ holders rows field k) : q < rows.length :=
  lt_length_of_mem_filter_zipIdx h

/-- An index built over rows lists under each key text the positions of the rows holding it. -/
theorem positionsOf_build (rows : List Document) (field k : String) :
    (build rows field).positionsOf k = holders rows field k := by
  show (rows.zipIdx.foldl (fun ix e => (heldValues e.1 field).foldl (recordValue e.2) ix) {}).positionsOf k = _
  induction rows using List.reverseRecOn generalizing k with
  | nil => rfl
  | append_singleton rows row ih =>
    rw [List.zipIdx_append, List.foldl_append]
    simp only [List.zipIdx_singleton, List.foldl_cons, List.foldl_nil, Nat.zero_add]
    rw [positionsOf_foldl_recordValue _ _ (fun k q hq => lt_of_mem_holders (by rwa [ih] at hq)),
      ih, holders_append]
    rfl

theorem mem_insertPos {p q : Nat} {l : List Nat} : q ∈ insertPos p l ↔ q = p ∨ q ∈ l := by
  induction l with
  | nil => simp [insertPos]
  | cons r rest ih =>
    unfold insertPos
    split
    · simp
    · split
      · rename_i heq
        subst heq
        simp
      · simp [ih]
        tauto

theorem pairwise_insertPos {p : Nat} {l : List Nat} (h : l.Pairwise (· < ·)) :
    (insertPos p l).Pairwise (· < ·) := by
  induction l with
  | nil => simp [insertPos]
  | cons r rest ih =>
    rw [List.pairwise_cons] at h
    unfold insertPos
    split
    · rename_i hlt
      refine List.Pairwise.cons (fun a ha => ?_) (List.Pairwise.cons h.1 h.2)
      rcases List.mem_cons.mp ha with rfl | ha
      · exact hlt
      · exact lt_trans hlt (h.1 a ha)
    · split
      · exact List.Pairwise.cons h.1 h.2
      · refine List.Pairwise.cons (fun a ha => ?_) (ih h.2)
        rcases mem_insertPos.mp ha with rfl | ha
        · omega
        · exact h.1 a ha

/-- Inserting positions one by one gives them in increasing order without repeats. -/
theorem foldl_insertPos (found acc : List Nat) (hacc : acc.Pairwise (· < ·)) :
    (found.foldl (fun acc p => insertPos p acc) acc).Pairwise (· < ·) ∧
      ∀ q, q ∈ found.foldl (fun acc p => insertPos p acc) acc ↔ q ∈ found ∨ q ∈ acc := by
  induction found generalizing acc with
  | nil => simp [hacc]
  | cons p rest ih =>
    obtain ⟨hsorted, hmem⟩ := ih (insertPos p acc) (pairwise_insertPos hacc)
    refine ⟨hsorted, fun q => ?_⟩
    rw [List.foldl_cons, hmem, mem_insertPos, List.mem_cons]
    tauto

theorem get_eq (ix : KeyIndex) (v : Json) :
    ix.get v = match v.key? with
      | some k => ix.positionsOf k
      | none => [] := rfl

theorem mem_get_build {rows : List Document} {field : String} {v : Json} {i : Nat} :
    i ∈ (build rows field).get v ↔
      ∃ row, rows[i]? = some row ∧ v.key?.isSome ∧ (heldValues row field).any (·.key? == v.key?) := by
  rw [get_eq]
  cases hv : v.key? with
  | none => simp
  | some k =>
    simp only [positionsOf_build, holders, List.mem_map, List.mem_filter, Option.isSome_some,
      true_and]
    constructor
    · rintro ⟨e, ⟨he, hholds⟩, rfl⟩
      exact ⟨e.1, List.mem_zipIdx_iff_getElem?.mp he, hholds⟩
    · rintro ⟨row, hrow, hholds⟩
      exact ⟨(row, i), ⟨List.mem_zipIdx_iff_getElem?.mpr hrow, hholds⟩, rfl⟩

/-- The positions an index matches for a parent's key are those of the rows meeting it, in
increasing order. -/
theorem matching_build (rows : List Document) (field : String) (key : Json) :
    (build rows field).matching key = (rows.zipIdx.filter fun e => Meets field key e.1).map (·.2) := by
  have hmatch : (build rows field).matching key =
      ((Json.offered key).flatMap (build rows field).get).foldl (fun acc p => insertPos p acc) [] := by
    cases key <;> simp [matching, Json.offered]
  obtain ⟨hsorted, hmem⟩ := foldl_insertPos ((Json.offered key).flatMap (build rows field).get) []
    List.Pairwise.nil
  rw [hmatch]
  apply List.Pairwise.eq_of_mem_iff hsorted
  · exact List.pairwise_map.mpr ((pairwise_snd_lt_zipIdx rows).filter _)
  · intro i
    simp only [hmem, List.not_mem_nil, or_false, List.mem_flatMap, mem_get_build, List.mem_map,
      List.mem_filter, Meets, List.any_eq_true, Bool.and_eq_true]
    constructor
    · rintro ⟨v, hv, row, hrow, hkey, hheld⟩
      exact ⟨(row, i), ⟨List.mem_zipIdx_iff_getElem?.mpr hrow, v, hv, hkey, hheld⟩, rfl⟩
    · rintro ⟨e, ⟨he, v, hv, hkey, hheld⟩, rfl⟩
      exact ⟨v, hv, e.1, List.mem_zipIdx_iff_getElem?.mp he, hkey, hheld⟩

theorem lt_of_mem_matching {rows : List Document} {field : String} {key : Json} {i : Nat}
    (h : i ∈ (build rows field).matching key) : i < rows.length := by
  rw [matching_build] at h
  exact lt_length_of_mem_filter_zipIdx h

end KeyIndex

namespace Link

/-- A row is joined to a parent: it holds at the key field a value keyed as one of those the
parent's key offers. A parent without a key joins no row. -/
def Joins (link : Link) (parent row : Document) : Bool :=
  match link.parentKey? parent with
  | some key => KeyIndex.Meets link.matchField key row
  | none => false

/-- A row is joined to some parent exactly when it holds a value keyed as one of the values
that the parents offer. -/
theorem any_joins (link : Link) (parents : List Document) (row : Document) :
    parents.any (link.Joins · row) =
      ((parents.filterMap link.parentKey?).flatMap Json.offered).any fun v =>
        v.key?.isSome && (KeyIndex.heldValues row link.matchField).any (·.key? == v.key?) := by
  simp only [List.any_flatMap, List.any_filterMap]
  congr 1
  funext p
  unfold Joins KeyIndex.Meets
  cases link.parentKey? p <;> rfl

end Link

namespace Json

/-- A test that depends only on key texts selects through the first value of each key what it
selects through all values with a key. -/
theorem any_firstOfEachKey {φ : Json → Bool} (vs : List Json)
    (hφ : ∀ v ∈ vs, ∀ w ∈ vs, v.key?.isSome → v.key? = w.key? → φ v = φ w) :
    (firstOfEachKey vs).any φ = vs.any fun v => v.key?.isSome && φ v := by
  induction vs using firstOfEachKey.induct with
  | case1 => simp [firstOfEachKey]
  | case2 v vs hv ih =>
    rw [firstOfEachKey, hv, ih fun a ha b hb => hφ a (List.mem_cons_of_mem _ ha) b
      (List.mem_cons_of_mem _ hb)]
    simp [hv]
  | case3 v vs k hv ih =>
    simp only [List.unattach_filter, List.unattach_attach] at ih
    have hsub : ∀ a ∈ vs.filter (·.key? != some k), a ∈ v :: vs := fun a ha =>
      List.mem_cons_of_mem _ (List.mem_of_mem_filter ha)
    rw [firstOfEachKey, hv]
    simp only [List.any_cons, ih fun a ha b hb => hφ a (hsub a ha) b (hsub b hb), hv,
      Option.isSome_some, Bool.true_and]
    -- The values dropped share the key of `v`, so they select what `v` selects.
    cases hφv : φ v
    · have hdrop : ∀ w ∈ vs, ((w.key? != some k) && (w.key?.isSome && φ w)) =
          (w.key?.isSome && φ w) := by
        intro w hw
        by_cases hwk : w.key? = some k
        · have : φ w = false := (hφ w (List.mem_cons_of_mem _ hw) v List.mem_cons_self
            (by simp [hwk]) (by rw [hwk, hv])).trans hφv
          simp [this]
        · simp [hwk]
      simp only [Bool.false_or, List.any_filter]
      rw [Bool.eq_iff_iff, List.any_eq_true, List.any_eq_true]
      constructor
      · rintro ⟨w, hw, h⟩
        exact ⟨w, hw, hdrop w hw ▸ h⟩
      · rintro ⟨w, hw, h⟩
        exact ⟨w, hw, (hdrop w hw).symm ▸ h⟩
    · simp

end Json

namespace Batch

/-- When a test on key values depends only on their key texts, the keys of a level's batch
select what the values the parents offer select. -/
theorem any_keys_ofParents {φ : Json → Bool} (link : Link) (parents : List Document)
    (hφ : ∀ v ∈ (parents.filterMap link.parentKey?).flatMap Json.offered,
      ∀ w ∈ (parents.filterMap link.parentKey?).flatMap Json.offered,
      v.key?.isSome → v.key? = w.key? → φ v = φ w) :
    (ofParents link parents).keys.any φ =
      ((parents.filterMap link.parentKey?).flatMap Json.offered).any fun v =>
        v.key?.isSome && φ v := by
  rw [ofParents_keys, Json.any_firstOfEachKey _ hφ]

/-- The selector of a batch holds of a document exactly when the node's own selector and the
key constraint both do. -/
theorem satisfies_selector_iff (b : Batch) (own d : Document) :
    d.satisfies (b.selector own) =
      (d.satisfies own && d.satisfies [(b.field, .obj [("$in", .arr b.keys)])]) := by
  unfold selector
  split
  · rename_i hempty
    rw [List.isEmpty_iff.mp hempty]
    simp [Document.satisfies]
  · simp [Document.satisfies, Document.conditionHolds, Document.allMatch]

/-- The selector of a batch holds of a row when the node's own selector does and the row's
key field equals one of the keys, unless the field is one of the combining keys. -/
theorem satisfies_selector (b : Batch) (own row : Document)
    (hfield : b.field ∉ ["$and", "$or", "$nor"]) :
    row.satisfies (b.selector own) =
      (row.satisfies own && b.keys.any (Selector.fieldEquals (row.field? b.field))) := by
  simp only [List.mem_cons, List.not_mem_nil, or_false, not_or] at hfield
  obtain ⟨hand, hor, hnor⟩ := hfield
  have hin : Selector.fieldMatches (row.field? b.field) (.obj [("$in", .arr b.keys)]) =
      b.keys.any (Selector.fieldEquals (row.field? b.field)) := by
    have hop : Selector.isOperator "$in" = true := by cbv
    simp [Selector.fieldMatches, hop, Selector.operatorHolds]
  -- A field that is no combining key reads the constraint as a condition on the field.
  have hconstraint : row.satisfies [(b.field, .obj [("$in", .arr b.keys)])] =
      b.keys.any (Selector.fieldEquals (row.field? b.field)) := by
    simp [Document.satisfies, Document.conditionHolds, hand, hor, hnor, hin]
  rw [satisfies_selector_iff, hconstraint]

end Batch

end DocQuery
