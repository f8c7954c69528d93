import Mathlib
import DocQuery.Store.Order

/-!
# Sorting documents is a stable sort

The order of a sort is a total preorder on documents (`Document.sortOrder_transCmp`), and
`sortAll` sorts stably, so filtering before sorting gives what filtering after gives
(`Document.sortAll_filter`). The general fact is `mergeSort_filter`: on elements decorated with
their positions the stable order is antisymmetric, so two sorted permutations of each other are
equal.
-/

namespace DocQuery

section Stable

variable {α : Type} {le : α → α → Bool}

theorem zipIdxLE_snd_eq {a b : α × Nat} (hab : List.zipIdxLE le a b = true)
    (hba : List.zipIdxLE le b a = true) : a.2 = b.2 := by
  unfold List.zipIdxLE at hab hba
  by_cases h1 : le a.1 b.1 <;> by_cases h2 : le b.1 a.1 <;> simp [h1, h2] at hab hba
  omega

theorem pairwise_snd_lt_zipIdx (l : List α) : l.zipIdx.Pairwise (·.2 < ·.2) := by
  rw [List.pairwise_iff_getElem]
  intro i j hi hj hij
  simpa using hij

/-- A position kept from a list's numbered elements lies within the list. -/
theorem lt_length_of_mem_filter_zipIdx {l : List α} {p : α × Nat → Bool} {i : Nat}
    (h : i ∈ (l.zipIdx.filter p).map (·.2)) : i < l.length := by
  obtain ⟨e, he, rfl⟩ := List.mem_map.mp h
  have := List.mem_zipIdx_iff_getElem?.mp (List.mem_of_mem_filter he)
  exact (List.getElem?_eq_some_iff.mp this).1

/-- Sorting elements whose decorations increase along the list, then forgetting the
decorations, is sorting the bare elements: renumbering the decorations by position changes no
comparison. -/
theorem mergeSort_map_fst_of_increasing {W : List (α × Nat)} (hW : W.Pairwise (·.2 < ·.2)) :
    (W.mergeSort (List.zipIdxLE le)).map (·.1) = (W.map (·.1)).mergeSort le := by
  conv_rhs => rw [← List.mergeSort_zipIdx, List.zipIdx_map]
  have hW' : W = W.zipIdx.map (·.1) := by simp
  -- A decoration of `W` and its position in `W` order the elements alike.
  have hsame : ∀ a ∈ W.zipIdx, ∀ b ∈ W.zipIdx,
      List.zipIdxLE le a.1 b.1 = List.zipIdxLE le (Prod.map (·.1) id a) (Prod.map (·.1) id b) := by
    intro a ha b hb
    rw [List.mem_zipIdx_iff_getElem?] at ha hb
    obtain ⟨hi, hai⟩ := List.getElem?_eq_some_iff.mp ha
    obtain ⟨hj, hbj⟩ := List.getElem?_eq_some_iff.mp hb
    have hmono : a.1.2 ≤ b.1.2 ↔ a.2 ≤ b.2 := by
      rw [← hai, ← hbj]
      rcases Nat.lt_trichotomy a.2 b.2 with hlt | heq | hgt
      · have := List.pairwise_iff_getElem.mp hW _ _ hi hj hlt
        omega
      · simp only [heq, le_refl]
      · have := List.pairwise_iff_getElem.mp hW _ _ hj hi hgt
        omega
    simp [List.zipIdxLE, hmono]
  have hL : (W.zipIdx.map (·.1)).mergeSort (List.zipIdxLE le) =
      (W.zipIdx.mergeSort fun a b => List.zipIdxLE le a.1 b.1).map (·.1) :=
    (@List.map_mergeSort ((α × Nat) × Nat) (α × Nat) (fun a b => List.zipIdxLE le a.1 b.1)
      (List.zipIdxLE le) (·.1) _ fun _ _ _ _ => rfl).symm
  have hR : (W.zipIdx.map (Prod.map (·.1) id)).mergeSort (List.zipIdxLE le) =
      (W.zipIdx.mergeSort fun a b => List.zipIdxLE le a.1 b.1).map (Prod.map (·.1) id) :=
    (List.map_mergeSort hsame).symm
  conv_lhs => rw [hW']
  rw [hL, hR, List.map_map, List.map_map]
  rfl

/-- Filtering commutes with a stable sort by a total preorder. -/
theorem mergeSort_filter (htrans : ∀ a b c, le a b → le b c → le a c)
    (htotal : ∀ a b, (le a b || le b a) = true) (p : α → Bool) (l : List α) :
    (l.filter p).mergeSort le = (l.mergeSort le).filter p := by
  let R := List.zipIdxLE le
  have hRtrans := List.zipIdxLE_trans htrans
  have hRtotal := List.zipIdxLE_total htotal
  -- On the decorated list both sides are sorted permutations of the kept elements.
  have hdecorated : (l.zipIdx.mergeSort R).filter (p ·.1) = (l.zipIdx.filter (p ·.1)).mergeSort R := by
    apply List.Perm.eq_of_pairwise _ ((List.pairwise_mergeSort hRtrans hRtotal _).filter _)
      (List.pairwise_mergeSort hRtrans hRtotal _)
    · exact ((List.mergeSort_perm _ _).filter _).trans (List.mergeSort_perm _ _).symm
    · intro a b ha hb hab hba
      have hnodup : (l.zipIdx.map (·.2)).Nodup :=
        (List.pairwise_map.mpr (pairwise_snd_lt_zipIdx l)).imp Nat.ne_of_lt
      have ha' : a ∈ l.zipIdx := List.mem_mergeSort.mp (List.mem_of_mem_filter ha)
      have hb' : b ∈ l.zipIdx := List.mem_of_mem_filter (List.mem_mergeSort.mp hb)
      exact List.inj_on_of_nodup_map hnodup ha' hb' (zipIdxLE_snd_eq hab hba)
  have hkept : (l.zipIdx.filter (p ·.1)).map (·.1) = l.filter p := by
    rw [show (fun x : α × Nat => p x.1) = p ∘ (·.1) from rfl, ← List.filter_map]
    simp
  calc (l.filter p).mergeSort le
      = ((l.zipIdx.filter (p ·.1)).mergeSort R).map (·.1) := by
        rw [mergeSort_map_fst_of_increasing ((pairwise_snd_lt_zipIdx l).filter _), hkept]
    _ = ((l.zipIdx.mergeSort R).filter (p ·.1)).map (·.1) := by rw [hdecorated]
    _ = (l.mergeSort le).filter p := by
        conv_rhs => rw [← List.mergeSort_zipIdx, List.filter_map]
        rfl

end Stable

/-- A comparison read through a map is transitive when the comparison is. -/
theorem transCmp_comap {α β : Type} {cmp : β → β → Ordering} [Std.TransCmp cmp] (f : α → β) :
    Std.TransCmp fun a b => cmp (f a) (f b) where
  eq_swap := Std.OrientedCmp.eq_swap
  isLE_trans := Std.TransCmp.isLE_trans

namespace Json

/-- The number a value sorts by; `0` for a value that is not a number. -/
def unitsKey : Option Json → Int
  | some (.num n) => n.toBinary64.toUnits
  | _ => 0

/-- The text a value sorts by: a string itself, an object or an array as compact JSON text;
empty for the other kinds. -/
def textKey : Option Json → String
  | some (.str s) => s
  | some (.obj o) => (Json.obj o).compact
  | some (.arr xs) => (Json.arr xs).compact
  | _ => ""

/-- The truth value a value sorts by; `false` for a value that is not a boolean. -/
def flagKey : Option Json → Bool
  | some (.bool b) => b
  | _ => false

/-- The sort order of values is lexicographic on their kind, number, text and truth value. -/
theorem sortCmp_eq_compareLex (a b : Option Json) :
    sortCmp a b = compareLex (compareOn kindRank)
      (compareLex (compareOn unitsKey) (compareLex (compareOn textKey) (compareOn flagKey))) a b := by
  simp only [sortCmp, compareLex, compareOn]
  by_cases hrank : kindRank a = kindRank b
  · -- Values of one kind: only the key of that kind can differ.
    simp only [hrank, ne_eq, not_true_eq_false, if_false, Std.ReflCmp.compare_self, Ordering.eq_then]
    rcases a with _ | _ | _ | _ | _ | _ | _ <;> rcases b with _ | _ | _ | _ | _ | _ | _ <;>
      simp_all [kindRank, unitsKey, textKey, flagKey, compareScalars, Binary64.cmp]
  · have hne : compare (kindRank a) (kindRank b) ≠ .eq := by
      simpa [Nat.compare_eq_eq] using hrank
    rw [if_pos hrank]
    cases h : compare (kindRank a) (kindRank b)
    · rfl
    · exact absurd h hne
    · rfl

theorem sortCmp_transCmp : Std.TransCmp sortCmp := by
  have h : sortCmp = compareLex (compareOn kindRank)
      (compareLex (compareOn unitsKey) (compareLex (compareOn textKey) (compareOn flagKey))) := by
    funext a b
    exact sortCmp_eq_compareLex a b
  rw [h]
  infer_instance

end Json

namespace Document

/-- The comparison of documents on one sort key. -/
def keyCmp (s : SortField) (a b : Document) : Ordering :=
  match s.order with
  | .asc => Json.sortCmp (a.field? s.field) (b.field? s.field)
  | .desc => Json.sortCmp (b.field? s.field) (a.field? s.field)

theorem keyCmp_transCmp (s : SortField) : Std.TransCmp (keyCmp s) := by
  have := Json.sortCmp_transCmp
  have hasc := @transCmp_comap Document (Option Json) Json.sortCmp _ fun d => d.field? s.field
  unfold keyCmp
  cases s.order with
  | asc => exact hasc
  | desc => exact Std.TransCmp.opposite

theorem sortOrder_cons (s : SortField) (rest : List SortField) :
    sortOrder (s :: rest) = compareLex (keyCmp s) (sortOrder rest) := by
  funext a b
  have hswap : ∀ o : Ordering, (Json.sortCmp (a.field? s.field) (b.field? s.field)).swap = o ↔
      Json.sortCmp (b.field? s.field) (a.field? s.field) = o := by
    have := Json.sortCmp_transCmp
    intro o
    rw [← Std.OrientedCmp.eq_swap]
  simp only [sortOrder, compareLex, keyCmp]
  cases s.order with
  | asc => cases Json.sortCmp (a.field? s.field) (b.field? s.field) <;> rfl
  | desc =>
    cases h : Json.sortCmp (b.field? s.field) (a.field? s.field) <;> simp [(hswap _).mpr h]

/-- A sort compares documents by a transitive comparison. -/
theorem sortOrder_transCmp (sort : List SortField) : Std.TransCmp (sortOrder sort) := by
  induction sort with
  | nil =>
    have h : sortOrder [] = fun _ _ => .eq := by
      funext a b
      rfl
    rw [h]
    exact { eq_swap := rfl, isLE_trans := fun _ _ => rfl }
  | cons s rest ih =>
    have := keyCmp_transCmp s
    rw [sortOrder_cons]
    infer_instance

theorem notGt_eq_isLE (o : Ordering) : (o != .gt) = o.isLE := by
  cases o <;> rfl

/-- The test `sortAll` sorts by, "not after", is transitive. -/
theorem sortLE_trans (sort : List SortField) (a b c : Document)
    (hab : (sortOrder sort a b != .gt) = true) (hbc : (sortOrder sort b c != .gt) = true) :
    (sortOrder sort a c != .gt) = true := by
  have := sortOrder_transCmp sort
  rw [notGt_eq_isLE] at hab hbc ⊢
  exact Std.TransCmp.isLE_trans hab hbc

/-- The test `sortAll` sorts by holds one way or the other of every two documents. -/
theorem sortLE_total (sort : List SortField) (a b : Document) :
    (sortOrder sort a b != .gt || sortOrder sort b a != .gt) = true := by
  have := sortOrder_transCmp sort
  rw [notGt_eq_isLE, notGt_eq_isLE]
  cases h : sortOrder sort a b
  · rfl
  · rfl
  · simp [Std.OrientedCmp.gt_iff_lt.mp h]

/-- Keeping documents before a sort or after it gives the same rows. -/
theorem sortAll_filter (sort : List SortField) (p : Document → Bool) (docs : List Document) :
    sortAll sort (docs.filter p) = (sortAll sort docs).filter p := by
  unfold sortAll
  split
  · rfl
  · apply mergeSort_filter
    · exact sortLE_trans sort
    · exact sortLE_total sort

/-- A sort compares documents key by key: the first key on which they differ decides, and a
descending key compares with its arguments swapped. -/
theorem sortOrder_eq_foldr (sort : List SortField) :
    sortOrder sort = sort.foldr (fun s rest => compareLex (keyCmp s) rest) fun _ _ => .eq := by
  induction sort with
  | nil =>
    funext a b
    rfl
  | cons s rest ih => rw [sortOrder_cons, ih, List.foldr_cons]

theorem sortAll_perm (sort : List SortField) (docs : List Document) :
    (sortAll sort docs).Perm docs := by
  unfold sortAll
  split
  · exact List.Perm.refl docs
  · exact List.mergeSort_perm docs _

/-- Sorted documents are in order: no document comes after a later one. -/
theorem sortAll_pairwise (sort : List SortField) (docs : List Document) :
    (sortAll sort docs).Pairwise fun a b => (sortOrder sort a b).isLE := by
  unfold sortAll
  split
  · rename_i hempty
    -- with no key every two documents tie
    rw [List.isEmpty_iff.mp hempty]
    exact List.pairwise_of_forall fun _ _ => rfl
  · have hsorted := List.pairwise_mergeSort (sortLE_trans sort) (sortLE_total sort) docs
    exact hsorted.imp fun h => by rwa [notGt_eq_isLE] at h

/-- The documents that tie with a document on every key come out in their input order. -/
theorem sortAll_filter_ties (sort : List SortField) (docs : List Document) (d : Document) :
    (sortAll sort docs).filter (sortOrder sort · d == .eq) =
      docs.filter (sortOrder sort · d == .eq) := by
  have := sortOrder_transCmp sort
  -- Tying with `d`, they tie with each other, so they are already in order.
  have hties : (docs.filter (sortOrder sort · d == .eq)).Pairwise
      fun a b => (sortOrder sort a b != .gt) = true := by
    refine List.pairwise_filter.mpr (List.pairwise_of_forall fun a b ha hb => ?_)
    have hab : sortOrder sort a b = .eq :=
      Std.TransCmp.eq_trans (beq_iff_eq.mp ha) (Std.OrientedCmp.eq_symm (beq_iff_eq.mp hb))
    simp [hab]
  rw [← sortAll_filter]
  unfold sortAll
  split
  · rfl
  · exact List.mergeSort_of_pairwise hties

/-- Values sort by a total preorder, lexicographic on kind, number, text and truth value; a sort
compares documents key by key, and `sortAll` is the stable sort by it, the identity on the
empty sort. -/
theorem sortAll_is_stable_sort (sort : List SortField) (docs : List Document) :
    (∀ a, Json.sortCmp a a = .eq) ∧
    (∀ a b, Json.sortCmp a b = (Json.sortCmp b a).swap) ∧
    (∀ a b c, (Json.sortCmp a b).isLE → (Json.sortCmp b c).isLE → (Json.sortCmp a c).isLE) ∧
    (∀ a b, Json.sortCmp a b = compareLex (compareOn Json.kindRank) (compareLex
      (compareOn Json.unitsKey) (compareLex (compareOn Json.textKey) (compareOn Json.flagKey))) a b) ∧
    sortOrder sort = sort.foldr (fun s rest => compareLex (keyCmp s) rest) (fun _ _ => .eq) ∧
    (sortAll sort docs).Perm docs ∧
    (sortAll sort docs).Pairwise (fun a b => (sortOrder sort a b).isLE) ∧
    (∀ d, (sortAll sort docs).filter (sortOrder sort · d == .eq) =
      docs.filter (sortOrder sort · d == .eq)) ∧
    sortAll [] docs = docs := by
  have := Json.sortCmp_transCmp
  exact ⟨fun _ => Std.ReflCmp.compare_self, fun _ _ => Std.OrientedCmp.eq_swap,
    fun _ _ _ hab hbc => Std.TransCmp.isLE_trans hab hbc, Json.sortCmp_eq_compareLex,
    sortOrder_eq_foldr sort, sortAll_perm sort docs, sortAll_pairwise sort docs,
    sortAll_filter_ties sort docs, rfl⟩

end Document

end DocQuery
