import DocQuery.Proofs.Parity
import DocQuery.Proofs.Join

/-!
# One document per id

Every collection of the in-memory store keeps each document with an `_id`, no two with equal
ids, in the order they were first inserted (`MemoryStore.WellKept`). Ids are compared as JSON
values, so `1` and `1.0` differ and object keys may come in any order; uniqueness needs that
equality to be symmetric and transitive, which holds of objects with distinct keys. Every store
reached from the empty one keeps so (`MemoryStore.run_keeps_one_document_per_id`).
-/

namespace DocQuery

/-! ## Equality of JSON values -/

namespace Number

theorem equal_trans {a b c : Number} (h₁ : a.equal b = true) (h₂ : b.equal c = true) :
    a.equal c = true := by
  cases a <;> cases b <;> cases c <;> simp_all [equal, Binary64.numEq]

theorem equal_symm {a b : Number} (h : a.equal b = true) : b.equal a = true := by
  cases a <;> cases b <;> simp_all [equal, Binary64.numEq]

end Number

namespace Json

/-! Equal values are of the same kind; one lemma per kind. -/

@[simp] theorem null_equal_iff {b : Json} : Json.null.equal b = true ↔ b = .null := by
  cases b <;> simp [equal]

@[simp] theorem bool_equal_iff {x : Bool} {b : Json} : (Json.bool x).equal b = true ↔ .bool x = b := by
  cases b <;> simp [equal]

@[simp] theorem str_equal_iff {x : String} {b : Json} : (Json.str x).equal b = true ↔ .str x = b := by
  cases b <;> simp [equal]

theorem num_equal_iff {n : Number} {b : Json} :
    (Json.num n).equal b = true ↔ ∃ m, b = .num m ∧ n.equal m = true := by
  cases b <;> simp [equal]

theorem arr_equal_iff {xs : List Json} {b : Json} :
    (Json.arr xs).equal b = true ↔ ∃ ys, b = .arr ys ∧ equalItems xs ys = true := by
  cases b <;> simp [equal]

theorem obj_equal_iff {xs : Object} {b : Json} :
    (Json.obj xs).equal b = true ↔
      ∃ ys, b = .obj ys ∧ xs.length = ys.length ∧ equalEntries xs ys = true := by
  cases b <;> simp [equal]

theorem equalEntries_iff {xs o : Object} :
    equalEntries xs o = true ↔ ∀ e ∈ xs, ∃ w, Object.get? o e.1 = some w ∧ e.2.equal w = true := by
  induction xs with
  | nil => simp [equalEntries]
  | cons e rest ih =>
    obtain ⟨k, v⟩ := e
    cases hk : Object.get? o k <;> simp [equalEntries, hk, ih]

mutual
/-- Equality of JSON values is transitive. -/
theorem equal_trans : ∀ (a : Json) {b c : Json}, a.equal b = true → b.equal c = true →
    a.equal c = true
  | .null, b, c, h₁, h₂ => by
    rw [null_equal_iff.mp h₁] at h₂
    exact h₂
  | .bool x, b, c, h₁, h₂ => by
    rw [← bool_equal_iff.mp h₁] at h₂
    exact h₂
  | .str x, b, c, h₁, h₂ => by
    rw [← str_equal_iff.mp h₁] at h₂
    exact h₂
  | .num n, b, c, h₁, h₂ => by
    obtain ⟨m, rfl, hnm⟩ := num_equal_iff.mp h₁
    obtain ⟨k, rfl, hmk⟩ := num_equal_iff.mp h₂
    exact num_equal_iff.mpr ⟨k, rfl, Number.equal_trans hnm hmk⟩
  | .arr xs, b, c, h₁, h₂ => by
    obtain ⟨ys, rfl, hxy⟩ := arr_equal_iff.mp h₁
    obtain ⟨zs, rfl, hyz⟩ := arr_equal_iff.mp h₂
    exact arr_equal_iff.mpr ⟨zs, rfl, equalItems_trans xs hxy hyz⟩
  | .obj xs, b, c, h₁, h₂ => by
    obtain ⟨ys, rfl, hlen, hxy⟩ := obj_equal_iff.mp h₁
    obtain ⟨zs, rfl, hlen', hyz⟩ := obj_equal_iff.mp h₂
    exact obj_equal_iff.mpr ⟨zs, rfl, hlen.trans hlen', equalEntries_trans xs hxy hyz⟩

theorem equalItems_trans : ∀ (xs : List Json) {ys zs : List Json}, equalItems xs ys = true →
    equalItems ys zs = true → equalItems xs zs = true
  | [], [], [], _, _ => rfl
  | x :: xs, y :: ys, z :: zs, h₁, h₂ => by
    simp only [equalItems, Bool.and_eq_true] at h₁ h₂ ⊢
    exact ⟨equal_trans x h₁.1 h₂.1, equalItems_trans xs h₁.2 h₂.2⟩
  | [], _ :: _, _, h₁, _ => by simp [equalItems] at h₁
  | _ :: _, [], _, h₁, _ => by simp [equalItems] at h₁
  | [], [], _ :: _, _, h₂ => by simp [equalItems] at h₂
  | _ :: _, _ :: _, [], _, h₂ => by simp [equalItems] at h₂

theorem equalEntries_trans : ∀ (xs : List (String × Json)) {ys zs : Object},
    equalEntries xs ys = true → equalEntries ys zs = true → equalEntries xs zs = true
  | [], _, _, _, _ => rfl
  | (k, v) :: rest, ys, zs, h₁, h₂ => by
    simp only [equalEntries, Bool.and_eq_true] at h₁ ⊢
    obtain ⟨hhead, hrest⟩ := h₁
    cases hk : Object.get? ys k with
    | none => simp [hk] at hhead
    | some w =>
      simp only [hk] at hhead
      -- the entry of `ys` that `v` matched is matched in turn by an entry of `zs`
      obtain ⟨u, hu, hwu⟩ := equalEntries_iff.mp h₂ (k, w) (Object.mem_of_get? hk)
      simp only [hu]
      exact ⟨equal_trans v hhead hwu, equalEntries_trans rest hrest h₂⟩
end

/-- An object with distinct keys that equals another has the same keys: the other has as many
entries, each with a key of the first, so its keys are distinct too and each reads back the
value it holds. Its entries then equal the first's when each entry of the first is symmetric. -/
theorem obj_equal_symm {xs : Object} {b : Json} (hnodup : (xs.map (·.1)).Nodup)
    (hsymm : ∀ e ∈ xs, ∀ w, e.2.equal w = true → w.equal e.2 = true)
    (h : (Json.obj xs).equal b = true) : b.equal (.obj xs) = true := by
  obtain ⟨ys, rfl, hlen, hentries⟩ := obj_equal_iff.mp h
  have hmatch := equalEntries_iff.mp hentries
  have hsub : xs.map (·.1) ⊆ ys.map (·.1) := by
    intro k hk
    obtain ⟨e, he, rfl⟩ := List.mem_map.mp hk
    obtain ⟨w, hw, -⟩ := hmatch e he
    exact List.mem_map.mpr ⟨(e.1, w), Object.mem_of_get? hw, rfl⟩
  have hperm : (xs.map (·.1)).Perm (ys.map (·.1)) :=
    (hnodup.subperm hsub).perm_of_length_le (by simp [hlen])
  have hnodup' : (ys.map (·.1)).Nodup := hperm.nodup_iff.mp hnodup
  refine obj_equal_iff.mpr ⟨xs, rfl, hlen.symm, equalEntries_iff.mpr fun e he => ?_⟩
  obtain ⟨v, hv⟩ : ∃ v, (e.1, v) ∈ xs := by
    obtain ⟨e', he', hk⟩ := List.mem_map.mp (hperm.symm.subset (List.mem_map_of_mem he))
    exact ⟨e'.2, by rw [← hk]; exact he'⟩
  obtain ⟨w, hw, hvw⟩ := hmatch (e.1, v) hv
  have hwe : w = e.2 := by
    have hget := Object.get?_of_mem hnodup' (show (e.1, e.2) ∈ ys from he)
    rw [hw] at hget
    exact Option.some.inj hget
  subst hwe
  exact ⟨v, Object.get?_of_mem hnodup hv, hsymm (e.1, v) hv _ hvw⟩

mutual
/-- Equality is symmetric from a value whose objects have distinct keys. -/
theorem equal_symm : ∀ (a : Json) {b : Json}, a.KeysDistinct → a.equal b = true →
    b.equal a = true
  | .null, b, _, h => by rw [null_equal_iff.mp h]; rfl
  | .bool x, b, _, h => by rw [← bool_equal_iff.mp h]; simp
  | .str x, b, _, h => by rw [← str_equal_iff.mp h]; simp
  | .num n, b, _, h => by
    obtain ⟨m, rfl, hnm⟩ := num_equal_iff.mp h
    exact num_equal_iff.mpr ⟨n, rfl, Number.equal_symm hnm⟩
  | .arr xs, b, ha, h => by
    obtain ⟨ys, rfl, hxy⟩ := arr_equal_iff.mp h
    exact arr_equal_iff.mpr ⟨xs, rfl, equalItems_symm xs ha hxy⟩
  | .obj xs, b, ha, h => obj_equal_symm ha.1 (entries_equal_symm xs ha.2) h

theorem equalItems_symm : ∀ (xs : List Json) {ys : List Json}, itemsKeysDistinct xs →
    equalItems xs ys = true → equalItems ys xs = true
  | [], [], _, _ => rfl
  | x :: xs, y :: ys, ha, h => by
    simp only [equalItems, Bool.and_eq_true] at h ⊢
    exact ⟨equal_symm x ha.1 h.1, equalItems_symm xs ha.2 h.2⟩
  | [], _ :: _, _, h => by simp [equalItems] at h
  | _ :: _, [], _, h => by simp [equalItems] at h

theorem entries_equal_symm : ∀ (xs : List (String × Json)), entriesKeysDistinct xs →
    ∀ e ∈ xs, ∀ w, e.2.equal w = true → w.equal e.2 = true
  | [], _, _, he, _, _ => by cases he
  | (k, v) :: rest, ha, e, he, w, h => by
    rcases List.mem_cons.mp he with rfl | he
    · exact equal_symm v ha.1 h
    · exact entries_equal_symm rest ha.2 e he w h
end

end Json

/-! ## Lookups in the list of collections -/

namespace Keyed

theorem get?_filter_ne_self {α : Type} (l : List (String × α)) (key : String) :
    get? (l.filter (·.1 != key)) key = none := by
  simp [get?, List.find?_filter]

theorem get?_filter_ne {α : Type} (l : List (String × α)) {key k : String} (hk : k ≠ key) :
    get? (l.filter (·.1 != key)) k = get? l k := by
  simp only [get?, List.find?_filter]
  -- a pair of key `k` is never one of the dropped pairs
  congr 2
  funext e
  by_cases he : e.1 = k
  · simp [he, hk]
  · simp [he]

end Keyed

/-! ## The store -/

namespace MemoryStore

theorem hasId_iff {d : Document} {x : Json} :
    hasId d x = true ↔ ∃ y, Object.get? d Document.idField = some y ∧ y.equal x = true := by
  unfold hasId
  cases Object.get? d Document.idField <;> simp

/-- The second document's id does not equal the first's. -/
def IdsApart (a b : Document) : Prop :=
  ∀ x, Object.get? b Document.idField = some x → hasId a x = false

/-- What every collection of a store keeps: each document has an `_id` whose objects have
distinct keys, and no document's id equals the id of a document before it. -/
structure WellKept (s : MemoryStore) : Prop where
  has_id : ∀ c, ∀ d ∈ s.docs c, ∃ x, Object.get? d Document.idField = some x ∧ x.KeysDistinct
  ids_apart : ∀ c, (s.docs c).Pairwise IdsApart

/-- The documents of a collection after its list is replaced. -/
theorem docs_insert (s : MemoryStore) (issued : Nat) (c c' : String) (docs : List Document) :
    (⟨Keyed.insert c docs s.collections, issued⟩ : MemoryStore).docs c' =
      if c' = c then docs else s.docs c' := by
  split
  · subst c'
    simp [MemoryStore.docs, Keyed.get?_insert_self]
  · rename_i hne
    simp [MemoryStore.docs, Keyed.get?_insert_of_ne _ _ hne]

/-! ### At most one document per id -/

/-- In documents with well-formed, pairwise unequal ids, a document whose id equals a value is
the only one: another one's id equal to the value would equal its id too. -/
theorem hasId_unique {docs : List Document}
    (hids : ∀ d ∈ docs, ∃ x, Object.get? d Document.idField = some x ∧ x.KeysDistinct)
    (hapart : docs.Pairwise IdsApart) {pre post : List Document} {d : Document} {x : Json}
    (hsplit : docs = pre ++ d :: post) (hd : hasId d x = true) :
    ∀ d' ∈ pre ++ post, hasId d' x = false := by
  subst hsplit
  obtain ⟨y, hy, hyx⟩ := hasId_iff.mp hd
  rw [List.pairwise_append, List.pairwise_cons] at hapart
  obtain ⟨-, ⟨hafter, -⟩, hbefore⟩ := hapart
  intro d' hd'
  rw [Bool.eq_false_iff]
  intro hd'x
  obtain ⟨y', hy', hy'x⟩ := hasId_iff.mp hd'x
  rcases List.mem_append.mp hd' with hpre | hpost
  · -- before `d`: its id would equal `d`'s
    obtain ⟨z, hz, hzwf⟩ := hids d (by simp)
    rw [hy] at hz
    cases hz
    have hy'y : y'.equal y = true := Json.equal_trans y' hy'x (Json.equal_symm y hzwf hyx)
    have hsame := hasId_iff.mpr ⟨y', hy', hy'y⟩
    rw [hbefore d' hpre d List.mem_cons_self y hy] at hsame
    cases hsame
  · -- after `d`: `d`'s id would equal its id
    obtain ⟨z, hz, hzwf⟩ := hids d' (by simp [hpost])
    rw [hy'] at hz
    cases hz
    have hyy' : y.equal y' = true := Json.equal_trans y hyx (Json.equal_symm y' hzwf hy'x)
    have hsame := hasId_iff.mpr ⟨y, hy, hyy'⟩
    rw [hafter d' hpost y' hy'] at hsame
    cases hsame

/-! ### Inserting -/

/-- Either some document has an id equal to a value, and then a first one, or none has. -/
theorem first_hasId_or_fresh (docs : List Document) (x : Json) :
    (∃ pre d post, docs = pre ++ d :: post ∧ (∀ d' ∈ pre, hasId d' x = false) ∧
        hasId d x = true) ∨
      ∀ d ∈ docs, hasId d x = false := by
  cases hfind : docs.find? (hasId · x) with
  | some d =>
    obtain ⟨hd, pre, post, hsplit, hpre⟩ := List.find?_eq_some_iff_append.mp hfind
    exact .inl ⟨pre, d, post, hsplit, fun d' hd' => by simpa using hpre d' hd', hd⟩
  | none => exact .inr fun d hd => by simpa using List.find?_eq_none.mp hfind d hd

/-- An upsert replaces the first document whose id equals the new one's. -/
theorem upsert_of_first {x : Json} {doc d : Document} {pre post : List Document}
    (hpre : ∀ d' ∈ pre, hasId d' x = false) (hd : hasId d x = true) :
    upsert x doc (pre ++ d :: post) = pre ++ doc :: post := by
  induction pre with
  | nil => simp [upsert, hd]
  | cons a rest ih =>
    simp only [List.cons_append, upsert, hpre a List.mem_cons_self, Bool.false_eq_true, if_false,
      ih fun d' hd' => hpre d' (List.mem_cons_of_mem a hd')]

theorem get?_append_id {o : Document} (h : Object.get? o Document.idField = none) (x : Json) :
    Object.get? (o ++ [(Document.idField, x)]) Document.idField = some x := by
  simp only [Object.get?, List.find?_append] at h ⊢
  simp [Option.map_eq_none_iff.mp h]

/-- Inserting an object stores it, with the minted id appended when it has none, in place of
the first document whose id equals its own or else last, and returns its id. -/
theorem insert_obj (s : MemoryStore) (mint : Nat → Json) (c : String) (o : Document) :
    ∃ x o' issued, ((Object.get? o Document.idField = some x ∧ o' = o) ∨
        (Object.get? o Document.idField = none ∧ x = mint s.issued ∧
          o' = o ++ [(Document.idField, x)])) ∧
      s.insert mint c (.obj o) = .ok (⟨Keyed.insert c (upsert x o' (s.docs c)) s.collections, issued⟩, x) := by
  cases hid : Object.get? o Document.idField with
  | some x => exact ⟨x, o, s.issued, .inl ⟨rfl, rfl⟩, by simp [insert, hid]⟩
  | none =>
    exact ⟨mint s.issued, o ++ [(Document.idField, mint s.issued)], s.issued + 1,
      .inr ⟨rfl, rfl, rfl⟩, by simp [insert, hid, MemoryStore.docs]⟩

theorem insert_of_not_obj (s : MemoryStore) (mint : Nat → Json) (c : String) {v : Json}
    (hv : ∀ o, v ≠ .obj o) :
    s.insert mint c v = .error (.store ("documents must be objects, got " ++ v.compact)) := by
  cases v with
  | obj o => exact absurd rfl (hv o)
  | _ => rfl

/-- The document an insert stores holds the id it returns. -/
theorem get?_stored {o o' : Document} {x minted : Json}
    (h : (Object.get? o Document.idField = some x ∧ o' = o) ∨
      (Object.get? o Document.idField = none ∧ x = minted ∧ o' = o ++ [(Document.idField, x)])) :
    Object.get? o' Document.idField = some x := by
  rcases h with ⟨hx, rfl⟩ | ⟨hnone, -, rfl⟩
  · exact hx
  · exact get?_append_id hnone x

/-- The id an insert stores has distinct keys when the object has and the minted one has. -/
theorem keysDistinct_stored {o o' : Document} {x minted : Json}
    (ho : Json.KeysDistinct (.obj o)) (hminted : minted.KeysDistinct)
    (h : (Object.get? o Document.idField = some x ∧ o' = o) ∨
      (Object.get? o Document.idField = none ∧ x = minted ∧ o' = o ++ [(Document.idField, x)])) :
    x.KeysDistinct := by
  rcases h with ⟨hx, -⟩ | ⟨-, rfl, -⟩
  · exact Json.keysDistinct_of_get? ho hx
  · exact hminted

/-- An upsert into well-kept documents keeps them well kept: a document replaced in place has an
id equal to the new one's, so the documents after it stay apart from the new one, and those
before it are apart since it is the first match. -/
theorem upsert_wellKept {docs : List Document} {x : Json} {doc : Document}
    (hids : ∀ d ∈ docs, ∃ y, Object.get? d Document.idField = some y ∧ y.KeysDistinct)
    (hapart : docs.Pairwise IdsApart) (hdoc : Object.get? doc Document.idField = some x)
    (hx : x.KeysDistinct) :
    (∀ d ∈ upsert x doc docs, ∃ y, Object.get? d Document.idField = some y ∧ y.KeysDistinct) ∧
      (upsert x doc docs).Pairwise IdsApart := by
  rcases first_hasId_or_fresh docs x with ⟨pre, d, post, rfl, hpre, hd⟩ | hfresh
  · rw [upsert_of_first hpre hd]
    obtain ⟨y, hy, hyx⟩ := hasId_iff.mp hd
    rw [List.pairwise_append, List.pairwise_cons] at hapart ⊢
    obtain ⟨hpre_apart, ⟨hafter, hpost_apart⟩, hbefore⟩ := hapart
    refine ⟨fun d' hd' => ?_, hpre_apart, ⟨fun b hb z hz => ?_, hpost_apart⟩, fun a ha b hb => ?_⟩
    · rcases List.mem_append.mp hd' with h | h
      · exact hids d' (by simp [h])
      · rcases List.mem_cons.mp h with rfl | h
        · exact ⟨x, hdoc, hx⟩
        · exact hids d' (by simp [h])
    · -- a later document equal to the new id would equal the replaced one's
      rw [Bool.eq_false_iff]
      intro hxz
      obtain ⟨x', hx', hx'z⟩ := hasId_iff.mp hxz
      rw [hdoc] at hx'
      cases hx'
      have hsame := hasId_iff.mpr ⟨y, hy, Json.equal_trans y hyx hx'z⟩
      rw [hafter b hb z hz] at hsame
      cases hsame
    · rcases List.mem_cons.mp hb with rfl | hb
      · intro z hz
        rw [hdoc] at hz
        cases hz
        exact hpre a ha
      · exact hbefore a ha b (List.mem_cons_of_mem d hb)
  · rw [upsert_of_fresh hfresh, List.pairwise_append]
    refine ⟨fun d' hd' => ?_, ⟨hapart, List.pairwise_singleton _ _, fun a ha b hb z hz => ?_⟩⟩
    · rcases List.mem_append.mp hd' with h | h
      · exact hids d' h
      · rw [List.mem_singleton.mp h]
        exact ⟨x, hdoc, hx⟩
    · rw [List.mem_singleton.mp hb, hdoc] at hz
      cases hz
      exact hfresh a ha

/-- Inserting a well-formed value into a well-kept store keeps it well kept. -/
theorem WellKept.insert {s s' : MemoryStore} {mint : Nat → Json} {c : String} {v x : Json}
    (hs : s.WellKept) (hv : v.KeysDistinct) (hmint : (mint s.issued).KeysDistinct)
    (h : s.insert mint c v = .ok (s', x)) : s'.WellKept := by
  cases v with
  | obj o =>
    obtain ⟨x', o', issued, hcase, heq⟩ := insert_obj s mint c o
    rw [heq] at h
    cases h
    obtain ⟨hids, hapart⟩ := upsert_wellKept (hs.has_id c) (hs.ids_apart c) (get?_stored hcase)
      (keysDistinct_stored hv hmint hcase)
    refine ⟨fun c' => ?_, fun c' => ?_⟩
    all_goals
      rw [docs_insert]
      split
      · subst c'
        assumption
    · exact hs.has_id c'
    · exact hs.ids_apart c'
  | _ => cases h

/-! ### Removing and clearing -/

/-- A removal keeps the documents whose id does not equal the value, tells whether there was
one, and leaves the other collections. -/
theorem remove_docs (s : MemoryStore) (c : String) (x : Json) :
    (s.remove c x).1.docs c = (s.docs c).filter (fun d => !hasId d x) ∧
      (∀ c', c' ≠ c → (s.remove c x).1.docs c' = s.docs c') ∧
      ((s.remove c x).2 = true ↔ ∃ d ∈ s.docs c, hasId d x = true) := by
  unfold remove
  cases hget : Keyed.get? s.collections c with
  | none => simp [MemoryStore.docs, hget]
  | some docs =>
    have hdocs : s.docs c = docs := by simp [MemoryStore.docs, hget]
    simp only [hdocs]
    refine ⟨by simp [docs_insert], fun c' hc' => by simp [docs_insert, hc'], ?_⟩
    -- the list got shorter exactly when a document was dropped
    have hle := List.length_filter_le (fun d => !hasId d x) docs
    have hshorter : (docs.filter fun d => !hasId d x).length ≠ docs.length ↔
        (docs.filter fun d => !hasId d x).length < docs.length :=
      ⟨fun h => lt_of_le_of_ne hle h, ne_of_lt⟩
    rw [bne_iff_ne, hshorter, List.length_filter_lt_length_iff_exists]
    simp

/-- A store whose collections each hold a sublist of what a well-kept store's hold is well
kept: dropping documents keeps every id and keeps the rest apart. -/
theorem WellKept.of_sublist {s s' : MemoryStore} (hs : s.WellKept)
    (h : ∀ c, (s'.docs c).Sublist (s.docs c)) : s'.WellKept :=
  ⟨fun c d hd => hs.has_id c d ((h c).subset hd), fun c => (hs.ids_apart c).sublist (h c)⟩

theorem WellKept.remove {s : MemoryStore} (hs : s.WellKept) (c : String) (x : Json) :
    (s.remove c x).1.WellKept := by
  obtain ⟨hc, hother, -⟩ := remove_docs s c x
  refine hs.of_sublist fun c' => ?_
  by_cases hc' : c' = c
  · subst c'
    rw [hc]
    exact List.filter_sublist
  · rw [hother c' hc']

theorem clear_docs (s : MemoryStore) (c : String) :
    (s.clear c).docs c = [] ∧ ∀ c', c' ≠ c → (s.clear c).docs c' = s.docs c' := by
  refine ⟨by simp [clear, MemoryStore.docs, Keyed.get?_filter_ne_self], fun c' hc' => ?_⟩
  simp [clear, MemoryStore.docs, Keyed.get?_filter_ne _ hc']

theorem WellKept.clear {s : MemoryStore} (hs : s.WellKept) (c : String) : (s.clear c).WellKept := by
  obtain ⟨hc, hother⟩ := clear_docs s c
  refine hs.of_sublist fun c' => ?_
  by_cases hc' : c' = c
  · subst c'
    rw [hc]
    exact List.nil_sublist _
  · rw [hother c' hc']

/-! ### Runs of operations -/

/-- An operation that changes a store. -/
inductive Op where
  | insert (collection : String) (doc : Json)
  | insertMany (collection : String) (docs : List Json)
  | remove (collection : String) (id : Json)
  | clear (collection : String)

/-- The values an operation brings in are JSON values as a reader or a builder makes them: every
object, at every depth, has distinct keys. -/
def Op.WellFormed : Op → Prop
  | .insert _ doc => doc.KeysDistinct
  | .insertMany _ docs => ∀ d ∈ docs, d.KeysDistinct
  | .remove _ _ | .clear _ => True

/-- The store after an operation; a failed insert leaves it as it was. -/
def perform (mint : Nat → Json) (s : MemoryStore) : Op → MemoryStore
  | .insert c doc =>
    match s.insert mint c doc with
    | .ok (s', _) => s'
    | .error _ => s
  | .insertMany c docs => (s.insertMany mint c docs).1
  | .remove c id => (s.remove c id).1
  | .clear c => s.clear c

/-- The store after a run of operations, in order. -/
def run (mint : Nat → Json) (s : MemoryStore) (ops : List Op) : MemoryStore :=
  ops.foldl (perform mint) s

section Run

variable {mint : Nat → Json}

theorem WellKept.insertMany (hmint : ∀ n, (mint n).KeysDistinct) (c : String) :
    ∀ {s : MemoryStore} {ds : List Json}, s.WellKept → (∀ d ∈ ds, d.KeysDistinct) →
      (s.insertMany mint c ds).1.WellKept
  | _, [], hs, _ => hs
  | s, d :: rest, hs, hds => by
    simp only [MemoryStore.insertMany]
    cases h : s.insert mint c d with
    | ok r =>
      exact WellKept.insertMany hmint c (hs.insert (hds d List.mem_cons_self) (hmint _) h)
        fun d' hd' => hds d' (List.mem_cons_of_mem d hd')
    | error e => exact hs

/-- One operation keeps a store well kept. -/
theorem WellKept.perform (hmint : ∀ n, (mint n).KeysDistinct) {s : MemoryStore} (hs : s.WellKept)
    {op : Op} (hop : op.WellFormed) : (s.perform mint op).WellKept := by
  cases op with
  | insert c doc =>
    simp only [MemoryStore.perform]
    cases h : s.insert mint c doc with
    | ok r => exact hs.insert hop (hmint _) h
    | error e => exact hs
  | insertMany c docs => exact WellKept.insertMany hmint c hs hop
  | remove c x => exact hs.remove c x
  | clear c => exact hs.clear c

/-- A run of well-formed operations keeps a store well kept. -/
theorem WellKept.run (hmint : ∀ n, (mint n).KeysDistinct) :
    ∀ {s : MemoryStore} {ops : List Op}, s.WellKept → (∀ op ∈ ops, op.WellFormed) →
      (s.run mint ops).WellKept
  | _, [], hs, _ => hs
  | s, op :: rest, hs, hops =>
    @WellKept.run hmint (s.perform mint op) rest
      (hs.perform hmint (hops op List.mem_cons_self))
      fun op' hop' => hops op' (List.mem_cons_of_mem op hop')

theorem wellKept_empty : (({} : MemoryStore)).WellKept :=
  ⟨fun _ d hd => by simp [MemoryStore.docs, Keyed.get?] at hd, fun _ => by simp [MemoryStore.docs, Keyed.get?]⟩

/-- A batch of inserts of objects is the run of their inserts, and the batch goes on with what
follows them. -/
theorem insertMany_append_of_objects (c : String) :
    ∀ (s : MemoryStore) {pre : List Json} (tail : List Json), (∀ d ∈ pre, ∃ o, d = .obj o) →
      s.insertMany mint c (pre ++ tail) = (s.run mint (pre.map (.insert c))).insertMany mint c tail
  | s, [], tail, _ => rfl
  | s, d :: rest, tail, hpre => by
    obtain ⟨o, rfl⟩ := hpre d List.mem_cons_self
    obtain ⟨x, o', issued, -, heq⟩ := insert_obj s mint c o
    simp only [List.cons_append, MemoryStore.insertMany, heq, List.map_cons, MemoryStore.run,
      List.foldl_cons, MemoryStore.perform]
    exact insertMany_append_of_objects c _ tail fun d' hd' => hpre d' (List.mem_cons_of_mem _ hd')

end Run

/-! ### What each operation does -/

/-- Inserting an object: the document stored is the object, given the minted id when it has
none, and its id is returned; it takes the place of the one document whose id equals its own,
or else goes last; other collections are untouched. -/
def InsertsInPlace (s : MemoryStore) (mint : Nat → Json) (c : String) (o : Document) : Prop :=
  ∃ s' x o', s.insert mint c (.obj o) = .ok (s', x) ∧ Object.get? o' Document.idField = some x ∧
    ((Object.get? o Document.idField = some x ∧ o' = o) ∨
      (Object.get? o Document.idField = none ∧ x = mint s.issued ∧
        o' = o ++ [(Document.idField, x)])) ∧
    ((∃ pre d post, s.docs c = pre ++ d :: post ∧ hasId d x = true ∧
        (∀ d' ∈ pre ++ post, hasId d' x = false) ∧ s'.docs c = pre ++ o' :: post) ∨
      ((∀ d ∈ s.docs c, hasId d x = false) ∧ s'.docs c = s.docs c ++ [o'])) ∧
    ∀ c', c' ≠ c → s'.docs c' = s.docs c'

/-- Removing by id: it tells whether a document with that id was held, and takes out that one
document, the others keeping their order; other collections are untouched. -/
def RemovesOne (s : MemoryStore) (c : String) (x : Json) : Prop :=
  ((s.remove c x).2 = true ↔ ∃ d ∈ s.docs c, hasId d x = true) ∧
    ((∃ pre d post, s.docs c = pre ++ d :: post ∧ hasId d x = true ∧
        (∀ d' ∈ pre ++ post, hasId d' x = false) ∧ (s.remove c x).1.docs c = pre ++ post) ∨
      ((∀ d ∈ s.docs c, hasId d x = false) ∧ (s.remove c x).1.docs c = s.docs c)) ∧
    ∀ c', c' ≠ c → (s.remove c x).1.docs c' = s.docs c'

theorem WellKept.insertsInPlace {s : MemoryStore} (hs : s.WellKept) (mint : Nat → Json)
    (c : String) (o : Document) : s.InsertsInPlace mint c o := by
  obtain ⟨x, o', issued, hcase, heq⟩ := insert_obj s mint c o
  refine ⟨_, x, o', heq, get?_stored hcase, hcase, ?_, fun c' hc' => by simp [docs_insert, hc']⟩
  rw [docs_insert, if_pos rfl]
  rcases first_hasId_or_fresh (s.docs c) x with ⟨pre, d, post, hsplit, hpre, hd⟩ | hfresh
  · refine .inl ⟨pre, d, post, hsplit, hd, hasId_unique (hs.has_id c) (hs.ids_apart c) hsplit hd, ?_⟩
    rw [hsplit, upsert_of_first hpre hd]
  · exact .inr ⟨hfresh, upsert_of_fresh hfresh⟩

theorem WellKept.removesOne {s : MemoryStore} (hs : s.WellKept) (c : String) (x : Json) :
    s.RemovesOne c x := by
  obtain ⟨hkept, hother, hremoved⟩ := remove_docs s c x
  refine ⟨hremoved, ?_, hother⟩
  rw [hkept]
  rcases first_hasId_or_fresh (s.docs c) x with ⟨pre, d, post, hsplit, -, hd⟩ | hfresh
  · have honly := hasId_unique (hs.has_id c) (hs.ids_apart c) hsplit hd
    refine .inl ⟨pre, d, post, hsplit, hd, honly, ?_⟩
    -- the filter drops `d` and keeps every other document
    have hkeep : ∀ d' ∈ pre ++ post, (!hasId d' x) = true := fun d' hd' => by simp [honly d' hd']
    rw [hsplit, List.filter_append, List.filter_cons, hd]
    simp only [Bool.not_true, Bool.false_eq_true, if_false]
    rw [List.filter_eq_self.mpr fun d' hd' => hkeep d' (List.mem_append_left _ hd'),
      List.filter_eq_self.mpr fun d' hd' => hkeep d' (List.mem_append_right _ hd')]
  · exact .inr ⟨hfresh, List.filter_eq_self.mpr fun d hd => by simp [hfresh d hd]⟩

/-- Every store reached from the empty one keeps one document per id in each collection, and
at it an insert replaces in place or appends, a non-object fails, a batch keeps its prefix, a
removal takes out the one matching document and a clear empties one collection. -/
theorem run_keeps_one_document_per_id {mint : Nat → Json} (hmint : ∀ n, (mint n).KeysDistinct)
    {ops : List Op} (hops : ∀ op ∈ ops, op.WellFormed) :
    let s := run mint {} ops
    s.WellKept ∧
      (∀ c o, s.InsertsInPlace mint c o) ∧
      (∀ c v, (∀ o, v ≠ .obj o) →
        s.insert mint c v = .error (.store ("documents must be objects, got " ++ v.compact))) ∧
      (∀ c pre v rest, (∀ d ∈ pre, ∃ o, d = .obj o) → (∀ o, v ≠ .obj o) →
        s.insertMany mint c (pre ++ v :: rest) =
          (s.run mint (pre.map (.insert c)),
            some (.store ("documents must be objects, got " ++ v.compact)))) ∧
      (∀ c x, s.RemovesOne c x) ∧
      (∀ c, (s.clear c).docs c = [] ∧ ∀ c', c' ≠ c → (s.clear c).docs c' = s.docs c') ∧
      (∀ c, s.size c = (s.docs c).length) := by
  intro s
  have hs : s.WellKept := WellKept.run hmint wellKept_empty hops
  refine ⟨hs, hs.insertsInPlace mint, fun c v hv => insert_of_not_obj s mint c hv,
    fun c pre v rest hpre hv => ?_, hs.removesOne, clear_docs s, fun c => rfl⟩
  rw [insertMany_append_of_objects c s (v :: rest) hpre]
  simp [MemoryStore.insertMany, insert_of_not_obj _ mint c hv]

/-- Two users inserted, one of them given a minted id, and one removed. -/
theorem run_keeps_one_document_per_id_users :
    let ops := [Op.insert "users" (.obj [("_id", .str "u1"), ("name", .str "Ada")]),
      Op.insert "users" (.obj [("name", .str "Alan")]), Op.remove "users" (.str "u1")]
    (∀ n, (Json.ofNat n).KeysDistinct) ∧ (∀ op ∈ ops, op.WellFormed) ∧
      (run Json.ofNat {} ops).WellKept := by
  intro ops
  have hmint : ∀ n, (Json.ofNat n).KeysDistinct := fun n => trivial
  have hops : ∀ op ∈ ops, op.WellFormed := by
    simp [ops, Op.WellFormed, Json.KeysDistinct, Json.entriesKeysDistinct]
  exact ⟨hmint, hops, (run_keeps_one_document_per_id hmint hops).1⟩

end MemoryStore

end DocQuery
