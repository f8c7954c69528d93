import Mathlib
import DocQuery.Document

/-!
# Projections of documents

A projection copies the values a document holds at the requested paths into a new document.
When every object has distinct keys, a projection is a part of the document (`Json.Below`), and
a path once copied reads back the document's value whatever is copied after it. So projecting a
projection to some of its fields is projecting the document (`Document.project_project`): a
store may read more fields than asked, as long as the caller cuts them down.
-/

namespace DocQuery

namespace Json

mutual
/-- Every object of the value, at every depth, has distinct keys. -/
def KeysDistinct : Json → Prop
  | .arr items => itemsKeysDistinct items
  | .obj entries => (entries.map (·.1)).Nodup ∧ entriesKeysDistinct entries
  | _ => True

/-- Every item of a list has distinct keys in all its objects. -/
def itemsKeysDistinct : List Json → Prop
  | [] => True
  | v :: rest => KeysDistinct v ∧ itemsKeysDistinct rest

/-- Every value of a list of entries has distinct keys in all its objects. -/
def entriesKeysDistinct : List (String × Json) → Prop
  | [] => True
  | (_, v) :: rest => KeysDistinct v ∧ entriesKeysDistinct rest
end

theorem entriesKeysDistinct_iff {es : List (String × Json)} :
    entriesKeysDistinct es ↔ ∀ e ∈ es, KeysDistinct e.2 := by
  induction es with
  | nil => simp [entriesKeysDistinct]
  | cons e rest ih =>
    obtain ⟨k, v⟩ := e
    simp [entriesKeysDistinct, ih]

mutual
/-- The first value is the second with some object entries left out, at any depth: each key
of an object of the first is a key of the matching object of the second. -/
def Below : Json → Json → Prop
  | .obj o, w => ∃ o', w = .obj o' ∧ entriesBelow o o'
  | v, w => v = w

/-- Each entry of a list is below the value of its key in an object. -/
def entriesBelow : List (String × Json) → Object → Prop
  | [], _ => True
  | (k, v) :: rest, o' => (∃ w, Object.get? o' k = some w ∧ Below v w) ∧ entriesBelow rest o'
end

theorem entriesBelow_iff {es : List (String × Json)} {o : Object} :
    entriesBelow es o ↔ ∀ e ∈ es, ∃ w, Object.get? o e.1 = some w ∧ Below e.2 w := by
  induction es with
  | nil => simp [entriesBelow]
  | cons e rest ih =>
    obtain ⟨k, v⟩ := e
    simp [entriesBelow, ih]

@[simp] theorem below_obj_obj {o o' : Object} : Below (.obj o) (.obj o') ↔ entriesBelow o o' := by
  simp [Below]

/-- Below an object is only an object. -/
theorem Below.obj_of_obj {u : Json} {o' : Object} (h : Below u (.obj o')) :
    ∃ o, u = .obj o ∧ entriesBelow o o' := by
  cases u with
  | obj o => exact ⟨o, rfl, below_obj_obj.mp h⟩
  | _ => simp [Below] at h

end Json

namespace Object

theorem mem_of_get? {o : Object} {k : String} {v : Json} (h : o.get? k = some v) : (k, v) ∈ o := by
  simp only [get?, Option.map_eq_some_iff] at h
  obtain ⟨e, he, rfl⟩ := h
  have hk : e.1 = k := by simpa using List.find?_some he
  rw [← hk]
  exact List.mem_of_find?_eq_some he

theorem get?_of_mem {o : Object} {k : String} {v : Json} (hnodup : (o.map (·.1)).Nodup)
    (h : (k, v) ∈ o) : o.get? k = some v := by
  have hsome : (o.find? (·.1 == k)).isSome := List.find?_isSome.mpr ⟨(k, v), h, by simp⟩
  obtain ⟨e, he⟩ := Option.isSome_iff_exists.mp hsome
  have hek : e.1 = k := by simpa using List.find?_some he
  have heq : e = (k, v) :=
    List.inj_on_of_nodup_map hnodup (List.mem_of_find?_eq_some he) h hek
  simp [get?, he, heq]

theorem mem_set {o : Object} {k : String} {v : Json} {e : String × Json} (h : e ∈ o.set k v) :
    e = (k, v) ∨ e ∈ o := by
  unfold set at h
  split at h
  · obtain ⟨e', he', rfl⟩ := List.mem_map.mp h
    split <;> simp_all
  · simpa [or_comm] using h

theorem get?_set_ne (o : Object) {k k' : String} (h : k' ≠ k) (v : Json) :
    (o.set k v).get? k' = o.get? k' := by
  unfold set
  split
  · -- the entries rewritten are those of `k`, which a search for `k'` passes over
    have hp : ((·.1 == k') ∘ fun e : String × Json => if e.1 == k then (k, v) else e) =
        (·.1 == k') := by
      funext e
      by_cases hek : e.1 = k <;> simp [hek]
    simp only [get?, List.find?_map, hp]
    cases hf : o.find? (·.1 == k') with
    | none => rfl
    | some e =>
      have hek : e.1 = k' := by simpa using List.find?_some hf
      simp [hek, h]
  · simp [get?, List.find?_append, Ne.symm h]

/-- Setting a key to the value it has changes nothing, the keys being distinct. -/
theorem set_eq_self {o : Object} (hnodup : (o.map (·.1)).Nodup) {k : String} {v : Json}
    (h : o.get? k = some v) : o.set k v = o := by
  have hmem := mem_of_get? h
  have hany : o.any (·.1 == k) = true := List.any_eq_true.mpr ⟨(k, v), hmem, by simp⟩
  unfold set
  rw [if_pos hany]
  refine (List.map_congr_left (g := id) fun e he => ?_).trans (List.map_id o)
  split
  · rename_i hek
    exact (List.inj_on_of_nodup_map hnodup he hmem (by simpa using hek)).symm
  · rfl

theorem entriesBelow_set {o o' : Object} (h : Json.entriesBelow o o') {k : String} {v w : Json}
    (hw : o'.get? k = some w) (hv : Json.Below v w) : Json.entriesBelow (o.set k v) o' := by
  refine Json.entriesBelow_iff.mpr fun e he => ?_
  rcases mem_set he with rfl | he
  · exact ⟨w, hw, hv⟩
  · exact Json.entriesBelow_iff.mp h e he

end Object

namespace Json

theorem keysDistinct_of_get? {o : Object} (h : KeysDistinct (.obj o)) {k : String} {v : Json}
    (hk : Object.get? o k = some v) : v.KeysDistinct :=
  entriesKeysDistinct_iff.mp h.2 (k, v) (Object.mem_of_get? hk)

mutual
theorem below_refl : ∀ v : Json, v.KeysDistinct → Below v v
  | .obj o, h => below_obj_obj.mpr <| entriesBelow_iff.mpr fun e he =>
      ⟨e.2, Object.get?_of_mem h.1 he, entries_below_refl o h.2 e he⟩
  | .null, _ => rfl
  | .bool _, _ => rfl
  | .num _, _ => rfl
  | .str _, _ => rfl
  | .arr _, _ => rfl

theorem entries_below_refl : ∀ es : List (String × Json), entriesKeysDistinct es →
    ∀ e ∈ es, Below e.2 e.2
  | [], _, _, he => absurd he List.not_mem_nil
  | (_, v) :: rest, h, e, he => by
    rcases List.mem_cons.mp he with rfl | he
    · exact below_refl v h.1
    · exact entries_below_refl rest h.2 e he
end

/-- Where a part of an object and the object both hold a key, the part's value is below the
object's. -/
theorem entriesBelow.below_of_get? {o o' : Object} (h : entriesBelow o o') {k : String}
    {u w : Json} (hu : Object.get? o k = some u) (hw : Object.get? o' k = some w) : Below u w := by
  obtain ⟨w', hw', hbelow⟩ := entriesBelow_iff.mp h (k, u) (Object.mem_of_get? hu)
  rw [hw] at hw'
  cases hw'
  exact hbelow

end Json

namespace Document

open Json

@[simp] theorem getKeys?_nil (v : Json) : getKeys? v [] = some v := by
  cases v <;> rfl

theorem getKeys?_obj_cons (o : Object) (k : String) (rest : List String) :
    getKeys? (.obj o) (k :: rest) = (Object.get? o k).bind fun v => getKeys? v rest := rfl

/-- A path through a value reads nothing unless the value is an object. -/
theorem getKeys?_cons_eq_some {v x : Json} {k : String} {rest : List String}
    (h : getKeys? v (k :: rest) = some x) :
    ∃ o u, v = .obj o ∧ Object.get? o k = some u ∧ getKeys? u rest = some x := by
  cases v with
  | obj o =>
    obtain ⟨u, hu, hx⟩ := Option.bind_eq_some_iff.mp h
    exact ⟨o, u, rfl, hu, hx⟩
  | _ => simp [getKeys?] at h

/-- Whatever a value below another reads, the other reads too, with the first one's value
below it. -/
theorem getKeys?_of_below {u w x : Json} (h : Below u w) {ks : List String}
    (hx : getKeys? u ks = some x) : ∃ y, getKeys? w ks = some y ∧ Below x y := by
  induction ks generalizing u w with
  | nil =>
    cases Option.some.inj ((getKeys?_nil u).symm.trans hx)
    exact ⟨w, getKeys?_nil w, h⟩
  | cons k rest ih =>
    obtain ⟨o, u', rfl, hu', hx⟩ := getKeys?_cons_eq_some hx
    obtain ⟨o', rfl, hbelow⟩ : ∃ o', w = .obj o' ∧ entriesBelow o o' := h
    obtain ⟨w', hw', hbelow'⟩ := entriesBelow_iff.mp hbelow (k, u') (Object.mem_of_get? hu')
    obtain ⟨y, hy, hxy⟩ := ih hbelow' hx
    exact ⟨y, by rw [getKeys?_obj_cons, hw', Option.bind_some, hy], hxy⟩

theorem insertKeys_cons_cons (target : Document) (v : Json) (k r : String) (rest : List String) :
    insertKeys target v (k :: r :: rest) =
      match Object.get? target k with
      | none => Object.set target k (.obj (insertKeys [] v (r :: rest)))
      | some (.obj inner) => Object.set target k (.obj (insertKeys inner v (r :: rest)))
      | some _ => target := rfl

/-- Writing at a path the value the target already reads there changes nothing. -/
theorem insertKeys_of_getKeys? {t : Document} (ht : KeysDistinct (.obj t)) {v : Json}
    {ks : List String} (h : getKeys? (.obj t) ks = some v) : insertKeys t v ks = t := by
  induction ks generalizing t with
  | nil => rfl
  | cons k rest ih =>
    obtain ⟨_, u, ho, hu, hv⟩ := getKeys?_cons_eq_some h
    cases ho
    cases rest with
    | nil =>
      cases Option.some.inj ((getKeys?_nil u).symm.trans hv)
      exact Object.set_eq_self ht.1 hu
    | cons r rest =>
      obtain ⟨inner, u', rfl, -, -⟩ := getKeys?_cons_eq_some hv
      rw [insertKeys_cons_cons, hu]
      dsimp only
      rw [ih (keysDistinct_of_get? ht hu) hv]
      exact Object.set_eq_self ht.1 hu

/-- Writing a value the document reads at a path into a part of the document keeps it a
part of the document. -/
theorem entriesBelow_insertKeys {out d : Document} (hout : entriesBelow out d)
    (hd : KeysDistinct (.obj d)) {v : Json} {ks : List String}
    (h : getKeys? (.obj d) ks = some v) : entriesBelow (insertKeys out v ks) d := by
  induction ks generalizing out d with
  | nil => exact hout
  | cons k rest ih =>
    obtain ⟨_, w, ho, hw, hv⟩ := getKeys?_cons_eq_some h
    cases ho
    cases rest with
    | nil =>
      cases Option.some.inj ((getKeys?_nil w).symm.trans hv)
      exact Object.entriesBelow_set hout hw (below_refl _ (keysDistinct_of_get? hd hw))
    | cons r rest =>
      -- the document holds an object at `k`, where the write descends
      obtain ⟨inner, u, rfl, -, -⟩ := getKeys?_cons_eq_some hv
      have hinner := keysDistinct_of_get? hd hw
      rw [insertKeys_cons_cons]
      split
      · exact Object.entriesBelow_set hout hw (below_obj_obj.mpr (ih trivial hinner hv))
      · rename_i inner' hk
        exact Object.entriesBelow_set hout hw
          (below_obj_obj.mpr (ih (below_obj_obj.mp (hout.below_of_get? hk hw)) hinner hv))
      · exact hout

/-- A path written into a part of the document reads back the value written. -/
theorem getKeys?_insertKeys_self {out d : Document} (hout : entriesBelow out d) {v : Json}
    {ks : List String} (hks : ks ≠ []) (h : getKeys? (.obj d) ks = some v) :
    getKeys? (.obj (insertKeys out v ks)) ks = some v := by
  induction ks generalizing out d with
  | nil => exact absurd rfl hks
  | cons k rest ih =>
    obtain ⟨_, w, ho, hw, hv⟩ := getKeys?_cons_eq_some h
    cases ho
    cases rest with
    | nil =>
      cases Option.some.inj ((getKeys?_nil w).symm.trans hv)
      simp [insertKeys, getKeys?_obj_cons, Object.get?_set_self]
    | cons r rest =>
      obtain ⟨inner, u, rfl, -, -⟩ := getKeys?_cons_eq_some hv
      rw [insertKeys_cons_cons]
      split
      · rw [getKeys?_obj_cons, Object.get?_set_self, Option.bind_some]
        exact ih trivial (List.cons_ne_nil r rest) hv
      · rename_i inner' hk
        rw [getKeys?_obj_cons, Object.get?_set_self, Option.bind_some]
        exact ih (below_obj_obj.mp (hout.below_of_get? hk hw)) (List.cons_ne_nil r rest) hv
      · -- a value that is not an object cannot sit where the document has one
        rename_i u' hnot hk
        obtain ⟨o, rfl, -⟩ := (hout.below_of_get? hk hw).obj_of_obj
        exact absurd rfl (hnot o)

/-- A write of a value the document reads keeps every path that already read the document's
value reading it. -/
theorem getKeys?_insertKeys_of_eq {out d : Document} (hd : KeysDistinct (.obj d)) {v x : Json}
    {ks ks' : List String} (h : getKeys? (.obj d) ks = some v)
    (hout : getKeys? (.obj out) ks' = some x) (hdoc : getKeys? (.obj d) ks' = some x) :
    getKeys? (.obj (insertKeys out v ks)) ks' = some x := by
  induction ks generalizing out d ks' x with
  | nil => exact hout
  | cons k rest ih =>
    cases ks' with
    | nil =>
      -- the whole target reads the whole document, so the write changes nothing
      have hsame : out = d := by
        simpa using (getKeys?_nil _).symm.trans (hout.trans hdoc.symm) |>.trans (getKeys?_nil _)
      rw [hsame, insertKeys_of_getKeys? hd h]
      exact hdoc
    | cons k' rest' =>
      obtain ⟨_, w, ho, hw, hv⟩ := getKeys?_cons_eq_some h
      cases ho
      by_cases hk : k' = k
      · subst hk
        obtain ⟨_, u, ho, hu, hx⟩ := getKeys?_cons_eq_some hout
        cases ho
        obtain ⟨_, w', ho, hw', hx'⟩ := getKeys?_cons_eq_some hdoc
        cases ho
        rw [hw] at hw'
        cases hw'
        cases rest with
        | nil =>
          cases Option.some.inj ((getKeys?_nil w).symm.trans hv)
          simp [insertKeys, getKeys?_obj_cons, Object.get?_set_self, hx']
        | cons r rest =>
          obtain ⟨inner, y, rfl, -, -⟩ := getKeys?_cons_eq_some hv
          rw [insertKeys_cons_cons, hu]
          cases u with
          | obj inner' =>
            dsimp only
            rw [getKeys?_obj_cons, Object.get?_set_self, Option.bind_some]
            exact ih (keysDistinct_of_get? hd hw) hv hx hx'
          | _ => exact hout
      · have hread : ∀ t : Json, Object.get? (Object.set out k t) k' = Object.get? out k' :=
          fun t => Object.get?_set_ne out hk t
        cases rest with
        | nil => simpa [insertKeys, getKeys?_obj_cons, hread] using hout
        | cons r rest =>
          rw [insertKeys_cons_cons]
          rcases hget : Object.get? out k with _ | u
          · simpa [getKeys?_obj_cons, hread] using hout
          · cases u with
            | obj inner' => simpa [getKeys?_obj_cons, hread] using hout
            | _ => simpa using hout

/-! ## Projections -/

/-- One step of a projection: the value the document reads at a path, written into `out`. -/
def copyPath (doc out : Document) (f : String) : Document :=
  match doc.field? f with
  | some v => out.insertPath f v
  | none => out

theorem field?_eq_getKeys? (doc : Document) {f : String} (h : f.splitOn "." ≠ []) :
    doc.field? f = getKeys? (.obj doc) (f.splitOn ".") := by
  unfold field?
  cases hs : f.splitOn "." with
  | nil => exact absurd hs h
  | cons k rest => rfl

theorem splitOn_ne_nil_of_field? {doc : Document} {f : String} {v : Json}
    (h : doc.field? f = some v) : f.splitOn "." ≠ [] := by
  intro hnil
  simp [field?, hnil] at h

/-- `_id` is a path of one key. -/
theorem splitOn_idField : idField.splitOn "." = [idField] := by
  simp +decide [idField, String.splitOn, String.splitOnAux]

/-- A projection starts from `_id` as if it were its first path. -/
theorem project_eq_foldl (doc : Document) (fields : List String) :
    doc.project fields = (idField :: fields).foldl (copyPath doc) [] := by
  have hstart : copyPath doc [] idField =
      match Object.get? doc idField with
      | some id => [(idField, id)]
      | none => [] := by
    unfold copyPath field? insertPath
    rw [splitOn_idField]
    cases hget : Object.get? doc idField <;> simp [hget, insertKeys, Object.set]
  rw [List.foldl_cons, hstart]
  rfl

/-- The state of a projection after some paths: a part of the document that reads the
document's value at each of them. -/
def Copied (doc out : Document) (paths : List String) : Prop :=
  entriesBelow out doc ∧ ∀ f ∈ paths, ∀ v, doc.field? f = some v → out.field? f = some v

variable {doc : Document}

/-- One step of a projection copies its path and keeps every copied path. -/
theorem Copied.step (hd : KeysDistinct (.obj doc)) {out : Document} {paths : List String}
    (h : Copied doc out paths) (f : String) : Copied doc (copyPath doc out f) (f :: paths) := by
  unfold Document.copyPath
  cases hv : doc.field? f with
  | none =>
    refine ⟨h.1, fun g hg w hw => ?_⟩
    rcases List.mem_cons.mp hg with rfl | hg
    · rw [hv] at hw
      cases hw
    · exact h.2 g hg w hw
  | some v =>
    have hks := splitOn_ne_nil_of_field? hv
    have hread : getKeys? (.obj doc) (f.splitOn ".") = some v :=
      (field?_eq_getKeys? doc hks).symm.trans hv
    refine ⟨entriesBelow_insertKeys h.1 hd hread, fun g hg w hw => ?_⟩
    have hgks := splitOn_ne_nil_of_field? hw
    rw [field?_eq_getKeys? _ hgks]
    rcases List.mem_cons.mp hg with rfl | hg
    · rw [hv] at hw
      cases hw
      exact getKeys?_insertKeys_self h.1 hks hread
    · have hout := h.2 g hg w hw
      rw [field?_eq_getKeys? _ hgks] at hw hout
      exact getKeys?_insertKeys_of_eq hd hread hout hw

/-- Copying a list of paths keeps every path copied before and copies each of them. -/
theorem Copied.foldl (hd : KeysDistinct (.obj doc)) {out : Document} {paths : List String}
    (h : Copied doc out paths) (fs : List String) :
    Copied doc (fs.foldl (copyPath doc) out) (fs.reverse ++ paths) := by
  induction fs generalizing out paths with
  | nil => exact h
  | cons f fs ih =>
    rw [List.foldl_cons, List.reverse_cons, List.append_assoc]
    exact ih (h.step hd f)

/-- A projection reads what the document reads at `_id` and at every projected path. -/
theorem field?_project (hd : KeysDistinct (.obj doc)) {fields : List String} {f : String}
    (hf : f ∈ idField :: fields) : (doc.project fields).field? f = doc.field? f := by
  have hc := Copied.foldl hd (⟨trivial, by simp⟩ : Copied doc [] []) (idField :: fields)
  rw [← project_eq_foldl, List.append_nil] at hc
  cases hv : doc.field? f with
  | some v => exact hc.2 f (List.mem_reverse.mpr hf) v hv
  | none =>
    -- the projection is a part of the document, so it cannot read a path the document lacks
    cases hp : (doc.project fields).field? f with
    | none => rfl
    | some x =>
      have hks := splitOn_ne_nil_of_field? hp
      rw [field?_eq_getKeys? _ hks] at hp hv
      obtain ⟨y, hy, -⟩ := getKeys?_of_below (below_obj_obj.mpr hc.1) hp
      rw [hv] at hy
      cases hy

theorem foldl_copyPath_congr {d₁ d₂ : Document} {paths : List String}
    (h : ∀ f ∈ paths, d₁.field? f = d₂.field? f) (out : Document) :
    paths.foldl (copyPath d₁) out = paths.foldl (copyPath d₂) out := by
  induction paths generalizing out with
  | nil => rfl
  | cons f fs ih =>
    have hstep : copyPath d₁ out f = copyPath d₂ out f := by
      unfold copyPath
      rw [h f List.mem_cons_self]
    rw [List.foldl_cons, List.foldl_cons, hstep]
    exact ih (fun g hg => h g (List.mem_cons_of_mem f hg)) _

/-- Two documents that read the same at `_id` and at every path project the same. -/
theorem project_congr {d₁ d₂ : Document} {fields : List String}
    (h : ∀ f ∈ idField :: fields, d₁.field? f = d₂.field? f) :
    d₁.project fields = d₂.project fields := by
  rw [project_eq_foldl, project_eq_foldl]
  exact foldl_copyPath_congr h []

/-- Projecting a projection to some of its fields is projecting the document itself. -/
theorem project_project (hd : KeysDistinct (.obj doc)) {F G : List String}
    (hFG : ∀ f ∈ F, f ∈ G) : (doc.project G).project F = doc.project F := by
  refine project_congr fun f hf => field?_project hd ?_
  rcases List.mem_cons.mp hf with rfl | hf
  · exact List.mem_cons_self
  · exact List.mem_cons_of_mem _ (hFG f hf)

/-- Projecting a document to the requested fields followed by others, and then to the requested
fields, is projecting it to the requested fields, key order included; in between, every field
reads what it reads in the document. -/
theorem project_append_fields (hd : KeysDistinct (.obj doc)) (F E : List String) :
    (doc.project (F ++ E)).project F = doc.project F ∧
      ∀ g ∈ F ++ E, (doc.project (F ++ E)).field? g = doc.field? g :=
  ⟨project_project hd fun _ hf => List.mem_append_left E hf,
    fun _ hg => field?_project hd (List.mem_cons_of_mem _ hg)⟩

/-- A post read with its title and author's name, and with the author's id and the whole
author as join fields, cuts back to the title and the author's name. -/
theorem project_append_fields_post :
    let post : Document := [("_id", .str "p1"), ("title", .str "One"),
      ("author", .obj [("name", .str "Ada"), ("id", .str "u1")]), ("tags", .arr [])]
    KeysDistinct (.obj post) ∧
      ((post.project (["title", "author.name"] ++ ["author.id", "author"])).project
          ["title", "author.name"] = post.project ["title", "author.name"] ∧
        ∀ g ∈ ["title", "author.name"] ++ ["author.id", "author"],
          (post.project (["title", "author.name"] ++ ["author.id", "author"])).field? g =
            post.field? g) := by
  intro post
  have hd : KeysDistinct (.obj post) := by
    simp [post, KeysDistinct, entriesKeysDistinct, itemsKeysDistinct]
  exact ⟨hd, project_append_fields hd _ _⟩

end Document

end DocQuery
