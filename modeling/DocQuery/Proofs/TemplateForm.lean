import Mathlib
import DocQuery.Proofs.Filling

/-!
# The normal form of templates read from JSON

Reading a value as a template collapses every object or array whose members are all literals
into one literal, so the result is in normal form (`Template.Normal`). It is a literal exactly
when the value has no placeholder, the literal then being the value with `$$` unescaped, and its
parameter names are the value's placeholders in order (`Template.ofJson_normal_form`).
-/

namespace DocQuery

namespace Json

/-- The value with one `$` dropped from every string that starts with `$$`: filled from no
parameters, every placeholder keeps its text. -/
def unescaped (v : Json) : Json := v.fill Params.empty

@[simp] theorem unescaped_str (s : String) : (Json.str s).unescaped = .str (unescape s) := by
  by_cases hs : IsPlaceholder s
  · -- a placeholder does not start with `$$`, so unescaping keeps it too
    have hkeep : unescape s = s := by
      simp only [IsPlaceholder, Bool.and_eq_true, bne_iff_ne, ne_eq] at hs
      simp [unescape, hs.2]
    simp [unescaped, fill, hs, hkeep, Params.get?, Params.empty, Keyed.get?]
  · simp [unescaped, fill, hs]

theorem unescaped_arr (xs : List Json) : (Json.arr xs).unescaped = .arr (xs.map unescaped) := by
  simp [unescaped, fill, fillItems_eq]

theorem unescaped_obj (es : List (String × Json)) :
    (Json.obj es).unescaped = .obj (es.map fun e => (e.1, e.2.unescaped)) := by
  simp [unescaped, fill, fillEntries_eq]

end Json

namespace Template

mutual
/-- A template in normal form: every object and array node has a parameter below it, and each of
its members without one is a single literal. -/
def Normal : Template → Prop
  | .literal _ => True
  | .param _ _ => True
  | .object es => entriesNormal es ∧ entryParamNames es ≠ []
  | .array ts => itemsNormal ts ∧ itemParamNames ts ≠ []

/-- Each member is in normal form, and a literal when it has no parameter. -/
def itemsNormal : List Template → Prop
  | [] => True
  | t :: ts => (Normal t ∧ (t.paramNames = [] → t.literal?.isSome)) ∧ itemsNormal ts

/-- Each entry's template is in normal form, and a literal when it has no parameter. -/
def entriesNormal : List (String × Template) → Prop
  | [] => True
  | (_, t) :: es => (Normal t ∧ (t.paramNames = [] → t.literal?.isSome)) ∧ entriesNormal es
end

/-- What reading a value gives: its placeholders as parameter names, the value unescaped as one
literal when it has none, and a template in normal form. -/
structure ReadsBack (v : Json) (t : Template) : Prop where
  paramNames_eq : t.paramNames = v.placeholders
  literal_of_nil : v.placeholders = [] → t = .literal v.unescaped
  normal : t.Normal

/-- A template that reads a value back is a literal exactly when the value has no placeholder. -/
theorem ReadsBack.literal?_isSome_iff {v : Json} {t : Template} (h : ReadsBack v t) :
    t.literal?.isSome ↔ v.placeholders = [] := by
  constructor
  · intro hlit
    cases t with
    | literal u => simpa [paramNames] using h.paramNames_eq.symm
    | _ => simp [literal?] at hlit
  · intro hnil
    simp [h.literal_of_nil hnil, literal?]

theorem itemsNormal_iff {ts : List Template} :
    itemsNormal ts ↔ ∀ t ∈ ts, Normal t ∧ (t.paramNames = [] → t.literal?.isSome) := by
  induction ts with
  | nil => simp [itemsNormal]
  | cons t ts ih => simp [itemsNormal, ih]

theorem entriesNormal_iff {es : List (String × Template)} :
    entriesNormal es ↔ ∀ e ∈ es, Normal e.2 ∧ (e.2.paramNames = [] → e.2.literal?.isSome) := by
  induction es with
  | nil => simp [entriesNormal]
  | cons e es ih =>
    obtain ⟨k, t⟩ := e
    simp [entriesNormal, ih]

theorem itemParamNames_eq (ts : List Template) : itemParamNames ts = ts.flatMap paramNames := by
  induction ts with
  | nil => rfl
  | cons t ts ih => simp [itemParamNames, ih]

theorem entryParamNames_eq (es : List (String × Template)) :
    entryParamNames es = es.flatMap fun e => e.2.paramNames := by
  induction es with
  | nil => rfl
  | cons e es ih =>
    obtain ⟨k, t⟩ := e
    simp [entryParamNames, ih]

/-- Members that each read their value back are all literals exactly when no value has a
placeholder, and their literals are then the values unescaped. -/
theorem mapM_literal?_of_readsBack {α β : Type} {xs : List α} {val : α → Json}
    {tmpl : α → Template} {mk : α → Json → β} (hread : ∀ x ∈ xs, ReadsBack (val x) (tmpl x)) :
    xs.mapM (fun x => (tmpl x).literal?.map (mk x)) =
      if xs.flatMap (fun x => (val x).placeholders) = [] then
        some (xs.map fun x => mk x (val x).unescaped)
      else none := by
  induction xs with
  | nil => rfl
  | cons x xs ih =>
    have hx := hread x (by simp)
    rw [List.mapM_cons, ih fun y hy => hread y (by simp [hy]), List.flatMap_cons]
    by_cases hnil : (val x).placeholders = []
    · simp [hx.literal_of_nil hnil, literal?, hnil]
      split <;> rfl
    · have hnone : (tmpl x).literal? = none := by
        cases ht : (tmpl x).literal? with
        | none => rfl
        | some u => exact absurd (hx.literal?_isSome_iff.mp (by simp [ht])) hnil
      simp [hnone, hnil]

/-- A member list that reads its values back is in normal form member by member. -/
theorem members_normal {α : Type} {xs : List α} {val : α → Json} {tmpl : α → Template}
    (hread : ∀ x ∈ xs, ReadsBack (val x) (tmpl x)) :
    ∀ x ∈ xs, Normal (tmpl x) ∧ ((tmpl x).paramNames = [] → (tmpl x).literal?.isSome) := by
  intro x hx
  have h := hread x hx
  exact ⟨h.normal, fun hnil => h.literal?_isSome_iff.mpr (h.paramNames_eq ▸ hnil)⟩

theorem ofString_readsBack (s : String) : ReadsBack (.str s) (ofString s) := by
  rw [ofString_eq]
  by_cases hs : Json.IsPlaceholder s
  · exact ⟨by simp [hs, paramNames, Json.placeholders], by simp [hs, Json.placeholders],
      by simp [hs, Normal]⟩
  · exact ⟨by simp [hs, paramNames, Json.placeholders], by simp [hs],
      by simp [hs, Normal]⟩

/-- An array whose items read their values back is read as one literal when no item has a
placeholder, and as an array node of its items otherwise. -/
theorem ofJson_arr_eq {xs : List Json} (hread : ∀ x ∈ xs, ReadsBack x (ofJson x)) :
    ofJson (.arr xs) = if xs.flatMap Json.placeholders = [] then
      .literal (.arr (xs.map Json.unescaped)) else .array (xs.map ofJson) := by
  have hmapM : (xs.map ofJson).mapM literal? = if xs.flatMap Json.placeholders = [] then
      some (xs.map Json.unescaped) else none := by
    simpa [List.mapM_map, Function.comp_def] using
      @mapM_literal?_of_readsBack _ _ xs id ofJson (fun _ v => v) hread
  simp only [ofJson, ofJsonItems_eq]
  rw [hmapM]
  split_ifs <;> rfl

/-- An object whose values read back is read as one literal when no value has a placeholder,
and as an object node of its entries otherwise. -/
theorem ofJson_obj_eq {es : List (String × Json)} (hread : ∀ e ∈ es, ReadsBack e.2 (ofJson e.2)) :
    ofJson (.obj es) = if es.flatMap (fun e => e.2.placeholders) = [] then
      .literal (.obj (es.map fun e => (e.1, e.2.unescaped)))
    else .object (es.map fun e => (e.1, ofJson e.2)) := by
  have hmapM : (es.map fun e => (e.1, ofJson e.2)).mapM (fun e => e.2.literal?.map (e.1, ·)) =
      if es.flatMap (fun e => e.2.placeholders) = [] then
        some (es.map fun e => (e.1, e.2.unescaped))
      else none := by
    simpa [List.mapM_map, Function.comp_def] using
      @mapM_literal?_of_readsBack _ _ es (·.2) (fun e => ofJson e.2) (fun e v => (e.1, v)) hread
  simp only [ofJson, ofJsonEntries_eq]
  rw [hmapM]
  split_ifs <;> rfl

theorem arr_readsBack {xs : List Json} (hread : ∀ x ∈ xs, ReadsBack x (ofJson x)) :
    ReadsBack (.arr xs) (ofJson (.arr xs)) := by
  have hplace : (Json.arr xs).placeholders = xs.flatMap Json.placeholders := by
    simp [Json.placeholders, Json.itemPlaceholders_eq]
  have hnames : (xs.map ofJson).flatMap paramNames = xs.flatMap Json.placeholders := by
    rw [List.flatMap_map]
    exact List.flatMap_congr fun x hx => (hread x hx).paramNames_eq
  rw [ofJson_arr_eq hread]
  split_ifs with hnil
  · exact ⟨by simp [paramNames, hplace, hnil], fun _ => by rw [Json.unescaped_arr], trivial⟩
  · refine ⟨by simp [paramNames, itemParamNames_eq, hplace, hnames],
      fun h => absurd (hplace ▸ h) hnil, ?_⟩
    exact ⟨itemsNormal_iff.mpr (List.forall_mem_map.mpr (@members_normal _ xs id ofJson hread)),
      by rwa [itemParamNames_eq, hnames]⟩

theorem obj_readsBack {es : List (String × Json)} (hread : ∀ e ∈ es, ReadsBack e.2 (ofJson e.2)) :
    ReadsBack (.obj es) (ofJson (.obj es)) := by
  have hplace : (Json.obj es).placeholders = es.flatMap fun e => e.2.placeholders := by
    simp [Json.placeholders, Json.entryPlaceholders_eq]
  have hnames : (es.map fun e => (e.1, ofJson e.2)).flatMap (fun e => e.2.paramNames) =
      es.flatMap fun e => e.2.placeholders := by
    rw [List.flatMap_map]
    exact List.flatMap_congr fun e he => (hread e he).paramNames_eq
  rw [ofJson_obj_eq hread]
  split_ifs with hnil
  · exact ⟨by simp [paramNames, hplace, hnil], fun _ => by rw [Json.unescaped_obj], trivial⟩
  · refine ⟨by simp [paramNames, entryParamNames_eq, hplace, hnames],
      fun h => absurd (hplace ▸ h) hnil, ?_⟩
    exact ⟨entriesNormal_iff.mpr (List.forall_mem_map.mpr
        (@members_normal _ es (·.2) (fun e => ofJson e.2) hread)),
      by rwa [entryParamNames_eq, hnames]⟩

mutual
/-- Every value reads back through its template. -/
theorem ofJson_readsBack : ∀ v : Json, ReadsBack v (ofJson v)
  | .null => ⟨rfl, fun _ => rfl, trivial⟩
  | .bool _ => ⟨rfl, fun _ => rfl, trivial⟩
  | .num _ => ⟨rfl, fun _ => rfl, trivial⟩
  | .str s => ofString_readsBack s
  | .arr xs => arr_readsBack (ofJsonItems_readsBack xs)
  | .obj es => obj_readsBack (ofJsonEntries_readsBack es)

theorem ofJsonItems_readsBack : ∀ xs : List Json, ∀ x ∈ xs, ReadsBack x (ofJson x)
  | [] => fun _ h => absurd h List.not_mem_nil
  | x :: xs => List.forall_mem_cons.mpr ⟨ofJson_readsBack x, ofJsonItems_readsBack xs⟩

theorem ofJsonEntries_readsBack :
    ∀ es : List (String × Json), ∀ e ∈ es, ReadsBack e.2 (ofJson e.2)
  | [] => fun _ h => absurd h List.not_mem_nil
  | (_, v) :: es => List.forall_mem_cons.mpr ⟨ofJson_readsBack v, ofJsonEntries_readsBack es⟩
end

/-- The template node of a value read member by member, with no collapsing: a string as the
placeholder it names, with no default, and an array or object with each member read as a
template, in order. -/
def node : Json → Template
  | .str s => .param (Json.paramName s) none
  | .arr xs => .array (xs.map ofJson)
  | .obj es => .object (es.map fun e => (e.1, ofJson e.2))
  | v => .literal v

/-- Reading a JSON value as a template gives a template in normal form. It is a literal exactly
when the value has no placeholder, and the literal is the value with one `$` dropped from each
string that starts with `$$`. Otherwise it is the value's node: the placeholder, or the object
or array with its members read in order. It has no parameter exactly when it is a literal. -/
theorem ofJson_normal_form (v : Json) :
    (ofJson v).Normal ∧
    (∀ u, (ofJson v).literal? = some u ↔ v.placeholders = [] ∧ u = v.unescaped) ∧
    (v.placeholders ≠ [] → ofJson v = node v) ∧
    ((ofJson v).paramNames = [] ↔ (ofJson v).literal?.isSome) := by
  have hread := ofJson_readsBack v
  refine ⟨hread.normal, fun u => ?_, fun hplace => ?_, ?_⟩
  · constructor
    · intro hu
      have hnil : v.placeholders = [] := hread.literal?_isSome_iff.mp (by simp [hu])
      rw [hread.literal_of_nil hnil, literal?, Option.some.injEq] at hu
      exact ⟨hnil, hu.symm⟩
    · rintro ⟨hnil, rfl⟩
      rw [hread.literal_of_nil hnil, literal?]
  · cases v with
    | str s =>
      have hs : Json.IsPlaceholder s := by
        by_contra hs
        exact hplace (by simp [Json.placeholders, hs])
      rw [ofJson, ofString_eq, if_pos hs, node]
    | arr xs =>
      have hnil : xs.flatMap Json.placeholders ≠ [] := by
        simpa [Json.placeholders, Json.itemPlaceholders_eq] using hplace
      rw [ofJson_arr_eq (ofJsonItems_readsBack xs), if_neg hnil, node]
    | obj es =>
      have hnil : es.flatMap (fun e => e.2.placeholders) ≠ [] := by
        simpa [Json.placeholders, Json.entryPlaceholders_eq] using hplace
      rw [ofJson_obj_eq (ofJsonEntries_readsBack es), if_neg hnil, node]
    | _ => exact absurd rfl hplace
  · rw [hread.paramNames_eq, hread.literal?_isSome_iff]

/-- A range with a placeholder bound keeps its literal bound as one literal member. -/
example : ofJson (.obj [("$gt", .str "$min"), ("$lt", .num (.int 10))]) =
    .object [("$gt", .param "min" none), ("$lt", .literal (.num (.int 10)))] := by
  rfl

end Template

end DocQuery
