import DocQuery.Proofs.Projection
import DocQuery.Proofs.Traversal
import DocQuery.Query.Body

/-!
# Reading a body from JSON

A body is one JSON object read key by key: `$filters`, `$options` and `$paginate`, then fields
set to `true` or `1` and relations set to bodies. Reading succeeds exactly on such objects
(`Json.IsBody`) and otherwise fails at the first key that is none of these (`Json.BodyFault`); a
body read from an object with distinct keys holds what its keys say (`QueryBody.ReadFrom`).
-/

namespace DocQuery

namespace Object

theorem get?_cons (k : String) (v : Json) (rest : Object) (key : String) :
    get? ((k, v) :: rest) key = if k = key then some v else get? rest key := by
  by_cases h : k = key <;> simp [get?, h]

@[simp] theorem get?_nil (key : String) : get? [] key = none := rfl

theorem get?_of_not_mem {o : Object} {key : String} (h : key ∉ o.map (·.1)) : get? o key = none := by
  simp only [get?, Option.map_eq_none_iff, List.find?_eq_none, beq_iff_eq]
  exact fun e he hk => h (hk ▸ List.mem_map_of_mem he)

end Object

namespace Json

/-- The keys of a body object that are read for what they are named, not as fields or
relations. -/
def directives : List String := ["$filters", "$options", "$paginate"]

/-- The keys an options object may have. -/
def optionNames : List String := ["sort", "limit", "skip"]

/-- A value that marks a projected field: `true`, or a number whose signed 64-bit value is `1`
(so `1.0` is none). -/
def IsFieldFlag : Json → Bool
  | .bool true => true
  | .num n => n.toSigned? == some 1
  | _ => false

/-- The value is an object. -/
def isObj : Json → Bool
  | .obj _ => true
  | _ => false

/-- The value turns pagination on: it is `true`. -/
def isTrue : Json → Bool
  | .bool b => b
  | _ => false

/-- A key of a body object is accepted with its value, given whether that value is itself a
body: `$filters` with an object, `$options` with an object whose keys are all options,
`$paginate` with any value, and any other key with a field flag or a body. -/
def KeyAccepted (k : String) (v : Json) (nestedBody : Prop) : Prop :=
  if k = "$filters" then v.isObj = true
  else if k = "$options" then ∃ os, v = .obj os ∧ ∀ e ∈ os, e.1 ∈ optionNames
  else if k = "$paginate" then True
  else v.IsFieldFlag = true ∨ nestedBody

mutual
/-- A value a body can be read from: an object each of whose keys is accepted with its value. -/
def IsBody : Json → Prop
  | .obj es => EntriesAccepted es
  | _ => False

/-- Every key of a list of entries is accepted with its value, a nested value being a body. -/
def EntriesAccepted : List (String × Json) → Prop
  | [] => True
  | (k, v) :: rest => KeyAccepted k v (IsBody v) ∧ EntriesAccepted rest
end

/-- The key `k` of a body object, with value `v`, stops the reading with the error `e`: `$filters`
or `$options` without an object, the first key of an options object that is no option, a nested
object that is no body (with the error of its own reading), or a value that is neither a field
flag nor an object. -/
def KeyFault (k : String) (v : Json) (e : Error) : Prop :=
  if k = "$filters" then v.isObj = false ∧ e = .decode "`$filters` must be an object"
  else if k = "$options" then
    match v with
    | .obj os => ∃ before o w after, os = before ++ (o, w) :: after ∧
        (∀ x ∈ before, x.1 ∈ optionNames) ∧ o ∉ optionNames ∧
        e = .invalidOption o "unsupported option"
    | _ => e = .decode "`$options` must be an object"
  else if k = "$paginate" then False
  else if v.isObj then QueryBody.ofJson v = .error e
  else v.IsFieldFlag = false ∧ e = .decode ("unexpected value for `" ++ k ++ "`: " ++ v.compact)

/-- Reading a body from the value fails with the error `e`: the value is no object, or `e` is
what the first key that is not accepted gives, every key before it being accepted. -/
def BodyFault (v : Json) (e : Error) : Prop :=
  match v with
  | .obj es => ∃ before k w after, es = before ++ (k, w) :: after ∧ EntriesAccepted before ∧
      KeyFault k w e
  | _ => e = .decode ("query body must be an object, got " ++ v.compact)

/-- The entries of the object held under a key, or none when the key holds no object. -/
def entriesAt (es : List (String × Json)) (key : String) : List (String × Json) :=
  match Object.get? es key with
  | some (.obj fs) => fs
  | _ => []

/-- The keys of a body object that mark projected fields, in order. -/
def flaggedKeys (es : List (String × Json)) : List String :=
  (es.filter fun e => !directives.contains e.1 && e.2.IsFieldFlag).map (·.1)

/-- The entries of a body object that are relations, in order. -/
def relationEntries (es : List (String × Json)) : List (String × Json) :=
  es.filter fun e => !directives.contains e.1 && e.2.isObj

theorem entriesAt_cons_self (key : String) (fs rest : List (String × Json)) :
    entriesAt ((key, .obj fs) :: rest) key = fs := by
  simp [entriesAt, Object.get?_cons]

theorem entriesAt_cons_of_ne {k key : String} (h : k ≠ key) (v : Json) (rest : List (String × Json)) :
    entriesAt ((k, v) :: rest) key = entriesAt rest key := by
  simp [entriesAt, Object.get?_cons, h]

theorem entriesAt_of_not_mem {es : List (String × Json)} {key : String} (h : key ∉ es.map (·.1)) :
    entriesAt es key = [] := by
  simp [entriesAt, Object.get?_of_not_mem h]

theorem flaggedKeys_cons_of_mem {k : String} (h : k ∈ directives) (v : Json)
    (rest : List (String × Json)) : flaggedKeys ((k, v) :: rest) = flaggedKeys rest := by
  simp [flaggedKeys, h]

theorem flaggedKeys_cons_of_not_mem {k : String} (h : k ∉ directives) (v : Json)
    (rest : List (String × Json)) :
    flaggedKeys ((k, v) :: rest) = if v.IsFieldFlag then k :: flaggedKeys rest else flaggedKeys rest := by
  by_cases hv : v.IsFieldFlag <;> simp [flaggedKeys, h, hv]

theorem relationEntries_cons_of_mem {k : String} (h : k ∈ directives) (v : Json)
    (rest : List (String × Json)) : relationEntries ((k, v) :: rest) = relationEntries rest := by
  simp [relationEntries, h]

theorem relationEntries_cons_of_not_mem {k : String} (h : k ∉ directives) (v : Json)
    (rest : List (String × Json)) :
    relationEntries ((k, v) :: rest) =
      if v.isObj then (k, v) :: relationEntries rest else relationEntries rest := by
  by_cases hv : v.isObj <;> simp [relationEntries, h, hv]

end Json

namespace QueryBody

/-- What a body read from an object's entries holds: the `$filters` selector, the `$options`
sort, limit and skip, `$paginate`, the keys marked as fields in order, and the relations. -/
structure ReadFrom (es : List (String × Json)) (b : QueryBody) : Prop where
  selector : b.selector =
    Keyed.ofList ((Json.entriesAt es "$filters").map fun e => (e.1, Template.ofJson e.2))
  sort : b.sort = (Object.get? (Json.entriesAt es "$options") "sort").map Template.ofJson
  limit : b.limit = (Object.get? (Json.entriesAt es "$options") "limit").map Template.ofJson
  skip : b.skip = (Object.get? (Json.entriesAt es "$options") "skip").map Template.ofJson
  paginate : b.paginate = true ↔ Object.get? es "$paginate" = some (.bool true)
  fields : b.fields = if Json.flaggedKeys es = [] then none else some (Json.flaggedKeys es)
  relations : ∃ rs, List.Forall₂ (fun e r => r.1 = e.1 ∧ ofJson e.2 = .ok r.2)
    (Json.relationEntries es) rs ∧ b.relations = Keyed.ofList rs

/-! ## Options -/

theorem applyOption_of_mem {o : String} (h : o ∈ Json.optionNames) (body : QueryBody) (w : Json) :
    ∃ b, body.applyOption o w = .ok b := by
  simp only [Json.optionNames, List.mem_cons, List.mem_nil_iff, or_false] at h
  rcases h with rfl | rfl | rfl <;> simp [applyOption]

theorem applyOption_of_not_mem {o : String} (h : o ∉ Json.optionNames) (body : QueryBody)
    (w : Json) : body.applyOption o w = .error (.invalidOption o "unsupported option") := by
  simp only [Json.optionNames, List.mem_cons, List.mem_nil_iff, or_false, not_or] at h
  simp [applyOption, h.1, h.2.1, h.2.2]

/-- An options object whose keys are all options is read. -/
theorem foldlM_applyOption_ok_of_known :
    ∀ {os : List (String × Json)}, (∀ e ∈ os, e.1 ∈ Json.optionNames) → ∀ body : QueryBody,
      ∃ b, os.foldlM (fun b e => b.applyOption e.1 e.2) body = .ok b
  | [], _, body => ⟨body, rfl⟩
  | (o, w) :: rest, h, body => by
    obtain ⟨b', hb'⟩ := applyOption_of_mem (h (o, w) List.mem_cons_self) body w
    obtain ⟨b, hb⟩ := foldlM_applyOption_ok_of_known
      (fun e he => h e (List.mem_cons_of_mem _ he)) b'
    exact ⟨b, by simp [List.foldlM_cons, hb', hb, bind, Except.bind]⟩

/-- Reading an options object stops at its first key that is no option. -/
theorem foldlM_applyOption_error {o : String} {w : Json} {after : List (String × Json)}
    (ho : o ∉ Json.optionNames) :
    ∀ {before : List (String × Json)}, (∀ x ∈ before, x.1 ∈ Json.optionNames) →
      ∀ body : QueryBody, (before ++ (o, w) :: after).foldlM (fun b e => b.applyOption e.1 e.2) body =
        .error (.invalidOption o "unsupported option")
  | [], _, body => by
    simp [List.foldlM_cons, applyOption_of_not_mem ho, bind, Except.bind]
  | (o', w') :: before, h, body => by
    obtain ⟨b', hb'⟩ := applyOption_of_mem (h (o', w') List.mem_cons_self) body w'
    have hrest : (before ++ (o, w) :: after).foldlM (fun b e => b.applyOption e.1 e.2) b' =
        .error (.invalidOption o "unsupported option") :=
      foldlM_applyOption_error ho (fun x hx => h x (List.mem_cons_of_mem _ hx)) b'
    simp [List.foldlM_cons, hb', hrest, bind, Except.bind]

/-- Reading an options object with distinct keys sets the options it gives and keeps the rest
of the body. -/
theorem foldlM_applyOption_eq : ∀ {os : List (String × Json)} {body b : QueryBody},
    (os.map (·.1)).Nodup → os.foldlM (fun b e => b.applyOption e.1 e.2) body = .ok b →
    b = { body with
      sort := ((Object.get? os "sort").map Template.ofJson).or body.sort
      limit := ((Object.get? os "limit").map Template.ofJson).or body.limit
      skip := ((Object.get? os "skip").map Template.ofJson).or body.skip }
  | [], body, b, _, h => by
    simp only [List.foldlM_nil, pure, Except.pure, Except.ok.injEq] at h
    subst h
    cases body
    rfl
  | (o, w) :: rest, body, b, hnodup, h => by
    obtain ⟨hfresh, hrest⟩ := List.nodup_cons.mp hnodup
    have hnone : ∀ key, key = o → Object.get? rest key = none :=
      fun key hk => Object.get?_of_not_mem (hk ▸ hfresh)
    simp only [List.foldlM_cons] at h
    obtain ⟨b', hb', h⟩ := Except.bind_eq_ok.mp h
    rw [foldlM_applyOption_eq hrest h]
    -- the one option this key sets is not set again after it
    simp only [applyOption] at hb'
    split_ifs at hb' with hsort hlimit hskip
    · subst hsort
      cases hb'
      simp [Object.get?_cons, hnone, withSort]
    · subst hlimit
      cases hb'
      simp [Object.get?_cons, hnone, withLimit]
    · subst hskip
      cases hb'
      simp [Object.get?_cons, hnone, withSkip]

/-- Reading the entries of a `$filters` object sets the selector, field by field. -/
theorem foldl_filter (fs : List (String × Json)) (body : QueryBody) :
    fs.foldl (fun b e => b.filter e.1 (Template.ofJson e.2)) body =
      { body with
        selector := fs.foldl (fun s e => Keyed.insert e.1 (Template.ofJson e.2) s) body.selector } := by
  induction fs generalizing body with
  | nil =>
    cases body
    rfl
  | cons e fs ih =>
    rw [List.foldl_cons, ih]
    rfl

/-! ## One key at a time -/

section Step

variable {k : String} {v : Json} (hnested : (∃ b, ofJson v = .ok b) ↔ v.IsBody)

include hnested in
/-- An accepted key is read and the reading goes on with the rest. -/
theorem ofEntries_cons_of_accepted (h : Json.KeyAccepted k v v.IsBody)
    (rest : List (String × Json)) (body : QueryBody) (fields : List String) :
    ∃ body' fields', ofEntries ((k, v) :: rest) body fields = ofEntries rest body' fields' := by
  unfold Json.KeyAccepted at h
  rw [ofEntries.eq_def]
  dsimp only
  split_ifs at h ⊢ with hfilters hoptions hpaginate
  · cases v with
    | obj fs => exact ⟨_, _, rfl⟩
    | _ => simp [Json.isObj] at h
  · obtain ⟨os, rfl, hknown⟩ := h
    obtain ⟨b, hb⟩ := foldlM_applyOption_ok_of_known hknown body
    exact ⟨b, fields, by simp only [hb]⟩
  · exact ⟨_, _, rfl⟩
  · -- a field flag, or a nested body
    rcases h with hflag | hbody
    · cases v with
      | bool b =>
        cases b
        · simp [Json.IsFieldFlag] at hflag
        · exact ⟨_, _, rfl⟩
      | num n =>
        have h1 : n.toSigned? = some 1 := by simpa [Json.IsFieldFlag] using hflag
        exact ⟨body, fields ++ [k], by simp [h1]⟩
      | _ => simp [Json.IsFieldFlag] at hflag
    · cases v with
      | obj es =>
        obtain ⟨nb, hnb⟩ := hnested.mpr hbody
        exact ⟨body.withRelation k nb, fields, by simp only [hnb]⟩
      | _ => simp [Json.IsBody] at hbody

/-- A key that stops the reading makes it fail with its error. -/
theorem ofEntries_cons_of_fault {e : Error} (h : Json.KeyFault k v e)
    (rest : List (String × Json)) (body : QueryBody) (fields : List String) :
    ofEntries ((k, v) :: rest) body fields = .error e := by
  unfold Json.KeyFault at h
  rw [ofEntries.eq_def]
  dsimp only
  split_ifs at h ⊢ with hfilters hoptions hpaginate hobj
  · obtain ⟨hv, rfl⟩ := h
    cases v <;> simp_all [Json.isObj]
  · cases v with
    | obj os =>
      obtain ⟨before, o, w, after, rfl, hknown, hunknown, rfl⟩ := h
      simp only [foldlM_applyOption_error hunknown hknown body]
    | _ => simp [h]
  · cases v with
    | obj es => simp only [h]
    | _ => simp [Json.isObj] at hobj
  · obtain ⟨hflag, rfl⟩ := h
    cases v with
    | obj es => simp [Json.isObj] at hobj
    | bool b => cases b <;> simp_all [Json.IsFieldFlag]
    | num n =>
      have h1 : n.toSigned? ≠ some 1 := by simpa [Json.IsFieldFlag] using hflag
      simp [h1]
    | _ => rfl

include hnested in
/-- A key that is not accepted stops the reading with some error. -/
theorem exists_fault_of_not_accepted (h : ¬ Json.KeyAccepted k v v.IsBody) :
    ∃ e, Json.KeyFault k v e := by
  unfold Json.KeyAccepted at h
  unfold Json.KeyFault
  split_ifs at h ⊢ with hfilters hoptions hpaginate hobj
  · exact ⟨_, by simpa using h, rfl⟩
  · cases v with
    | obj os =>
      -- the first key of the options object that is no option
      have hsome : ∃ x ∈ os, x.1 ∉ Json.optionNames := by simpa using h
      obtain ⟨x, hx⟩ : ∃ x, os.find? (fun x => !Json.optionNames.contains x.1) = some x := by
        obtain ⟨y, hy, hyn⟩ := hsome
        exact Option.isSome_iff_exists.mp (List.find?_isSome.mpr ⟨y, hy, by simpa using hyn⟩)
      obtain ⟨hxn, before, after, hsplit, hbefore⟩ := List.find?_eq_some_iff_append.mp hx
      exact ⟨_, before, x.1, x.2, after, hsplit, fun y hy => by simpa using hbefore y hy,
        by simpa using hxn, rfl⟩
    | _ => exact ⟨_, rfl⟩
  · exact absurd trivial h
  · cases v with
    | obj es =>
      cases hr : ofJson (.obj es) with
      | ok b => exact absurd (hnested.mp ⟨b, hr⟩) fun hb => h (.inr hb)
      | error e => exact ⟨e, rfl⟩
    | _ => simp [Json.isObj] at hobj
  · exact ⟨_, by simpa using fun hflag => h (.inl hflag), rfl⟩

include hnested in
/-- A key that stops the reading is not accepted. -/
theorem not_accepted_of_fault {e : Error} (h : Json.KeyFault k v e) :
    ¬ Json.KeyAccepted k v v.IsBody := by
  intro hacc
  obtain ⟨body', fields', hstep⟩ := ofEntries_cons_of_accepted hnested hacc [] {} []
  rw [ofEntries_cons_of_fault h, ofEntries.eq_def] at hstep
  cases hstep

/-- A key stops the reading with one error only. -/
theorem KeyFault.unique {e e' : Error} (h : Json.KeyFault k v e) (h' : Json.KeyFault k v e') :
    e = e' := by
  have hfail := ofEntries_cons_of_fault h [] {} []
  rw [ofEntries_cons_of_fault h' [] {} []] at hfail
  exact (Except.error.inj hfail).symm

end Step

/-! ## Which objects are read, and where reading fails -/

mutual
/-- A value reads as a body exactly when it is one. -/
theorem ofJson_ok_iff : ∀ v : Json, (∃ b, ofJson v = .ok b) ↔ v.IsBody
  | .obj es => by
    rw [ofJson.eq_def]
    exact ofEntries_ok_iff es {} []
  | .null => by simp [ofJson.eq_def, Json.IsBody]
  | .bool _ => by simp [ofJson.eq_def, Json.IsBody]
  | .num _ => by simp [ofJson.eq_def, Json.IsBody]
  | .str _ => by simp [ofJson.eq_def, Json.IsBody]
  | .arr _ => by simp [ofJson.eq_def, Json.IsBody]

/-- Entries are read, whatever was read before them, exactly when every key is accepted. -/
theorem ofEntries_ok_iff : ∀ (es : List (String × Json)) (body : QueryBody) (fields : List String),
    (∃ b, ofEntries es body fields = .ok b) ↔ Json.EntriesAccepted es
  | [], body, fields => by simp [ofEntries.eq_def, Json.EntriesAccepted]
  | (k, v) :: rest, body, fields => by
    by_cases hacc : Json.KeyAccepted k v v.IsBody
    · obtain ⟨body', fields', hstep⟩ :=
        ofEntries_cons_of_accepted (ofJson_ok_iff v) hacc rest body fields
      rw [hstep, ofEntries_ok_iff rest body' fields']
      simp [Json.EntriesAccepted, hacc]
    · obtain ⟨e, hfault⟩ := exists_fault_of_not_accepted (ofJson_ok_iff v) hacc
      rw [ofEntries_cons_of_fault hfault]
      simp [Json.EntriesAccepted, hacc]
end

/-- Reading entries fails exactly at the first key that is not accepted, with that key's error. -/
theorem ofEntries_error_iff : ∀ (es : List (String × Json)) (body : QueryBody)
    (fields : List String) (e : Error),
    ofEntries es body fields = .error e ↔
      ∃ before k w after, es = before ++ (k, w) :: after ∧ Json.EntriesAccepted before ∧
        Json.KeyFault k w e
  | [], body, fields, e => by simp [ofEntries.eq_def]
  | (k, v) :: rest, body, fields, e => by
    by_cases hacc : Json.KeyAccepted k v v.IsBody
    · -- the key is read, and the first fault is among the rest
      obtain ⟨body', fields', hstep⟩ :=
        ofEntries_cons_of_accepted (ofJson_ok_iff v) hacc rest body fields
      rw [hstep, ofEntries_error_iff rest body' fields' e]
      constructor
      · rintro ⟨before, k', w, after, rfl, hbefore, hfault⟩
        exact ⟨(k, v) :: before, k', w, after, rfl, ⟨hacc, hbefore⟩, hfault⟩
      · rintro ⟨before, k', w, after, hsplit, hbefore, hfault⟩
        cases before with
        | nil =>
          simp only [List.nil_append, List.cons.injEq, Prod.mk.injEq] at hsplit
          obtain ⟨⟨rfl, rfl⟩, rfl⟩ := hsplit
          exact absurd hacc (not_accepted_of_fault (ofJson_ok_iff _) hfault)
        | cons x before =>
          simp only [List.cons_append, List.cons.injEq] at hsplit
          obtain ⟨rfl, rfl⟩ := hsplit
          exact ⟨before, k', w, after, rfl, hbefore.2, hfault⟩
    · -- the key itself is the first fault
      obtain ⟨e₀, hfault₀⟩ := exists_fault_of_not_accepted (ofJson_ok_iff v) hacc
      rw [ofEntries_cons_of_fault hfault₀]
      constructor
      · rintro ⟨⟩
        exact ⟨[], k, v, rest, rfl, trivial, hfault₀⟩
      · rintro ⟨before, k', w, after, hsplit, hbefore, hfault⟩
        cases before with
        | nil =>
          simp only [List.nil_append, List.cons.injEq, Prod.mk.injEq] at hsplit
          obtain ⟨⟨rfl, rfl⟩, rfl⟩ := hsplit
          rw [KeyFault.unique hfault₀ hfault]
        | cons x before =>
          simp only [List.cons_append, List.cons.injEq] at hsplit
          obtain ⟨rfl, rfl⟩ := hsplit
          exact absurd hbefore.1 hacc

/-! ## What a body read from distinct keys holds -/

/-- What reading the entries of an object gathers on top of the body and the fields read so
far: the `$filters` fields, the `$options` options and the `$paginate` flag applied once, the
keys marked as fields appended, and each relation added with the body it reads as. -/
def described (es : List (String × Json)) (body : QueryBody) (fields : List String) : QueryBody :=
  let options := Json.entriesAt es "$options"
  { selector := (Json.entriesAt es "$filters").foldl
      (fun s e => Keyed.insert e.1 (Template.ofJson e.2) s) body.selector
    sort := ((Object.get? options "sort").map Template.ofJson).or body.sort
    limit := ((Object.get? options "limit").map Template.ofJson).or body.limit
    skip := ((Object.get? options "skip").map Template.ofJson).or body.skip
    fields := if (fields ++ Json.flaggedKeys es).isEmpty then body.fields
      else some (fields ++ Json.flaggedKeys es)
    paginate := ((Object.get? es "$paginate").map Json.isTrue).getD body.paginate
    relations := (Json.relationEntries es).foldl
      (fun rs e => Keyed.insert e.1 ((ofJson e.2).toOption.getD {}) rs) body.relations }

/-- Reading entries with distinct keys gives what they describe. -/
theorem ofEntries_eq_described : ∀ {es : List (String × Json)} {body : QueryBody}
    {fields : List String} {b : QueryBody}, (es.map (·.1)).Nodup → Json.entriesKeysDistinct es →
    ofEntries es body fields = .ok b → b = described es body fields
  | [], body, fields, b, _, _, h => by
    rw [ofEntries.eq_def] at h
    simp only [Except.ok.injEq] at h
    subst h
    cases body
    by_cases hf : fields.isEmpty <;>
      simp [hf, described, Json.entriesAt, Json.flaggedKeys, Json.relationEntries, Object.get?,
        withFields]
  | (k, v) :: rest, body, fields, b, hnodup, hdistinct, h => by
    obtain ⟨hk, hrest⟩ := List.nodup_cons.mp hnodup
    have hnone : Object.get? rest k = none := Object.get?_of_not_mem hk
    rw [ofEntries.eq_def] at h
    dsimp only at h
    split_ifs at h with hfilters hoptions hpaginate
    · -- `$filters` sets the selector
      subst hfilters
      cases v with
      | obj fs =>
        dsimp only at h
        rw [foldl_filter] at h
        rw [ofEntries_eq_described hrest hdistinct.2 h]
        have hmem : "$filters" ∈ Json.directives := by simp [Json.directives]
        simp [described, Json.entriesAt_cons_self, Json.entriesAt_cons_of_ne,
          Json.entriesAt_of_not_mem hk, Json.flaggedKeys_cons_of_mem hmem,
          Json.relationEntries_cons_of_mem hmem, Object.get?_cons]
      | _ => cases h
    · -- `$options` sets the sort, the limit and the skip
      subst hoptions
      cases v with
      | obj os =>
        dsimp only at h
        split at h
        · rename_i b' hb'
          rw [foldlM_applyOption_eq hdistinct.1.1 hb'] at h
          rw [ofEntries_eq_described hrest hdistinct.2 h]
          have hmem : "$options" ∈ Json.directives := by simp [Json.directives]
          simp [described, Json.entriesAt_cons_self, Json.entriesAt_cons_of_ne,
            Json.entriesAt_of_not_mem hk, Json.flaggedKeys_cons_of_mem hmem,
            Json.relationEntries_cons_of_mem hmem, Object.get?_cons]
        · cases h
      | _ => cases h
    · -- `$paginate` sets the flag
      subst hpaginate
      rw [ofEntries_eq_described hrest hdistinct.2 h]
      have hmem : "$paginate" ∈ Json.directives := by simp [Json.directives]
      cases v <;> simp [described, Json.entriesAt_cons_of_ne, Json.flaggedKeys_cons_of_mem hmem,
        Json.relationEntries_cons_of_mem hmem, Object.get?_cons, hnone, Json.isTrue]
    · -- any other key is a field or a relation
      have hdir : k ∉ Json.directives := by simp [Json.directives, hfilters, hoptions, hpaginate]
      cases v with
      | obj es' =>
        dsimp only at h
        split at h
        · rename_i nb hnb
          rw [ofEntries_eq_described hrest hdistinct.2 h]
          simp [described, Json.entriesAt_cons_of_ne, hfilters, hoptions, hpaginate,
            Json.flaggedKeys_cons_of_not_mem hdir, Json.relationEntries_cons_of_not_mem hdir,
            Object.get?_cons, hnb, withRelation, Json.isObj, Json.IsFieldFlag, Except.toOption]
        · cases h
      | bool bv =>
        cases bv
        · cases h
        · rw [ofEntries_eq_described hrest hdistinct.2 h]
          simp [described, Json.entriesAt_cons_of_ne, hfilters, hoptions, hpaginate,
            Json.flaggedKeys_cons_of_not_mem hdir, Json.relationEntries_cons_of_not_mem hdir,
            Object.get?_cons, Json.isObj, Json.IsFieldFlag]
      | num n =>
        dsimp only at h
        split_ifs at h with h1
        · rw [ofEntries_eq_described hrest hdistinct.2 h]
          simp [described, Json.entriesAt_cons_of_ne, hfilters, hoptions, hpaginate,
            Json.flaggedKeys_cons_of_not_mem hdir, Json.relationEntries_cons_of_not_mem hdir,
            Object.get?_cons, Json.isObj, Json.IsFieldFlag, h1]
      | _ => cases h

theorem entriesAccepted_iff {es : List (String × Json)} :
    Json.EntriesAccepted es ↔ ∀ e ∈ es, Json.KeyAccepted e.1 e.2 e.2.IsBody := by
  induction es with
  | nil => simp [Json.EntriesAccepted]
  | cons e rest ih =>
    obtain ⟨k, v⟩ := e
    simp [Json.EntriesAccepted, ih]

/-- A body read from an object with distinct keys holds what its keys say. -/
theorem readFrom_of_ofEntries {es : List (String × Json)} {b : QueryBody}
    (hd : Json.KeysDistinct (.obj es)) (h : ofEntries es {} [] = .ok b) : ReadFrom es b := by
  have hb := ofEntries_eq_described hd.1 hd.2 h
  -- every relation entry is accepted, so its value reads as a body
  have hnested : ∀ e ∈ Json.relationEntries es, ∃ nb, ofJson e.2 = .ok nb := by
    intro e he
    obtain ⟨hmem, hrel⟩ := List.mem_filter.mp he
    have hacc := entriesAccepted_iff.mp ((ofEntries_ok_iff es {} []).mp ⟨b, h⟩) e hmem
    obtain ⟨hdir, hobj⟩ : e.1 ∉ Json.directives ∧ e.2.isObj = true := by simpa using hrel
    simp only [Json.directives, List.mem_cons, List.mem_nil_iff, or_false, not_or] at hdir
    simp only [Json.KeyAccepted, hdir.1, hdir.2.1, hdir.2.2, if_false] at hacc
    rcases hacc with hflag | hbody
    · cases hv : e.2 <;> simp_all [Json.isObj, Json.IsFieldFlag]
    · exact (ofJson_ok_iff e.2).mpr hbody
  subst hb
  refine ⟨?_, by simp [described], by simp [described], by simp [described], ?_, ?_, ?_⟩
  · simp [described, Keyed.ofList, List.foldl_map]
  · simp only [described]
    cases hp : Object.get? es "$paginate" with
    | none => simp
    | some w =>
      cases w with
      | bool bv => cases bv <;> simp [Json.isTrue]
      | _ => simp [Json.isTrue]
  · simp [described, List.isEmpty_iff]
  · refine ⟨(Json.relationEntries es).map fun e => (e.1, (ofJson e.2).toOption.getD {}), ?_, ?_⟩
    · rw [List.forall₂_map_right_iff, List.forall₂_same]
      intro e he
      obtain ⟨nb, hnb⟩ := hnested e he
      simp [hnb, Except.toOption]
    · simp [described, Keyed.ofList, List.foldl_map]

/-- Reading a body from a JSON value succeeds exactly when the value is an object whose keys are
all accepted. It fails, when the value is an object, at its first key that is not accepted, with
that key's error, a nested body's error passed on as it is; and a body read from an object with
distinct keys holds what its keys say. -/
theorem ofJson_reads_accepted_keys (v : Json) :
    ((∃ b, ofJson v = .ok b) ↔ v.IsBody) ∧
    (∀ e, ofJson v = .error e ↔ v.BodyFault e) ∧
    (v.KeysDistinct → ∀ b, ofJson v = .ok b → ∃ es, v = .obj es ∧ ReadFrom es b) := by
  refine ⟨ofJson_ok_iff v, fun e => ?_, fun hd b h => ?_⟩
  · cases v with
    | obj es =>
      rw [ofJson.eq_def]
      exact ofEntries_error_iff es {} [] e
    | _ => simp [ofJson.eq_def, Json.BodyFault, eq_comm]
  · cases v with
    | obj es =>
      rw [ofJson.eq_def] at h
      exact ⟨es, rfl, readFrom_of_ofEntries hd h⟩
    | _ => simp [ofJson.eq_def] at h

/-- The posts of an author, ten at most, with their titles and the texts of their comments. -/
theorem ofJson_reads_accepted_keys_posts :
    let v : Json := .obj [("$filters", .obj [("authorId", .str "$userId")]),
      ("$options", .obj [("limit", .num (.int 10))]), ("title", .num (.int 1)),
      ("comments", .obj [("text", .bool true)])]
    let b : QueryBody :=
      { selector := [("authorId", .param "userId" none)]
        limit := some (.literal (.num (.int 10)))
        fields := some ["title"]
        relations := [("comments", { fields := some ["text"] })] }
    v.KeysDistinct ∧ ofJson v = .ok b ∧ ∃ es, v = .obj es ∧ ReadFrom es b := by
  intro v b
  have hd : v.KeysDistinct := by
    simp [v, Json.KeysDistinct, Json.entriesKeysDistinct]
  have hb : ofJson v = .ok b := rfl
  exact ⟨hd, hb, (ofJson_reads_accepted_keys v).2.2 hd b hb⟩

end QueryBody

end DocQuery
