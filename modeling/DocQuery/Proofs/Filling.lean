import DocQuery.Proofs.Placeholders
import DocQuery.Proofs.Projection

/-!
# Filling a template read from JSON

A string longer than one character that starts with `$` and not `$$` is a placeholder for the
parameter it names, and one that starts with `$$` stands for itself with one `$` less. Reading a
value as a template and substituting fills the value (`Json.fill`): placeholders replaced,
escapes undone, all else kept; an unbound placeholder fails substitution at the first one in
document order (`Template.substitute_ofJson_fills`).
-/

namespace DocQuery

namespace Json

/-- A string is a placeholder when it is longer than one character, starts with `$` and does
not start with `$$`. -/
def IsPlaceholder (s : String) : Bool :=
  1 < s.length && s.toList.head? == some '$' && s.toList.take 2 != ['$', '$']

/-- The parameter a placeholder names: the string after its `$`. -/
def paramName (s : String) : String := String.ofList (s.toList.drop 1)

/-- The string an escaped string stands for: `$$text` is `$text`, any other string itself. -/
def unescape (s : String) : String :=
  if s.toList.take 2 = ['$', '$'] then String.ofList (s.toList.drop 1) else s

mutual
/-- The placeholder names of a value, in document order. -/
def placeholders : Json → List String
  | .str s => if IsPlaceholder s then [paramName s] else []
  | .arr items => itemPlaceholders items
  | .obj entries => entryPlaceholders entries
  | _ => []

/-- The placeholder names of a list of values, in order. -/
def itemPlaceholders : List Json → List String
  | [] => []
  | v :: rest => placeholders v ++ itemPlaceholders rest

/-- The placeholder names of the values of a list of entries, in order. -/
def entryPlaceholders : List (String × Json) → List String
  | [] => []
  | (_, v) :: rest => placeholders v ++ entryPlaceholders rest
end

mutual
/-- The value with each bound placeholder replaced by its parameter and each escaped string
unescaped; every other value, the object keys and their order are kept. -/
def fill (p : Params) : Json → Json
  | .str s => if IsPlaceholder s then (p.get? (paramName s)).getD (.str s) else .str (unescape s)
  | .arr items => .arr (fillItems p items)
  | .obj entries => .obj (fillEntries p entries)
  | v => v

/-- A list of values, each filled. -/
def fillItems (p : Params) : List Json → List Json
  | [] => []
  | v :: rest => fill p v :: fillItems p rest

/-- A list of entries, each value filled under its key. -/
def fillEntries (p : Params) : List (String × Json) → List (String × Json)
  | [] => []
  | (k, v) :: rest => (k, fill p v) :: fillEntries p rest
end

/-- The value filled under parameters when every placeholder is bound; otherwise the first
unbound placeholder in document order, as a missing parameter. -/
def filled (p : Params) (v : Json) : Except Error Json :=
  match v.placeholders.find? fun n => (p.get? n).isNone with
  | some n => .error (.missingParameter n)
  | none => .ok (v.fill p)

theorem itemPlaceholders_eq (xs : List Json) : itemPlaceholders xs = xs.flatMap placeholders := by
  induction xs with
  | nil => rfl
  | cons x xs ih => simp [itemPlaceholders, ih]

theorem entryPlaceholders_eq (es : List (String × Json)) :
    entryPlaceholders es = es.flatMap fun e => placeholders e.2 := by
  induction es with
  | nil => rfl
  | cons e es ih =>
    obtain ⟨k, v⟩ := e
    simp [entryPlaceholders, ih]

theorem fillItems_eq (p : Params) (xs : List Json) : fillItems p xs = xs.map (fill p) := by
  induction xs with
  | nil => rfl
  | cons x xs ih => simp [fillItems, ih]

theorem fillEntries_eq (p : Params) (es : List (String × Json)) :
    fillEntries p es = es.map fun e => (e.1, fill p e.2) := by
  induction es with
  | nil => rfl
  | cons e es ih =>
    obtain ⟨k, v⟩ := e
    simp [fillEntries, ih]

/-- A traversal in which each element fails at its first unbound name fails at the first
unbound name of the whole list, and otherwise gives every element's result. -/
theorem mapM_firstUnbound {α β : Type} {q : String → Bool} {names : α → List String} {g : α → β}
    {f : α → Except Error β}
    (hf : ∀ a, f a = match (names a).find? q with
      | some n => .error (.missingParameter n)
      | none => .ok (g a)) (l : List α) :
    l.mapM f = match (l.flatMap names).find? q with
      | some n => .error (.missingParameter n)
      | none => .ok (l.map g) := by
  induction l with
  | nil => rfl
  | cons a rest ih =>
    rw [List.mapM_cons, List.flatMap_cons, List.find?_append, hf a]
    cases ha : (names a).find? q with
    | some n => rfl
    | none =>
      simp only [Option.none_or, ih]
      cases (rest.flatMap names).find? q <;> rfl

/-- Filling an array fills its items in order. -/
theorem filled_arr (p : Params) (xs : List Json) :
    filled p (.arr xs) = (xs.mapM (filled p)).map .arr := by
  have hf : ∀ v, filled p v = match (placeholders v).find? fun n => (p.get? n).isNone with
      | some n => .error (.missingParameter n)
      | none => .ok (fill p v) := fun v => rfl
  rw [mapM_firstUnbound hf xs]
  simp only [filled, placeholders, fill, itemPlaceholders_eq, fillItems_eq]
  cases (xs.flatMap placeholders).find? fun n => (p.get? n).isNone <;> rfl

/-- Filling an object fills its values in order, under their keys. -/
theorem filled_obj (p : Params) (es : List (String × Json)) :
    filled p (.obj es) = (es.mapM fun e => (filled p e.2).map (e.1, ·)).map .obj := by
  have hf : ∀ e : String × Json, (filled p e.2).map (e.1, ·) =
      match (placeholders e.2).find? fun n => (p.get? n).isNone with
      | some n => .error (.missingParameter n)
      | none => .ok (e.1, fill p e.2) := by
    intro e
    unfold filled
    cases (placeholders e.2).find? fun n => (p.get? n).isNone <;> rfl
  rw [mapM_firstUnbound hf es]
  simp only [filled, placeholders, fill, entryPlaceholders_eq, fillEntries_eq]
  cases (es.flatMap fun e => placeholders e.2).find? fun n => (p.get? n).isNone <;> rfl

end Json

namespace Template

/-- A string is read as a placeholder exactly when it is one, and otherwise as the literal
string it stands for. -/
theorem ofString_eq (s : String) :
    ofString s = if Json.IsPlaceholder s then .param (Json.paramName s) none
      else .literal (.str (Json.unescape s)) := by
  unfold ofString Json.IsPlaceholder Json.paramName Json.unescape
  rw [← String.length_toList]
  -- a string is empty, one character, or two characters and the rest
  rcases hs : s.toList with _ | ⟨c, _ | ⟨d, rest⟩⟩
  · simp
  · simp
  · by_cases hc : c = '$'
    · subst hc
      by_cases hd : d = '$'
      · subst hd
        simp
      · simp [hd]
    · simp [hc]

theorem ofJsonItems_eq (xs : List Json) : ofJsonItems xs = xs.map ofJson := by
  induction xs with
  | nil => rfl
  | cons x xs ih => simp [ofJsonItems, ih]

theorem ofJsonEntries_eq (es : List (String × Json)) :
    ofJsonEntries es = es.map fun e => (e.1, ofJson e.2) := by
  induction es with
  | nil => rfl
  | cons e es ih =>
    obtain ⟨k, v⟩ := e
    simp [ofJsonEntries, ih]

variable {p : Params}

theorem substituteItems_eq_mapM (ts : List Template) :
    substituteItems p ts = ts.mapM (substitute p) := by
  induction ts with
  | nil => rfl
  | cons t ts ih =>
    rw [substituteItems, List.mapM_cons, ← ih]
    cases substitute p t <;> rfl

/-- Setting keys that the object does not hold, one by one, appends them in order. -/
theorem substituteEntries_eq_mapM : ∀ (ts : List (String × Template)) (acc : Object),
    (acc.map (·.1) ++ ts.map (·.1)).Nodup →
    substituteEntries p ts acc = (ts.mapM fun e => (substitute p e.2).map (e.1, ·)).map (acc ++ ·)
  | [], acc, _ => by simp [substituteEntries, Except.map, pure, Except.pure]
  | (k, t) :: ts, acc, hnodup => by
    -- the key is not held yet, so setting it appends it
    have hfresh : acc.any (·.1 == k) = false := by
      rw [List.any_eq_false]
      intro e he hk
      have hkeys := (List.nodup_append.mp hnodup).2.2
      exact hkeys _ (List.mem_map_of_mem he) k (by simp) (by simpa using hk)
    rw [substituteEntries, List.mapM_cons]
    cases ht : substitute p t with
    | error e => rfl
    | ok v =>
      have hnext : ((acc ++ [(k, v)]).map (·.1) ++ ts.map (·.1)).Nodup := by
        simpa using hnodup
      simp only [Object.set, hfresh, Bool.false_eq_true, if_false]
      rw [substituteEntries_eq_mapM ts _ hnext]
      cases ts.mapM (fun e => (substitute p e.2).map (e.1, ·)) <;>
        simp [Except.map, bind, Except.bind, pure, Except.pure]

/-- A literal substitutes to its value. -/
theorem substitute_of_literal? {t : Template} {v : Json} (h : t.literal? = some v) :
    t.substitute p = .ok v := by
  cases t with
  | literal w =>
    simp only [literal?, Option.some.injEq] at h
    rw [h, substitute]
  | _ => simp [literal?] at h

/-- A list whose elements all give a value gives, in a traversal that agrees with the first on
each element, the same values. -/
theorem mapM_ok_of_mapM_some {α β : Type} {f : α → Option β} {g : α → Except Error β} :
    ∀ {l : List α} {vs : List β}, l.mapM f = some vs →
      (∀ a b, f a = some b → g a = .ok b) → l.mapM g = .ok vs
  | [], vs, h, _ => by
    simp only [List.mapM_nil, pure, Option.some.injEq] at h
    subst h
    rfl
  | a :: l, vs, h, hfg => by
    simp only [List.mapM_cons, Option.bind_eq_bind, Option.bind_eq_some_iff, pure,
      Option.some.injEq] at h
    obtain ⟨b, hb, bs, hbs, rfl⟩ := h
    simp [List.mapM_cons, hfg a b hb, mapM_ok_of_mapM_some hbs hfg, bind, Except.bind, pure,
      Except.pure]

/-- An array read as a template substitutes item by item, collapsed to a literal or not. -/
theorem substitute_ofJson_arr (xs : List Json) :
    (ofJson (.arr xs)).substitute p = ((ofJsonItems xs).mapM (substitute p)).map .arr := by
  simp only [ofJson]
  split
  · rename_i vs hvs
    rw [mapM_ok_of_mapM_some hvs fun t v h => substitute_of_literal? h]
    rfl
  · simp [substitute, substituteItems_eq_mapM]

/-- An object with distinct keys read as a template substitutes value by value under its keys,
collapsed to a literal or not. -/
theorem substitute_ofJson_obj {es : List (String × Json)} (hnodup : (es.map (·.1)).Nodup) :
    (ofJson (.obj es)).substitute p =
      ((ofJsonEntries es).mapM fun e => (substitute p e.2).map (e.1, ·)).map .obj := by
  simp only [ofJson]
  split
  · rename_i o ho
    have hok : (ofJsonEntries es).mapM (fun e => (substitute p e.2).map (e.1, ·)) = .ok o :=
      mapM_ok_of_mapM_some ho fun e b hb => by
        obtain ⟨w, hw, rfl⟩ := Option.map_eq_some_iff.mp hb
        simp [substitute_of_literal? hw, Except.map]
    rw [hok]
    rfl
  · have hkeys : (([] : Object).map (·.1) ++ (ofJsonEntries es).map (·.1)).Nodup := by
      simpa [ofJsonEntries_eq, Function.comp_def] using hnodup
    rw [substitute, substituteEntries_eq_mapM _ [] hkeys]
    cases (ofJsonEntries es).mapM (fun e => (substitute p e.2).map (e.1, ·)) <;> rfl

mutual
/-- Substituting into a value read as a template fills it, or fails at its first unbound
placeholder. -/
theorem substitute_ofJson : ∀ {v : Json}, v.KeysDistinct → (ofJson v).substitute p = v.filled p
  | .null, _ => rfl
  | .bool _, _ => rfl
  | .num _, _ => rfl
  | .str s, _ => by
    simp only [ofJson, ofString_eq]
    by_cases hs : Json.IsPlaceholder s
    · cases hp : p.get? (Json.paramName s) <;>
        simp [hs, hp, substitute, Json.filled, Json.placeholders, Json.fill]
    · simp [hs, substitute, Json.filled, Json.placeholders, Json.fill]
  | .arr xs, hv => by
    rw [substitute_ofJson_arr, mapM_substitute_ofJsonItems hv, Json.filled_arr]
  | .obj es, hv => by
    rw [substitute_ofJson_obj hv.1, mapM_substitute_ofJsonEntries hv.2, Json.filled_obj]

theorem mapM_substitute_ofJsonItems : ∀ {xs : List Json}, Json.itemsKeysDistinct xs →
    (ofJsonItems xs).mapM (substitute p) = xs.mapM (Json.filled p)
  | [], _ => rfl
  | x :: xs, hv => by
    rw [ofJsonItems, List.mapM_cons, List.mapM_cons, substitute_ofJson hv.1,
      mapM_substitute_ofJsonItems hv.2]

theorem mapM_substitute_ofJsonEntries : ∀ {es : List (String × Json)},
    Json.entriesKeysDistinct es →
    (ofJsonEntries es).mapM (fun e => (substitute p e.2).map (e.1, ·)) =
      es.mapM fun e => (Json.filled p e.2).map (e.1, ·)
  | [], _ => rfl
  | (k, v) :: es, hv => by
    rw [ofJsonEntries, List.mapM_cons, List.mapM_cons]
    dsimp only
    rw [substitute_ofJson hv.1, mapM_substitute_ofJsonEntries hv.2]
end

/-- A JSON value read as a template, every object in it with distinct keys, substitutes to the
value filled under the parameters when each of its placeholders is bound; otherwise the
substitution fails for want of the first unbound placeholder in document order. -/
theorem substitute_ofJson_fills (v : Json) (p : Params) (hv : v.KeysDistinct) :
    ((∀ n ∈ v.placeholders, (p.get? n).isSome) → (ofJson v).substitute p = .ok (v.fill p)) ∧
    (∀ before n after, v.placeholders = before ++ n :: after →
      (∀ m ∈ before, (p.get? m).isSome) → p.get? n = none →
      (ofJson v).substitute p = .error (.missingParameter n)) := by
  rw [substitute_ofJson hv]
  constructor
  · intro hbound
    have hnone : v.placeholders.find? (fun n => (p.get? n).isNone) = none := by
      rw [List.find?_eq_none]
      intro n hn
      simpa [Option.isSome_iff_ne_none] using hbound n hn
    simp [Json.filled, hnone]
  · intro before n after hsplit hbefore hn
    -- the names before `n` are bound, so `n` is the first unbound one
    have hfirst : v.placeholders.find? (fun n => (p.get? n).isNone) = some n := by
      rw [List.find?_eq_some_iff_append]
      exact ⟨by simp [hn], before, after, hsplit, fun m hm => by simpa using hbefore m hm⟩
    simp [Json.filled, hfirst]

/-- A range condition with a placeholder, a number, an escaped price and a lone `$`: with the
placeholder bound it is filled, the escaped string loses one `$` and the rest is kept; without
parameters the placeholder is reported missing. -/
theorem substitute_ofJson_fills_price_range :
    let v : Json := .obj [("$gt", .str "$min"), ("$lt", .num (.int 10)),
      ("tags", .arr [.str "$$price", .str "$"])]
    let p := Params.empty.insert "min" (.num (.int 3))
    v.KeysDistinct ∧ (∀ n ∈ v.placeholders, (p.get? n).isSome) ∧
      (ofJson v).substitute p = .ok (.obj [("$gt", .num (.int 3)), ("$lt", .num (.int 10)),
        ("tags", .arr [.str "$price", .str "$"])]) ∧
      v.placeholders = [] ++ "min" :: [] ∧ Params.empty.get? "min" = none ∧
      (ofJson v).substitute Params.empty = .error (.missingParameter "min") := by
  intro v p
  have hv : v.KeysDistinct := by
    simp [v, Json.KeysDistinct, Json.entriesKeysDistinct, Json.itemsKeysDistinct]
  have hbound : ∀ n ∈ v.placeholders, (p.get? n).isSome := by decide
  have hnames : v.placeholders = [] ++ "min" :: [] := by decide
  have hunbound : Params.empty.get? "min" = none := rfl
  refine ⟨hv, hbound, ?_, hnames, hunbound,
    (substitute_ofJson_fills v Params.empty hv).2 [] "min" [] hnames (by simp) hunbound⟩
  rw [(substitute_ofJson_fills v p hv).1 hbound]
  rfl

end Template

end DocQuery
