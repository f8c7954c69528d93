import DocQuery.Proofs.WireForm

/-!
# Sort specifications and the sort builder

A sort is `null`, an object from fields to directions, or an array of fields, one-field arrays
and `[field, direction]` pairs (`SortField.parseSpec_eq_ok_iff`). `sortAsc` and `sortDesc`
append to a literal array and replace any other sort, so on an unset or literal sort the calls'
keys follow what resolving gave before, a bad entry kept in front
(`QueryBody.sort_calls_append_or_replace`).
-/

namespace DocQuery

namespace Json

/-- The value names the direction: a number whose signed 64-bit value is `1` for ascending and
`-1` for descending, or the direction's name in any ASCII case. -/
def NamesDirection (v : Json) (o : SortOrder) : Prop :=
  (∃ n, v = .num n ∧ n.toSigned? = some (if o = .asc then 1 else -1)) ∨
    ∃ s, v = .str s ∧ s.toLower = o.name

/-- An entry of an array specification describes a sort key: a field name alone or alone in an
array is ascending, and a field name with a value naming a direction in a two-item array has
that direction. -/
def EntryDescribes (entry : Json) (s : SortField) : Prop :=
  (entry = .str s.field ∧ s.order = .asc) ∨ (entry = .arr [.str s.field] ∧ s.order = .asc) ∨
    ∃ d, entry = .arr [.str s.field, d] ∧ NamesDirection d s.order

/-- A specification describes a sort: `null` the empty sort, an object its keys in order with
the directions their values name, and an array the keys its entries describe, in order. -/
def SortSpec (spec : Json) (sort : List SortField) : Prop :=
  match spec with
  | .null => sort = []
  | .obj es => List.Forall₂ (fun e s => s.field = e.1 ∧ NamesDirection e.2 s.order) es sort
  | .arr entries => List.Forall₂ EntryDescribes entries sort
  | _ => False

end Json

namespace SortField

/-- The entry `[field, direction]` a builder call appends to a literal array specification. -/
def entry (s : SortField) : Json := .arr [.str s.field, .str s.order.name]

theorem equalsIgnoringCase_iff (s word : String) :
    equalsIgnoringCase s word = true ↔ s.toLower = word := by
  rw [equalsIgnoringCase, beq_iff_eq, ← String.toList_inj, String.toLower, String.toList_map]

/-- A direction is read exactly from a value naming it. -/
theorem parseOrder_eq_ok_iff (dir : Json) (o : SortOrder) :
    parseOrder dir = .ok o ↔ dir.NamesDirection o := by
  cases dir with
  | num n =>
    by_cases h1 : n.toSigned? = some 1
    · cases o <;> simp [parseOrder, Json.NamesDirection, h1]
    · by_cases h2 : n.toSigned? = some (-1) <;>
        cases o <;> simp [parseOrder, Json.NamesDirection, h1, h2]
  | str s =>
    by_cases ha : s.toLower = "asc"
    · cases o <;>
        simp [parseOrder, Json.NamesDirection, equalsIgnoringCase_iff, ha, SortOrder.name]
    · by_cases hd : s.toLower = "desc" <;>
        cases o <;> simp [parseOrder, Json.NamesDirection, equalsIgnoringCase_iff, ha, hd,
          SortOrder.name]
  | _ => simp [parseOrder, Json.NamesDirection]

/-- A direction read for a field gives a key on that field with the direction the value names. -/
theorem map_parseOrder_eq_ok_iff (field : String) (dir : Json) (s : SortField) :
    (parseOrder dir).map (fun o => (⟨field, o⟩ : SortField)) = .ok s ↔
      s.field = field ∧ dir.NamesDirection s.order := by
  obtain ⟨f, o⟩ := s
  rw [Except.map_eq_ok]
  constructor
  · rintro ⟨o', hdir, heq⟩
    cases heq
    exact ⟨rfl, (parseOrder_eq_ok_iff dir _).mp hdir⟩
  · rintro ⟨rfl, hdir⟩
    exact ⟨o, (parseOrder_eq_ok_iff dir o).mpr hdir, rfl⟩

/-- An entry of an array specification is read exactly as the key it describes. -/
theorem parseEntry_eq_ok_iff (entry : Json) (s : SortField) :
    parseEntry entry = .ok s ↔ entry.EntryDescribes s := by
  obtain ⟨field, order⟩ := s
  cases entry with
  | str f =>
    simp [parseEntry, Json.EntryDescribes, asc, eq_comm]
  | arr items =>
    -- a one- or two-item array led by a field name; any other array is refused
    rcases items with _ | ⟨x, _ | ⟨y, _ | ⟨z, rest⟩⟩⟩
    · simp [parseEntry, Json.EntryDescribes]
    · cases x <;> simp [parseEntry, Json.EntryDescribes, asc, eq_comm]
    · cases x with
      | str f =>
        simp only [parseEntry, map_parseOrder_eq_ok_iff]
        simp [Json.EntryDescribes, eq_comm]
      | _ => simp [parseEntry, Json.EntryDescribes]
    · cases x <;> simp [parseEntry, Json.EntryDescribes]
  | _ => simp [parseEntry, Json.EntryDescribes]

/-- Reading a specification succeeds exactly on the sorts it describes. -/
theorem parseSpec_eq_ok_iff (spec : Json) (sort : List SortField) :
    parseSpec spec = .ok sort ↔ spec.SortSpec sort := by
  cases spec with
  | null => simp [parseSpec, Json.SortSpec, eq_comm]
  | obj es => simp only [parseSpec, Json.SortSpec, mapM_eq_ok_iff, map_parseOrder_eq_ok_iff]
  | arr entries => simp only [parseSpec, Json.SortSpec, mapM_eq_ok_iff, parseEntry_eq_ok_iff]
  | _ => simp [parseSpec, Json.SortSpec]

theorem parseEntry_entry (s : SortField) : parseEntry s.entry = .ok s := by
  obtain ⟨field, order⟩ := s
  cases order <;> simp only [entry] <;> rfl

/-- Entries the builder appends read back as their keys, after the keys the array read before,
and an array that failed fails with the same error. -/
theorem parseSpec_append_entries (entries : List Json) (keys : List SortField) :
    parseSpec (.arr (entries ++ keys.map entry)) = (parseSpec (.arr entries)).map (· ++ keys) := by
  simp only [parseSpec, List.mapM_append, List.mapM_map, mapM_read_comp parseEntry_entry]
  cases entries.mapM parseEntry <;> rfl

end SortField

namespace QueryBody

/-- The entries of a sort written as a literal array; none for any other sort. -/
def literalSortEntries : Option Template → List Json
  | some (.literal (.arr entries)) => entries
  | _ => []

theorem literalSortEntries_of_not_array {sort : Option Template}
    (h : ∀ entries, sort ≠ some (.literal (.arr entries))) : literalSortEntries sort = [] := by
  unfold literalSortEntries
  split
  · exact absurd rfl (h _)
  · rfl

/-- A builder call sets the sort to a literal array: the entries the sort had as a literal
array, then the call's entry. -/
theorem pushSort_eq (b : QueryBody) (field : String) (order : SortOrder) :
    b.pushSort field order = { b with
      sort := some (.literal (.arr
        (literalSortEntries b.sort ++ [SortField.entry ⟨field, order⟩]))) } := by
  unfold pushSort
  split
  · rename_i entries h
    rw [h]
    rfl
  · rename_i h
    rw [literalSortEntries_of_not_array h]
    rfl

/-- One builder call: `sortAsc` for an ascending key, `sortDesc` for a descending one. -/
def sortCall (b : QueryBody) (s : SortField) : QueryBody :=
  match s.order with
  | .asc => b.sortAsc s.field
  | .desc => b.sortDesc s.field

theorem sortCall_eq (b : QueryBody) (s : SortField) :
    b.sortCall s = b.pushSort s.field s.order := by
  obtain ⟨field, order⟩ := s
  cases order <;> rfl

/-- The body after builder calls, one for each key, in order. -/
def withSortCalls (b : QueryBody) (calls : List SortField) : QueryBody := calls.foldl sortCall b

@[simp] theorem withSortCalls_nil (b : QueryBody) : b.withSortCalls [] = b := rfl

/-- After at least one call the sort is the literal array of the entries it had as a literal
array, followed by the calls' entries; nothing else of the body changes. -/
theorem withSortCalls_cons (b : QueryBody) (c : SortField) (cs : List SortField) :
    b.withSortCalls (c :: cs) = { b with
      sort := some (.literal (.arr
        (literalSortEntries b.sort ++ (c :: cs).map SortField.entry))) } := by
  -- the first call leaves a literal array, to which each later call appends
  induction cs generalizing b c with
  | nil => simp [withSortCalls, sortCall_eq, pushSort_eq]
  | cons c' cs ih =>
    rw [withSortCalls, List.foldl_cons, ← withSortCalls, ih, sortCall_eq, pushSort_eq]
    simp [literalSortEntries]

/-- A sort that is no literal array is dropped by the first call: the body after the calls is
the one the calls give from no sort at all. -/
theorem withSortCalls_of_not_array {b : QueryBody}
    (h : ∀ entries, b.sort ≠ some (.literal (.arr entries)))
    (c : SortField) (cs : List SortField) :
    b.withSortCalls (c :: cs) = { b with sort := none }.withSortCalls (c :: cs) := by
  rw [withSortCalls_cons, withSortCalls_cons, literalSortEntries_of_not_array h]
  rfl

/-- The sort a level's options resolve to: the specification under the parameters, read as a
sort; none when the body has no sort. -/
def resolveSort (params : Params) : Option Template → Except Error (List SortField)
  | some t => (t.substitute params).bind SortField.parseSpec
  | none => .ok []

theorem resolveOptions_eq (params : Params) (b : QueryBody) :
    resolveOptions params b = (resolveSort params b.sort).bind fun sort =>
      (resolveCount params "limit" b.limit).bind fun limit =>
        (resolveCount params "skip" b.skip).bind fun skip =>
          .ok { sort, limit, skip, fields := b.fields } := by
  rw [resolveOptions]
  cases b.sort <;> rfl

/-- The options of a level read the sort only through the sort it resolves to: a body whose
sort resolves to `f` of the other's resolves to options whose sort is `f` of the other's. -/
theorem resolveOptions_map_sort {params : Params} {b b' : QueryBody}
    (f : List SortField → List SortField)
    (hsort : resolveSort params b'.sort = (resolveSort params b.sort).map f)
    (hlimit : b'.limit = b.limit) (hskip : b'.skip = b.skip) (hfields : b'.fields = b.fields) :
    resolveOptions params b' =
      (resolveOptions params b).map fun o => { o with sort := f o.sort } := by
  rw [resolveOptions_eq, resolveOptions_eq, hsort, hlimit, hskip, hfields]
  cases resolveSort params b.sort <;> cases resolveCount params "limit" b.limit <;>
    cases resolveCount params "skip" b.skip <;> rfl

/-- Keys appended to a sort that is unset or a literal array are appended to the sort it
resolves to, whether or not that array reads as a sort. -/
theorem resolveSort_append_entries {params : Params} {sort : Option Template}
    (hsort : sort = none ∨ ∃ entries, sort = some (.literal (.arr entries)))
    (keys : List SortField) :
    resolveSort params
        (some (.literal (.arr (literalSortEntries sort ++ keys.map SortField.entry)))) =
      (resolveSort params sort).map (· ++ keys) := by
  rcases hsort with rfl | ⟨entries, rfl⟩
  · exact SortField.parseSpec_append_entries [] keys
  · exact SortField.parseSpec_append_entries entries keys

theorem resolveOptions_sort {params : Params} {b : QueryBody} {o : FindOptions}
    (h : resolveOptions params b = .ok o) : resolveSort params b.sort = .ok o.sort := by
  rw [resolveOptions_eq] at h
  obtain ⟨sort, hsort, h⟩ := Except.bind_eq_ok.mp h
  obtain ⟨limit, -, h⟩ := Except.bind_eq_ok.mp h
  obtain ⟨skip, -, h⟩ := Except.bind_eq_ok.mp h
  cases h
  exact hsort

/-- The sort of a resolved body is the one its specification reads as under the parameters;
the pagination overrides leave it alone. -/
theorem resolve_sort {params : Params} {b : QueryBody} {c : ConcreteBody}
    (h : b.resolve params = .ok c) : resolveSort params b.sort = .ok c.options.sort := by
  obtain ⟨c₀, hc₀, hc⟩ := resolve_eq_resolveLevel h
  have hsort : c.options.sort = c₀.options.sort := by rw [hc]
  rw [hsort]
  obtain ⟨sel, options, rels, -, hoptions, -, rfl⟩ := resolveLevel_eq_ok.mp hc₀
  exact resolveOptions_sort hoptions

end QueryBody

namespace ConcreteBody

/-- The concrete body with keys appended to its sort. -/
def appendSort (c : ConcreteBody) (keys : List SortField) : ConcreteBody :=
  { c with options := { c.options with sort := c.options.sort ++ keys } }

@[simp] theorem appendSort_nil (c : ConcreteBody) : c.appendSort [] = c := by
  obtain ⟨selector, ⟨sort, limit, skip, fields⟩, relations⟩ := c
  simp [appendSort]

end ConcreteBody

namespace QueryBody

/-- A level resolves with keys appended to its sort when its options do, its selector and
relations being the other's. -/
theorem resolveLevel_appendSort {params : Params} {b b' : QueryBody} (keys : List SortField)
    (hoptions : resolveOptions params b' =
      (resolveOptions params b).map fun o => { o with sort := o.sort ++ keys })
    (hselector : b'.selector = b.selector) (hrelations : b'.relations = b.relations) :
    resolveLevel params b' = (resolveLevel params b).map (·.appendSort keys) := by
  obtain ⟨selector, sort, limit, skip, fields, paginate, relations⟩ := b
  obtain ⟨selector', sort', limit', skip', fields', paginate', relations'⟩ := b'
  simp only at hselector hrelations
  subst selector' relations'
  simp only [resolveLevel, hoptions]
  cases resolveSelector params selector <;>
    cases resolveOptions params ⟨selector, sort, limit, skip, fields, paginate, relations⟩ <;>
    cases resolveRelations params relations <;> rfl

/-- The pagination overrides set the root limit and skip only, so keys appended to the sort of
the level are appended to the sort of the resolved body. -/
theorem resolve_appendSort {params : Params} {b b' : QueryBody} (keys : List SortField)
    (hlevel : resolveLevel params b' = (resolveLevel params b).map (·.appendSort keys))
    (hpaginate : b'.paginate = b.paginate) :
    b'.resolve params = (b.resolve params).map (·.appendSort keys) := by
  rw [resolve_eq_overrideCount, resolve_eq_overrideCount, hlevel, hpaginate]
  cases resolveLevel params b with
  | error e => rfl
  | ok c =>
    cases b.paginate
    · rfl
    · -- each override rewrites one count, which the appended keys leave alone
      show (overrideCount params "limit" setRootLimit (c.appendSort keys)).bind _ =
        ((overrideCount params "limit" setRootLimit c).bind _).map _
      rw [@overrideCount_map params "limit" setRootLimit (·.appendSort keys) (fun _ _ => rfl)]
      cases overrideCount params "limit" setRootLimit c with
      | error e => rfl
      | ok c₁ =>
        exact @overrideCount_map params "skip" setRootSkip (·.appendSort keys) (fun _ _ => rfl) c₁

/-- On a body whose sort is unset or a literal array, resolving after the sort calls gives what
resolving before gave, with the calls' keys appended to the sort. -/
theorem resolve_withSortCalls {params : Params} {b : QueryBody}
    (hsort : b.sort = none ∨ ∃ entries, b.sort = some (.literal (.arr entries)))
    (calls : List SortField) :
    (b.withSortCalls calls).resolve params = (b.resolve params).map (·.appendSort calls) := by
  cases calls with
  | nil =>
    rw [withSortCalls_nil]
    cases b.resolve params <;> simp [Except.map]
  | cons c cs =>
    -- the calls change the sort alone, and its resolved sort by appending the keys
    have hbody := withSortCalls_cons b c cs
    refine resolve_appendSort (c :: cs) ?_ (by rw [hbody])
    refine resolveLevel_appendSort (c :: cs) ?_ (by rw [hbody]) (by rw [hbody])
    refine resolveOptions_map_sort (· ++ c :: cs) ?_
      (by rw [hbody]) (by rw [hbody]) (by rw [hbody])
    rw [hbody]
    exact resolveSort_append_entries hsort (c :: cs)

/-- A sort specification reads exactly as the sort it describes. On an unset or literal array
sort, sort calls append their keys to what resolving gave before, the same error included; any
other sort is dropped by the first call. -/
theorem sort_calls_append_or_replace :
    (∀ spec sort, SortField.parseSpec spec = .ok sort ↔ spec.SortSpec sort) ∧
    (∀ (b : QueryBody) (params : Params) (c : ConcreteBody),
      b.resolve params = .ok c → resolveSort params b.sort = .ok c.options.sort) ∧
    (∀ (b : QueryBody) (params : Params) (calls : List SortField),
      (b.sort = none ∨ ∃ entries, b.sort = some (.literal (.arr entries))) →
      (b.withSortCalls calls).resolve params = (b.resolve params).map (·.appendSort calls)) ∧
    ∀ (b : QueryBody) (params : Params) (c : SortField) (cs : List SortField),
      (∀ entries, b.sort ≠ some (.literal (.arr entries))) →
      b.withSortCalls (c :: cs) = { b with sort := none }.withSortCalls (c :: cs) ∧
      (b.withSortCalls (c :: cs)).resolve params =
        ({ b with sort := none }.resolve params).map (ConcreteBody.appendSort · (c :: cs)) := by
  refine ⟨SortField.parseSpec_eq_ok_iff, fun b params c h => resolve_sort h,
    fun b params calls hsort => resolve_withSortCalls hsort calls,
    fun b params c cs hsort => ⟨withSortCalls_of_not_array hsort c cs, ?_⟩⟩
  rw [withSortCalls_of_not_array hsort c cs]
  exact @resolve_withSortCalls params { b with sort := none } (.inl rfl) (c :: cs)

/-- Titles descending, then ranks: a call appends to the literal array, and a sort chosen by a
parameter is dropped by the first call. -/
theorem sort_calls_after_title :
    let titled : QueryBody :=
      { sort := some (.literal (.arr [.arr [.str "title", .num (.int (-1))]])) }
    let chosen : QueryBody := { sort := some (.param "order" none) }
    (∃ entries, titled.sort = some (.literal (.arr entries))) ∧
    titled.resolve Params.empty = .ok ⟨[], { sort := [⟨"title", .desc⟩] }, []⟩ ∧
    (titled.withSortCalls [⟨"rank", .asc⟩]).resolve Params.empty =
      .ok ⟨[], { sort := [⟨"title", .desc⟩, ⟨"rank", .asc⟩] }, []⟩ ∧
    (∀ entries, chosen.sort ≠ some (.literal (.arr entries))) ∧
    (chosen.withSortCalls [⟨"rank", .asc⟩]).resolve Params.empty =
      .ok ⟨[], { sort := [⟨"rank", .asc⟩] }, []⟩ := by
  intro titled chosen
  have hlist : ∃ entries, titled.sort = some (.literal (.arr entries)) := ⟨_, rfl⟩
  have hparam : ∀ entries, chosen.sort ≠ some (.literal (.arr entries)) := fun _ h => by cases h
  have htitled : titled.resolve Params.empty =
      .ok ⟨[], { sort := [⟨"title", .desc⟩] }, []⟩ := rfl
  refine ⟨hlist, htitled, ?_, hparam, ?_⟩
  · rw [sort_calls_append_or_replace.2.2.1 titled Params.empty _ (.inr hlist), htitled]
    rfl
  · rw [(sort_calls_append_or_replace.2.2.2 chosen Params.empty ⟨"rank", .asc⟩ [] hparam).2]
    rfl

/-- A literal array that reads as no sort is kept by a sort call, not dropped: the call appends
its key after the bad entry and the body still fails to resolve, where the body without that
array resolves to the call's key. -/
theorem sortAsc_keeps_unreadable_array :
    let b : QueryBody := { sort := some (.literal (.arr [.num (.int 5)])) }
    SortField.parseSpec (.arr [.num (.int 5)]) =
      .error (.invalidOption "sort" "bad sort entry 5") ∧
    (b.sortAsc "a").sort = some (.literal (.arr [.num (.int 5), .arr [.str "a", .str "asc"]])) ∧
    (b.sortAsc "a").resolve Params.empty = .error (.invalidOption "sort" "bad sort entry 5") ∧
    ({ b with sort := none }.sortAsc "a").resolve Params.empty =
      .ok ⟨[], { sort := [⟨"a", .asc⟩] }, []⟩ :=
  ⟨rfl, rfl, rfl, rfl⟩

end QueryBody

end DocQuery
