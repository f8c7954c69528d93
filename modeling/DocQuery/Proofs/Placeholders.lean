import DocQuery.Proofs.ReadPlan

/-!
# What a resolution needs from its parameters

Resolving a body replaces each placeholder by its parameter or its default, and fails on one
with neither, which is then a name the body advertises; every other failure is an option that
cannot be taken. A success keeps the body's shape at every depth
(`QueryBody.resolve_fails_only_on_unbound_names`). The traversal that lists placeholder names and
the one that substitutes are related position by position.
-/

namespace DocQuery

namespace Keyed

theorem mem_insertName {m n : String} {names : List String} :
    m ∈ insertName n names ↔ m = n ∨ m ∈ names := by
  induction names with
  | nil => simp [insertName]
  | cons k rest ih =>
    unfold insertName
    by_cases hlt : n < k
    · simp [hlt]
    · by_cases heq : n = k
      · subst heq
        simp
      · simp only [hlt, heq, if_false, List.mem_cons, ih]
        tauto

/-- The sorted set of names holds exactly the names listed. -/
theorem mem_nameSet {m : String} {names : List String} : m ∈ nameSet names ↔ m ∈ names := by
  have hfold : ∀ acc : List String,
      m ∈ names.foldl (fun acc n => insertName n acc) acc ↔ m ∈ acc ∨ m ∈ names := by
    induction names with
    | nil => simp
    | cons n rest ih =>
      intro acc
      rw [List.foldl_cons, ih, mem_insertName, List.mem_cons]
      tauto
  simpa [nameSet] using hfold []

end Keyed

namespace Error

/-- The error is a placeholder among `names` that the parameters leave unbound. -/
def MissingAmong (params : Params) (names : List String) (e : Error) : Prop :=
  ∃ n, e = .missingParameter n ∧ n ∈ names ∧ params.get? n = none

/-- The error is one that resolving a body with placeholders `names` may give: a placeholder
among them with no parameter and no default, or a sort, limit or skip that cannot be taken. -/
def ResolveFault (params : Params) (names : List String) (e : Error) : Prop :=
  e.MissingAmong params names ∨
    ∃ option reason, e = .invalidOption option reason ∧ option ∈ ["sort", "limit", "skip"]

variable {params : Params} {names names' : List String} {e : Error}

theorem MissingAmong.mono (h : e.MissingAmong params names) (hsub : names ⊆ names') :
    e.MissingAmong params names' := by
  obtain ⟨n, rfl, hn, hunbound⟩ := h
  exact ⟨n, rfl, hsub hn, hunbound⟩

theorem ResolveFault.mono (h : e.ResolveFault params names) (hsub : names ⊆ names') :
    e.ResolveFault params names' := by
  rcases h with hmissing | hoption
  · exact .inl (hmissing.mono hsub)
  · exact .inr hoption

theorem ResolveFault.of_option {option reason : String} (h : option ∈ ["sort", "limit", "skip"]) :
    (Error.invalidOption option reason).ResolveFault params names :=
  .inr ⟨option, reason, rfl, h⟩

end Error

/-! ## Substituting templates -/

namespace Template

variable {params : Params}

theorem mem_itemParamNames {n : String} {ts : List Template} :
    n ∈ itemParamNames ts ↔ ∃ t ∈ ts, n ∈ t.paramNames := by
  induction ts with
  | nil => simp [itemParamNames]
  | cons t ts ih => simp [itemParamNames, ih]

/-- The names of an optional template that is set are among the names of the list. -/
theorem paramNames_subset_filterMap {o : Option Template} {t : Template}
    {os : List (Option Template)} (ht : o = some t) (ho : o ∈ os) :
    t.paramNames ⊆ itemParamNames (os.filterMap id) := by
  intro n hn
  exact mem_itemParamNames.mpr ⟨t, List.mem_filterMap.mpr ⟨o, ho, ht⟩, hn⟩

mutual
/-- A substitution fails only at a placeholder of the template that has no parameter and no
default. -/
theorem substitute_error : ∀ {t : Template} {e : Error},
    t.substitute params = .error e → e.MissingAmong params t.paramNames
  | .literal _, _, h => by simp [substitute] at h
  | .param name default, e, h => by
    cases hv : params.get? name with
    | some v => simp [substitute, hv] at h
    | none =>
      cases default with
      | some d => simp [substitute, hv] at h
      | none =>
        simp only [substitute, hv, Except.error.injEq] at h
        exact ⟨name, h.symm, by simp [paramNames], hv⟩
  | .object es, e, h => by
    simp only [substitute, Except.map_eq_error] at h
    simpa only [paramNames] using substituteEntries_error h
  | .array ts, e, h => by
    simp only [substitute, Except.map_eq_error] at h
    simpa only [paramNames] using substituteItems_error h

theorem substituteItems_error : ∀ {ts : List Template} {e : Error},
    substituteItems params ts = .error e → e.MissingAmong params (itemParamNames ts)
  | [], _, h => by simp [substituteItems] at h
  | t :: ts, e, h => by
    simp only [substituteItems] at h
    cases ht : substitute params t with
    | error e' =>
      simp only [ht, Except.error.injEq] at h
      subst h
      exact (substitute_error ht).mono (List.subset_append_left _ _)
    | ok v =>
      simp only [ht, Except.map_eq_error] at h
      exact (substituteItems_error h).mono (List.subset_append_right _ _)

theorem substituteEntries_error : ∀ {es : List (String × Template)} {acc : Object} {e : Error},
    substituteEntries params es acc = .error e → e.MissingAmong params (entryParamNames es)
  | [], _, _, h => by simp [substituteEntries] at h
  | (k, t) :: es, acc, e, h => by
    simp only [substituteEntries] at h
    cases ht : substitute params t with
    | error e' =>
      simp only [ht, Except.error.injEq] at h
      subst h
      exact (substitute_error ht).mono (List.subset_append_left _ _)
    | ok v =>
      simp only [ht] at h
      exact (substituteEntries_error h).mono (List.subset_append_right _ _)
end

end Template

/-! ## Options that cannot be taken -/

namespace Json

/-- A count fails only with the error that names its option. -/
theorem toCount_error {option : String} {v : Json} {e : Error} (h : toCount option v = .error e) :
    ∃ reason, e = .invalidOption option reason := by
  unfold toCount at h
  split at h
  · cases h
  · split at h
    · cases h
    · dsimp only at h
      split at h
      · cases h
      · exact ⟨_, (Except.error.inj h).symm⟩
  · exact ⟨_, (Except.error.inj h).symm⟩

end Json

namespace SortField

theorem parseOrder_error {dir : Json} {e : Error} (h : parseOrder dir = .error e) :
    ∃ reason, e = .invalidOption "sort" reason := by
  unfold parseOrder at h
  split at h
  · split at h
    · cases h
    · split at h
      · cases h
      · exact ⟨_, (Except.error.inj h).symm⟩
  · split at h
    · cases h
    · split at h
      · cases h
      · exact ⟨_, (Except.error.inj h).symm⟩
  · exact ⟨_, (Except.error.inj h).symm⟩

theorem parseEntry_error {entry : Json} {e : Error} (h : parseEntry entry = .error e) :
    ∃ reason, e = .invalidOption "sort" reason := by
  unfold parseEntry at h
  split at h
  · exact parseOrder_error (Except.map_eq_error.mp h)
  · cases h
  · cases h
  · exact ⟨_, (Except.error.inj h).symm⟩

/-- Every failure of a sort specification is a sort error. -/
theorem parseSpec_error {spec : Json} {e : Error} (h : parseSpec spec = .error e) :
    ∃ reason, e = .invalidOption "sort" reason := by
  unfold parseSpec at h
  split at h
  · obtain ⟨-, x, -, -, -, hx⟩ := mapM_eq_error h
    exact parseOrder_error (Except.map_eq_error.mp hx)
  · obtain ⟨-, x, -, -, -, hx⟩ := mapM_eq_error h
    exact parseEntry_error hx
  · cases h
  · exact ⟨_, (Except.error.inj h).symm⟩

end SortField

/-! ## Resolving bodies -/

namespace QueryBody

variable {params : Params}

theorem resolveCount_error {option : String} {t : Template} {e : Error}
    (h : resolveCount params option (some t) = .error e) :
    e.MissingAmong params t.paramNames ∨ ∃ reason, e = .invalidOption option reason := by
  simp only [resolveCount] at h
  cases ht : t.substitute params with
  | error e' =>
    simp only [ht, Except.bind, Except.error.injEq] at h
    subst h
    exact .inl (Template.substitute_error ht)
  | ok v =>
    simp only [ht, Except.bind] at h
    exact .inr (Json.toCount_error h)

theorem resolveSelector_error : ∀ {sel : List (String × Template)} {e : Error},
    resolveSelector params sel = .error e → e.MissingAmong params (Template.entryParamNames sel)
  | [], _, h => by cases h
  | (field, t) :: rest, e, h => by
    simp only [resolveSelector] at h
    rcases Except.bind_eq_error.mp h with ht | ⟨v, -, h⟩
    · exact (Template.substitute_error ht).mono (List.subset_append_left _ _)
    · rcases Except.bind_eq_error.mp h with hrest | ⟨tail, -, h⟩
      · exact (resolveSelector_error hrest).mono (List.subset_append_right _ _)
      · cases h

/-- The options of a level fail at a placeholder of the sort, limit or skip, or at a value that
is no sort or count. -/
theorem resolveOptions_error {b : QueryBody} {e : Error} (h : resolveOptions params b = .error e) :
    e.ResolveFault params (Template.itemParamNames ([b.sort, b.limit, b.skip].filterMap id)) := by
  -- a limit or skip fails as its count does
  have hcount : ∀ {option : String} {o : Option Template}, option ∈ ["sort", "limit", "skip"] →
      o ∈ [b.sort, b.limit, b.skip] → resolveCount params option o = .error e →
      e.ResolveFault params (Template.itemParamNames ([b.sort, b.limit, b.skip].filterMap id)) := by
    intro option o hoption ho hfail
    cases o with
    | none => cases hfail
    | some t =>
      rcases resolveCount_error hfail with hmissing | ⟨reason, rfl⟩
      · exact .inl (hmissing.mono (Template.paramNames_subset_filterMap rfl ho))
      · exact .of_option hoption
  -- after the sort, the limit and then the skip
  have hafter : ∀ {sort : List SortField}, (resolveCount params "limit" b.limit >>= fun limit =>
      resolveCount params "skip" b.skip >>= fun skip =>
        (pure { sort, limit, skip, fields := b.fields } : Except Error FindOptions)) = .error e →
      e.ResolveFault params (Template.itemParamNames ([b.sort, b.limit, b.skip].filterMap id)) := by
    intro sort h
    rcases Except.bind_eq_error.mp h with hlimit | ⟨limit, -, h⟩
    · exact hcount (by simp) (by simp) hlimit
    · rcases Except.bind_eq_error.mp h with hskip | ⟨skip, -, h⟩
      · exact hcount (by simp) (by simp) hskip
      · cases h
  rw [resolveOptions] at h
  split at h
  · rename_i t hs
    rcases Except.bind_eq_error.mp h with hsort | ⟨sort, -, h⟩
    · cases ht : t.substitute params with
      | error e' =>
        simp only [ht, Except.bind, Except.error.injEq] at hsort
        subst hsort
        exact .inl ((Template.substitute_error ht).mono
          (Template.paramNames_subset_filterMap hs (by simp)))
      | ok v =>
        simp only [ht, Except.bind] at hsort
        obtain ⟨reason, rfl⟩ := SortField.parseSpec_error hsort
        exact .of_option (by simp)
    · exact hafter h
  · rcases Except.bind_eq_error.mp h with hsort | ⟨sort, -, h⟩
    · cases hsort
    · exact hafter h

mutual
/-- A level fails at one of its own placeholders, at an option, or inside a relation. -/
theorem resolveLevel_error : ∀ {b : QueryBody} {e : Error},
    resolveLevel params b = .error e → e.ResolveFault params b.paramList
  | ⟨selector, sort, limit, skip, fields, paginate, relations⟩, e, h => by
    simp only [resolveLevel] at h
    rcases Except.bind_eq_error.mp h with hsel | ⟨sel, -, h⟩
    · refine .inl ((resolveSelector_error hsel).mono ?_)
      simp [paramList]
    · rcases Except.bind_eq_error.mp h with hoptions | ⟨options, -, h⟩
      · refine (resolveOptions_error hoptions).mono ?_
        simp [paramList]
      · rcases Except.bind_eq_error.mp h with hrels | ⟨rels, -, h⟩
        · refine (resolveRelations_error hrels).mono ?_
          simp [paramList]
        · cases h

theorem resolveRelations_error : ∀ {rs : List (String × QueryBody)} {e : Error},
    resolveRelations params rs = .error e → e.ResolveFault params (relationParamList rs)
  | [], _, h => by cases h
  | (name, b) :: rest, e, h => by
    simp only [resolveRelations] at h
    rcases Except.bind_eq_error.mp h with hb | ⟨c, -, h⟩
    · exact (resolveLevel_error hb).mono (List.subset_append_left _ _)
    · rcases Except.bind_eq_error.mp h with hrest | ⟨tail, -, h⟩
      · exact (resolveRelations_error hrest).mono (List.subset_append_right _ _)
      · cases h
end

/-- A resolution fails at a placeholder of the body, at any depth, that the parameters leave
unbound and that has no default, or at a sort, limit or skip; the pagination overrides fail
only on their counts. -/
theorem resolve_error {b : QueryBody} {e : Error} (h : b.resolve params = .error e) :
    e.ResolveFault params b.paramList := by
  -- an override fails as its count does
  have hcount : ∀ {option : String} {set : ConcreteBody → Option Nat → ConcreteBody}
      {c : ConcreteBody}, option ∈ ["sort", "limit", "skip"] →
      overrideCount params option set c = .error e → e.ResolveFault params b.paramList := by
    intro option set c hoption hfail
    obtain ⟨v, -, hv⟩ := overrideCount_eq_error.mp hfail
    obtain ⟨reason, rfl⟩ := Json.toCount_error hv
    exact .of_option hoption
  rw [resolve_eq_overrideCount] at h
  rcases Except.bind_eq_error.mp h with hlevel | ⟨c, -, h⟩
  · exact resolveLevel_error hlevel
  · split at h
    · rcases Except.bind_eq_error.mp h with hlimit | ⟨c', -, hskip⟩
      · exact hcount (by simp) hlimit
      · exact hcount (by simp) hskip
    · cases h

/-! ## The shape of a resolved body -/

mutual
/-- A concrete body has the shape of a body at every depth: the same selector fields in the
same order, the same projection, and relations of the same names in the same order, each of the
shape of its body. -/
def SameShape : QueryBody → ConcreteBody → Prop
  | ⟨selector, _, _, _, fields, _, relations⟩, c =>
    c.selector.map (·.1) = selector.map (·.1) ∧ c.options.fields = fields ∧
      relationsSameShape relations c.relations

/-- Relations of the same names in the same order, each concrete body of the shape of its
body. -/
def relationsSameShape : List (String × QueryBody) → List (String × ConcreteBody) → Prop
  | [], [] => True
  | (name, b) :: rest, (name', c) :: cs => name' = name ∧ SameShape b c ∧ relationsSameShape rest cs
  | _, _ => False
end

theorem sameShape_iff (b : QueryBody) (c : ConcreteBody) :
    b.SameShape c ↔ c.selector.map (·.1) = b.selector.map (·.1) ∧ c.options.fields = b.fields ∧
      relationsSameShape b.relations c.relations := by
  obtain ⟨_, _, _, _, _, _, _⟩ := b
  rfl

theorem resolveSelector_keys : ∀ {sel : List (String × Template)} {d : Document},
    resolveSelector params sel = .ok d → d.map (·.1) = sel.map (·.1)
  | [], d, h => by
    simp only [resolveSelector, Except.ok.injEq] at h
    subst h
    rfl
  | (field, t) :: rest, d, h => by
    simp only [resolveSelector] at h
    obtain ⟨v, -, h⟩ := Except.bind_eq_ok.mp h
    obtain ⟨tail, htail, h⟩ := Except.bind_eq_ok.mp h
    simp only [pure, Except.pure, Except.ok.injEq] at h
    subst h
    simp [resolveSelector_keys htail]

theorem resolveOptions_fields {b : QueryBody} {o : FindOptions}
    (h : resolveOptions params b = .ok o) : o.fields = b.fields := by
  rw [resolveOptions] at h
  -- whichever the sort, the projection is copied
  split at h
  all_goals
    obtain ⟨sort, -, h⟩ := Except.bind_eq_ok.mp h
    obtain ⟨limit, -, h⟩ := Except.bind_eq_ok.mp h
    obtain ⟨skip, -, h⟩ := Except.bind_eq_ok.mp h
    simp only [pure, Except.pure, Except.ok.injEq] at h
    rw [← h]

mutual
/-- Resolving a level keeps its shape, and its relations' at every depth. -/
theorem resolveLevel_sameShape : ∀ {b : QueryBody} {c : ConcreteBody},
    resolveLevel params b = .ok c → b.SameShape c
  | ⟨selector, sort, limit, skip, fields, paginate, relations⟩, c, h => by
    obtain ⟨sel, options, rels, hsel, hoptions, hrels, rfl⟩ := resolveLevel_eq_ok.mp h
    exact ⟨resolveSelector_keys hsel, resolveOptions_fields hoptions, resolveRelations_sameShape hrels⟩

theorem resolveRelations_sameShape : ∀ {rs : List (String × QueryBody)}
    {cs : List (String × ConcreteBody)}, resolveRelations params rs = .ok cs → relationsSameShape rs cs
  | [], cs, h => by
    cases h
    trivial
  | (name, b) :: rest, cs, h => by
    obtain ⟨c, tail, hc, htail, rfl⟩ := resolveRelations_cons_eq_ok.mp h
    exact ⟨rfl, resolveLevel_sameShape hc, resolveRelations_sameShape htail⟩
end

theorem resolve_sameShape {b : QueryBody} {c : ConcreteBody} (h : b.resolve params = .ok c) :
    b.SameShape c := by
  obtain ⟨c₀, hc₀, hc⟩ := resolve_eq_resolveLevel h
  have hshape := resolveLevel_sameShape hc₀
  rw [sameShape_iff] at hshape ⊢
  rw [hc]
  exact hshape

/-- A resolution fails for want of a parameter only at an advertised, unbound name; with every
advertised name bound it fails only on a sort, limit or skip; a success keeps the relation
names, selector fields and projection at every depth. -/
theorem resolve_fails_only_on_unbound_names (b : QueryBody) (params : Params) :
    (∀ n, b.resolve params = .error (.missingParameter n) →
      n ∈ b.paramNames ∧ params.get? n = none) ∧
    ((∀ n ∈ b.paramNames, (params.get? n).isSome) → ∀ e, b.resolve params = .error e →
      ∃ option reason, e = .invalidOption option reason ∧ option ∈ ["sort", "limit", "skip"]) ∧
    (∀ c, b.resolve params = .ok c → b.SameShape c) := by
  refine ⟨fun n h => ?_, fun hbound e h => ?_, fun c h => resolve_sameShape h⟩
  · rcases resolve_error h with ⟨m, hm, hmem, hunbound⟩ | ⟨option, reason, hoption, -⟩
    · cases hm
      exact ⟨Keyed.mem_nameSet.mpr hmem, hunbound⟩
    · cases hoption
  · rcases resolve_error h with ⟨m, rfl, hmem, hunbound⟩ | hoption
    · have := hbound m (Keyed.mem_nameSet.mpr hmem)
      simp [hunbound] at this
    · exact hoption

end QueryBody

end DocQuery
