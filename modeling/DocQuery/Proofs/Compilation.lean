import DocQuery.Proofs.ReadPlan

/-!
# What compiling a body checks

Compiling a body succeeds exactly when every relation, at every depth, is registered for the
collection its node reads (`ConcreteBody.Registered`) and the body nests within the depth bound.
The compiled graph mirrors the body's relation tree (`ConcreteBody.Mirrors`). A compilation that
fails reports the first fault of a depth-first walk (`ConcreteBody.faults`), a relation's lookup
before its body.
-/

namespace DocQuery

namespace ConcreteBody

mutual
/-- The number of edges on the longest chain of nested relations of a body. -/
def depth : ConcreteBody → Nat
  | ⟨_, _, relations⟩ => relationsDepth relations

/-- The depth a body gets from its relations: one more than the deepest of them. -/
def relationsDepth : List (String × ConcreteBody) → Nat
  | [] => 0
  | (_, b) :: rest => max (depth b + 1) (relationsDepth rest)
end

mutual
/-- Every relation of the body, at every depth, is registered for the collection its node reads:
`collection` for the body's own relations, and for a nested body the collection of the link
that reached it. -/
def Registered (links : Links) : String → ConcreteBody → Prop
  | collection, ⟨_, _, relations⟩ => relationsRegistered links collection relations

/-- Every relation of a list is registered for `collection`, and its body for the linked
collection. -/
def relationsRegistered (links : Links) (collection : String) :
    List (String × ConcreteBody) → Prop
  | [] => True
  | (relation, b) :: rest =>
    (∃ l, links.get? collection relation = some l ∧ Registered links l.collection b) ∧
      relationsRegistered links collection rest
end

mutual
/-- The checks that compiling a body read from `collection` at `depth` fails, met depth first:
entering a node deeper than the bound, whose relations are then not looked at, and each
relation the registry does not know for the node's collection, whose body is then not entered.
Each is listed with the depth of the node it is met at. -/
def faults (links : Links) (maxDepth : Option Nat) :
    String → Nat → ConcreteBody → List (Nat × Error)
  | collection, depth, ⟨_, _, relations⟩ =>
    match maxDepth with
    | some max =>
      if max < depth then [(depth, .depthExceeded max)]
      else relationFaults links maxDepth collection depth relations
    | none => relationFaults links maxDepth collection depth relations

/-- The failed checks of the relations of a node read from `collection` at `depth`, relation
by relation: its lookup, then the checks of its body one level down. -/
def relationFaults (links : Links) (maxDepth : Option Nat) (collection : String) (depth : Nat) :
    List (String × ConcreteBody) → List (Nat × Error)
  | [] => []
  | (relation, b) :: rest =>
    (match links.get? collection relation with
      | none => [(depth, .unknownRelation collection relation)]
      | some l => faults links maxDepth l.collection (depth + 1) b) ++
      relationFaults links maxDepth collection depth rest
end

mutual
/-- A graph node is the compiled form of a body read from `collection` and attached by `link`:
it reads that collection with the body's selector and options, and its children are the body's
relations in order, each compiled from its body and attached by the link registered for it,
whose collection it reads. -/
def Mirrors (links : Links) (collection : String) (link : Option Link) :
    ConcreteBody → GraphNode → Prop
  | ⟨selector, options, relations⟩, n =>
    n.collection = collection ∧ n.selector = selector ∧ n.options = options ∧ n.link = link ∧
      relationsMirror links collection relations n.children

/-- The children of a node reading `collection` are its relations in order, each compiled
against its registered link. -/
def relationsMirror (links : Links) (collection : String) :
    List (String × ConcreteBody) → List (String × GraphNode) → Prop
  | [], [] => True
  | (relation, b) :: rest, (name, n) :: ns =>
    name = relation ∧
      (∃ l, links.get? collection relation = some l ∧ Mirrors links l.collection (some l) b n) ∧
      relationsMirror links collection rest ns
  | _, _ => False
end

/-- An outcome is the one the checks give: success when none fails, else the first failure. -/
def Reports {α : Type} : Except Error α → List (Nat × Error) → Prop
  | .ok _, fs => fs = []
  | .error e, fs => ∃ d rest, fs = (d, e) :: rest

variable {links : Links}

/-! ## Outcomes and faults -/

theorem reports_map {α β : Type} {x : Except Error α} {fs : List (Nat × Error)} (f : α → β)
    (h : Reports x fs) : Reports (x.map f) fs := by
  cases x <;> exact h

mutual
/-- Compiling a body stops at its first failed check, and succeeds when none fails. -/
theorem compileNode_reports : ∀ {maxDepth : Option Nat} {collection : String}
    {link : Option Link} {depth : Nat} (c : ConcreteBody),
    Reports (compileNode links maxDepth collection link depth c)
      (faults links maxDepth collection depth c)
  | maxDepth, collection, link, depth, ⟨selector, options, relations⟩ => by
    cases maxDepth with
    | none =>
      simp only [compileNode, faults]
      exact reports_map _ (compileChildren_reports relations)
    | some max =>
      simp only [compileNode, faults]
      split
      · exact ⟨depth, [], rfl⟩
      · exact reports_map _ (compileChildren_reports relations)

theorem compileChildren_reports : ∀ {maxDepth : Option Nat} {collection : String} {depth : Nat}
    (rs : List (String × ConcreteBody)),
    Reports (compileChildren links maxDepth collection depth rs)
      (relationFaults links maxDepth collection depth rs)
  | _, _, _, [] => rfl
  | maxDepth, collection, depth, (relation, b) :: rest => by
    simp only [compileChildren, relationFaults]
    cases hl : links.get? collection relation with
    | none => exact ⟨depth, _, rfl⟩
    | some l =>
      simp only
      -- the relation's body is compiled first; its failure comes before the other relations'
      have hchild := @compileNode_reports maxDepth l.collection (some l) (depth + 1) b
      cases hb : compileNode links maxDepth l.collection (some l) (depth + 1) b with
      | error e =>
        rw [hb] at hchild
        obtain ⟨d, fs, hfs⟩ := hchild
        rw [hfs]
        exact ⟨d, fs ++ _, rfl⟩
      | ok child =>
        rw [hb] at hchild
        simp only [Reports] at hchild
        rw [hchild, List.nil_append]
        exact reports_map _ (compileChildren_reports rest)
end

/-! ## No fault, exactly when registered and within the bound -/

/-- A body fits under `depth` when its deepest node stays within the bound. -/
theorem add_relationsDepth_le_iff {rs : List (String × ConcreteBody)} {d m : Nat} :
    d + relationsDepth rs ≤ m ↔ d ≤ m ∧ ∀ r ∈ rs, d + (r.2.depth + 1) ≤ m := by
  induction rs with
  | nil => simp [relationsDepth]
  | cons r rest ih =>
    obtain ⟨name, b⟩ := r
    simp only [relationsDepth, List.mem_cons, forall_eq_or_imp]
    have hmax : d + max (b.depth + 1) (relationsDepth rest) ≤ m ↔
        d + (b.depth + 1) ≤ m ∧ d + relationsDepth rest ≤ m := by
      omega
    rw [hmax, ih]
    constructor
    · rintro ⟨hb, hd, hrest⟩
      exact ⟨hd, hb, hrest⟩
    · rintro ⟨hd, hb, hrest⟩
      exact ⟨hb, hd, hrest⟩

mutual
theorem faults_eq_nil_iff : ∀ {maxDepth : Option Nat} {collection : String} {depth : Nat}
    (c : ConcreteBody),
    faults links maxDepth collection depth c = [] ↔
      c.Registered links collection ∧ ∀ max, maxDepth = some max → depth + c.depth ≤ max
  | maxDepth, collection, depth, ⟨selector, options, relations⟩ => by
    have hrel := @relationFaults_eq_nil_iff maxDepth collection depth relations
    simp only [Registered, ConcreteBody.depth, add_relationsDepth_le_iff]
    cases maxDepth with
    | none => simpa [faults] using hrel
    | some max =>
      simp only [faults]
      by_cases hdeep : max < depth
      · simp only [hdeep, if_true, reduceCtorEq, false_iff, not_and, Option.some.injEq,
          forall_eq']
        omega
      · simp only [hdeep, if_false, hrel, Option.some.injEq, forall_eq']
        constructor
        · rintro ⟨hreg, hfit⟩
          exact ⟨hreg, by omega, hfit⟩
        · rintro ⟨hreg, -, hfit⟩
          exact ⟨hreg, hfit⟩

theorem relationFaults_eq_nil_iff : ∀ {maxDepth : Option Nat} {collection : String}
    {depth : Nat} (rs : List (String × ConcreteBody)),
    relationFaults links maxDepth collection depth rs = [] ↔
      relationsRegistered links collection rs ∧
        ∀ max, maxDepth = some max → ∀ r ∈ rs, depth + (r.2.depth + 1) ≤ max
  | _, _, _, [] => by simp [relationFaults, relationsRegistered]
  | maxDepth, collection, depth, (relation, b) :: rest => by
    simp only [relationFaults, relationsRegistered, List.append_eq_nil_iff,
      relationFaults_eq_nil_iff rest, List.mem_cons, forall_eq_or_imp]
    cases hl : links.get? collection relation with
    | none => simp
    | some l =>
      simp only [faults_eq_nil_iff b, Option.some.injEq, exists_eq_left']
      -- the relation's own depth condition, one level down, is the body's at `depth + 1`
      have hshift : ∀ max, depth + 1 + b.depth ≤ max ↔ depth + (b.depth + 1) ≤ max := by
        intro max
        omega
      simp only [hshift]
      constructor
      · rintro ⟨⟨hreg, hfit⟩, hrest, hfits⟩
        exact ⟨⟨hreg, hrest⟩, fun max hmax => ⟨hfit max hmax, hfits max hmax⟩⟩
      · rintro ⟨⟨hreg, hrest⟩, hfit⟩
        exact ⟨⟨hreg, fun max hmax => (hfit max hmax).1⟩, hrest, fun max hmax => (hfit max hmax).2⟩
end

mutual
/-- A node deeper than the bound is met one level below it: the walk enters a node only from a
parent within the bound. -/
theorem depth_of_mem_faults : ∀ {maxDepth : Option Nat} {collection : String} {depth : Nat}
    (c : ConcreteBody) {d bound : Nat}, (∀ m, maxDepth = some m → depth ≤ m + 1) →
    (d, Error.depthExceeded bound) ∈ faults links maxDepth collection depth c →
      maxDepth = some bound ∧ d = bound + 1
  | maxDepth, collection, depth, ⟨selector, options, relations⟩, d, bound, hdepth, hmem => by
    cases maxDepth with
    | none =>
      simp only [faults] at hmem
      exact relationFaults_depth relations (fun m hm => by cases hm) hmem
    | some m =>
      simp only [faults] at hmem
      split at hmem
      · -- the node itself is too deep, and its parent was not
        simp only [List.mem_singleton, Prod.mk.injEq, Error.depthExceeded.injEq] at hmem
        obtain ⟨rfl, rfl⟩ := hmem
        have hparent := hdepth bound rfl
        exact ⟨rfl, by omega⟩
      · rename_i hfit
        exact relationFaults_depth relations (fun m' hm' => by cases hm'; omega) hmem

theorem relationFaults_depth : ∀ {maxDepth : Option Nat} {collection : String} {depth : Nat}
    (rs : List (String × ConcreteBody)) {d bound : Nat}, (∀ m, maxDepth = some m → depth ≤ m) →
    (d, Error.depthExceeded bound) ∈ relationFaults links maxDepth collection depth rs →
      maxDepth = some bound ∧ d = bound + 1
  | _, _, _, [], _, _, _, hmem => by simp [relationFaults] at hmem
  | maxDepth, collection, depth, (relation, b) :: rest, d, bound, hdepth, hmem => by
    simp only [relationFaults, List.mem_append] at hmem
    rcases hmem with hmem | hmem
    · cases hl : links.get? collection relation with
      | none => simp [hl] at hmem
      | some l =>
        simp only [hl] at hmem
        exact depth_of_mem_faults b (fun m hm => by have := hdepth m hm; omega) hmem
    · exact relationFaults_depth rest hdepth hmem
end

/-! ## The compiled tree -/

mutual
/-- A compiled node is the compiled form of its body. -/
theorem compileNode_mirrors : ∀ {maxDepth : Option Nat} {collection : String} {link : Option Link} {depth : Nat}
    {c : ConcreteBody} {n : GraphNode},
    compileNode links maxDepth collection link depth c = .ok n → c.Mirrors links collection link n
  | _, collection, link, depth, ⟨selector, options, relations⟩, n, h => by
    obtain ⟨children, hchildren, rfl⟩ := compileNode_ok h
    exact ⟨rfl, rfl, rfl, rfl, compileChildren_mirrors hchildren⟩

theorem compileChildren_mirrors : ∀ {maxDepth : Option Nat} {collection : String} {depth : Nat}
    {rs : List (String × ConcreteBody)} {cs : List (String × GraphNode)},
    compileChildren links maxDepth collection depth rs = .ok cs → relationsMirror links collection rs cs
  | _, _, _, [], cs, h => by
    simp only [compileChildren, Except.ok.injEq] at h
    subst h
    trivial
  | _, collection, depth, (relation, b) :: rest, cs, h => by
    simp only [compileChildren] at h
    split at h
    · cases h
    · rename_i l hl
      split at h
      · cases h
      · rename_i child hchild
        obtain ⟨tail, htail, rfl⟩ := Except.map_eq_ok.mp h
        exact ⟨rfl, ⟨l, hl, compileNode_mirrors hchild⟩, compileChildren_mirrors htail⟩
end

mutual
/-- A compiled node has one node per body and the body's depth. -/
theorem Mirrors.nodeCount_depth : ∀ {collection : String} {link : Option Link}
    {c : ConcreteBody} {n : GraphNode}, c.Mirrors links collection link n →
      n.nodeCount = c.nodeCount ∧ n.depth = c.depth
  | collection, link, ⟨selector, options, relations⟩, ⟨_, _, _, _, children⟩, h => by
    obtain ⟨-, -, -, -, hrel⟩ := h
    obtain ⟨hcount, hdepth⟩ := relationsMirror.nodeCount_depth hrel
    exact ⟨by simp [GraphNode.nodeCount, nodeCount, hcount],
      by simp [GraphNode.depth, ConcreteBody.depth, hdepth]⟩

theorem relationsMirror.nodeCount_depth : ∀ {collection : String}
    {rs : List (String × ConcreteBody)} {cs : List (String × GraphNode)},
    relationsMirror links collection rs cs →
      GraphNode.childrenNodeCount cs = relationsNodeCount rs ∧
        GraphNode.childrenDepth cs = relationsDepth rs
  | _, [], [], _ => ⟨rfl, rfl⟩
  | collection, (relation, b) :: rest, (name, n) :: ns, h => by
    obtain ⟨-, ⟨l, -, hb⟩, hrest⟩ := h
    obtain ⟨hcount, hdepth⟩ := Mirrors.nodeCount_depth hb
    obtain ⟨hcounts, hdepths⟩ := relationsMirror.nodeCount_depth hrest
    exact ⟨by simp [GraphNode.childrenNodeCount, relationsNodeCount, hcount, hcounts],
      by simp [GraphNode.childrenDepth, relationsDepth, hdepth, hdepths]⟩
  | _, [], _ :: _, h => h.elim
  | _, _ :: _, [], h => h.elim
end

/-! ## Compiling a body -/

/-- Compiling succeeds exactly when the body is registered and within the depth bound, and then
mirrors the body; a failure is the first fault of the depth-first walk, and a node too deep is
met one level below the bound. -/
theorem compile_ok_iff_registered (c : ConcreteBody) (collection : String) (links : Links)
    (config : Config) :
    ((∃ n, c.compile collection links config = .ok n) ↔
      c.Registered links collection ∧ ∀ m, config.maxDepth = some m → c.depth ≤ m) ∧
    (∀ n, c.compile collection links config = .ok n →
      c.Mirrors links collection none n ∧ n.nodeCount = c.nodeCount ∧ n.depth = c.depth) ∧
    (∀ e, c.compile collection links config = .error e ↔
      ∃ d, (c.faults links config.maxDepth collection 0).head? = some (d, e)) ∧
    (∀ d m, (d, Error.depthExceeded m) ∈ c.faults links config.maxDepth collection 0 →
      config.maxDepth = some m ∧ d = m + 1) := by
  have hreports := @compileNode_reports links config.maxDepth collection none 0 c
  have hnil := @faults_eq_nil_iff links config.maxDepth collection 0 c
  simp only [Nat.zero_add] at hnil
  refine ⟨?_, fun n h => ?_, fun e => ?_, fun d m hmem => depth_of_mem_faults c (by simp) hmem⟩
  · -- success is the absence of faults
    rw [← hnil]
    unfold compile
    cases hc : compileNode links config.maxDepth collection none 0 c with
    | ok n =>
      rw [hc] at hreports
      exact ⟨fun _ => hreports, fun _ => ⟨n, rfl⟩⟩
    | error e =>
      rw [hc] at hreports
      obtain ⟨d, rest, hfs⟩ := hreports
      simp [hfs]
  · have hmirrors := compileNode_mirrors h
    exact ⟨hmirrors, hmirrors.nodeCount_depth⟩
  · -- a failure is the first fault
    unfold compile
    cases hc : compileNode links config.maxDepth collection none 0 c with
    | ok n =>
      rw [hc] at hreports
      simp only [Reports] at hreports
      simp [hreports]
    | error e' =>
      rw [hc] at hreports
      obtain ⟨d, rest, hfs⟩ := hreports
      simp [hfs]

end ConcreteBody

end DocQuery
