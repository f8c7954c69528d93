import Mathlib

/-!
# Traversals that may fail

Reads, checks and resolutions of rows are traversals of lists in `Except`. This file collects
what the proofs need of them: a traversal succeeds exactly when every element does, with results
related element by element (`mapM_eq_ok_iff`); one that fails, fails at an element before which
every element succeeds (`mapM_eq_error`). Two computations that may fail agree
(`Except.Agree`) when both fail or both succeed with related results; agreement passes through
binds, maps and traversals.
-/

namespace DocQuery

namespace Except

variable {ε α β : Type}

theorem bind_eq_ok {x : Except ε α} {f : α → Except ε β} {b : β} :
    (x >>= f) = .ok b ↔ ∃ a, x = .ok a ∧ f a = .ok b := by
  cases x <;> simp [bind, Except.bind]

theorem map_eq_ok {x : Except ε α} {f : α → β} {b : β} :
    x.map f = .ok b ↔ ∃ a, x = .ok a ∧ f a = b := by
  cases x <;> simp [Except.map]

theorem bind_eq_error {x : Except ε α} {f : α → Except ε β} {e : ε} :
    (x >>= f) = .error e ↔ x = .error e ∨ ∃ a, x = .ok a ∧ f a = .error e := by
  cases x <;> simp [bind, Except.bind]

theorem map_eq_error {x : Except ε α} {f : α → β} {e : ε} :
    x.map f = .error e ↔ x = .error e := by
  cases x <;> simp [Except.map]

end Except

/-- What a relation between two lists says of each member of the second. -/
theorem forall₂_exists_of_mem_right {α β : Type} {R : α → β → Prop} {l₁ : List α}
    {l₂ : List β} (h : List.Forall₂ R l₁ l₂) {b : β} (hb : b ∈ l₂) : ∃ a ∈ l₁, R a b := by
  induction h with
  | nil => cases hb
  | cons hab _ ih =>
    rcases List.mem_cons.mp hb with rfl | hb
    · exact ⟨_, List.mem_cons_self, hab⟩
    · obtain ⟨a, ha, hr⟩ := ih hb
      exact ⟨a, List.mem_cons_of_mem _ ha, hr⟩

theorem forall₂_map_eq {α β γ : Type} {R : α → β → Prop} {l₁ : List α} {l₂ : List β}
    {f : α → γ} {g : β → γ} (h : List.Forall₂ R l₁ l₂) (hfg : ∀ a b, R a b → f a = g b) :
    l₁.map f = l₂.map g := by
  induction h with
  | nil => rfl
  | cons hab _ ih => simp [hfg _ _ hab, ih]

theorem mapM_eq_ok_iff {α β ε : Type} {f : α → Except ε β} {l : List α} {vs : List β} :
    l.mapM f = .ok vs ↔ List.Forall₂ (fun a v => f a = .ok v) l vs := by
  induction l generalizing vs with
  | nil => cases vs <;> simp [List.mapM_nil, pure, Except.pure]
  | cons x xs ih =>
    simp only [List.mapM_cons, Except.bind_eq_ok, ih, List.forall₂_cons_left_iff]
    constructor
    · rintro ⟨b, hb, bs, hbs, h⟩
      exact ⟨b, bs, hb, hbs, by simpa [pure, Except.pure] using h.symm⟩
    · rintro ⟨b, bs, hb, hbs, rfl⟩
      exact ⟨b, hb, bs, hbs, rfl⟩

theorem forall₂_zipWith {α β γ δ : Type} {R : α → β → Prop} {S : β → γ → Prop}
    {T : α → δ → Prop} {g : β → γ → δ} {as : List α} {bs : List β} {cs : List γ}
    (h₁ : List.Forall₂ R as bs) (h₂ : List.Forall₂ S bs cs)
    (h : ∀ a b c, R a b → S b c → T a (g b c)) : List.Forall₂ T as (List.zipWith g bs cs) := by
  induction h₁ generalizing cs with
  | nil => cases h₂; exact .nil
  | cons hab _ ih =>
    cases h₂ with
    | cons hbc hrest => exact .cons (h _ _ _ hab hbc) (ih hrest)

theorem forall₂_exists_of_mem_left {α β : Type} {R : α → β → Prop} {l₁ : List α}
    {l₂ : List β} (h : List.Forall₂ R l₁ l₂) {a : α} (ha : a ∈ l₁) : ∃ b ∈ l₂, R a b := by
  induction h with
  | nil => cases ha
  | cons hab _ ih =>
    rcases List.mem_cons.mp ha with rfl | ha
    · exact ⟨_, List.mem_cons_self, hab⟩
    · obtain ⟨b, hb, hr⟩ := ih ha
      exact ⟨b, List.mem_cons_of_mem _ hb, hr⟩

theorem mapM_ok_of_forall {α β ε : Type} {f : α → Except ε β} {l : List α}
    (h : ∀ x ∈ l, ∃ v, f x = .ok v) : ∃ vs, l.mapM f = .ok vs := by
  induction l with
  | nil => exact ⟨[], rfl⟩
  | cons x xs ih =>
    obtain ⟨v, hv⟩ := h x List.mem_cons_self
    obtain ⟨vs, hvs⟩ := ih fun y hy => h y (List.mem_cons_of_mem _ hy)
    exact ⟨v :: vs, by simp [List.mapM_cons, hv, hvs, bind, Except.bind, pure, Except.pure]⟩

/-- A traversal that fails fails at some element, and every element before it succeeds. -/
theorem mapM_eq_error {α β ε : Type} {f : α → Except ε β} {l : List α} {e : ε}
    (h : l.mapM f = .error e) :
    ∃ before x after, l = before ++ x :: after ∧ (∀ y ∈ before, ∃ b, f y = .ok b) ∧
      f x = .error e := by
  induction l with
  | nil => simp [List.mapM_nil, pure, Except.pure] at h
  | cons x xs ih =>
    rw [List.mapM_cons] at h
    cases hx : f x with
    | error e' =>
      simp only [hx, bind, Except.bind, Except.error.injEq] at h
      exact ⟨[], x, xs, rfl, by simp, h ▸ hx⟩
    | ok b =>
      cases hxs : xs.mapM f with
      | ok bs => simp [hx, hxs, bind, Except.bind, pure, Except.pure] at h
      | error e' =>
        simp only [hx, hxs, bind, Except.bind, Except.error.injEq] at h
        subst h
        obtain ⟨before, y, after, hsplit, hbefore, hy⟩ := ih hxs
        refine ⟨x :: before, y, after, by simp [hsplit], ?_, hy⟩
        intro z hz
        rcases List.mem_cons.mp hz with rfl | hz
        · exact ⟨b, hx⟩
        · exact hbefore z hz

theorem mapM_eq_of_forall₂ {α β γ ε : Type} {f : α → Except ε γ} {g : β → Except ε γ}
    {l₁ : List α} {l₂ : List β} (h : List.Forall₂ (fun a b => f a = g b) l₁ l₂) :
    l₁.mapM f = l₂.mapM g := by
  induction h with
  | nil => rfl
  | cons hab _ ih => rw [List.mapM_cons, List.mapM_cons, hab, ih]

theorem mapM_congr_of_mem {α β ε : Type} {f g : α → Except ε β} {l : List α}
    (h : ∀ x ∈ l, f x = g x) : l.mapM f = l.mapM g :=
  mapM_eq_of_forall₂ (List.forall₂_same.mpr h)

theorem ok_of_mapM_ok {α β ε : Type} {f : α → Except ε β} {l : List α} {vs : List β}
    (h : l.mapM f = .ok vs) {x : α} (hx : x ∈ l) : ∃ v, f x = .ok v := by
  obtain ⟨v, -, hv⟩ := forall₂_exists_of_mem_left (mapM_eq_ok_iff.mp h) hx
  exact ⟨v, hv⟩

/-- A traversal that fails at some element fails however each result is used further. -/
theorem mapM_bind_ne_ok {α β γ ε : Type} {f : α → Except ε β} {k : α → β → Except ε γ}
    {l : List α} {e : ε} (h : l.mapM f = .error e) (vs : List γ) :
    (l.mapM fun a => (f a).bind (k a)) ≠ .ok vs := by
  intro hok
  obtain ⟨before, x, after, hsplit, -, hx⟩ := mapM_eq_error h
  obtain ⟨v, hv⟩ := ok_of_mapM_ok hok (x := x) (by rw [hsplit]; simp)
  rw [hx] at hv
  cases hv

/-- Pairing the results of a traversal with a list, or reading each result back from its
element. -/
theorem zipWith_eq_map_of_forall₂ {α β γ δ ε : Type} {f : α → Except ε β} {l : List α}
    {vs : List β} (h : List.Forall₂ (fun a v => f a = .ok v) l vs) (g : β → γ → δ) (o : α → γ)
    (b : β) : List.zipWith g vs (l.map o) = l.map fun a => g ((f a).toOption.getD b) (o a) := by
  induction h with
  | nil => rfl
  | cons hav _ ih => simp [hav, Except.toOption, ih]

namespace Except

/-- Two outcomes agree: both fail, or both succeed with related values. -/
def Agree {ε α β : Type} (R : α → β → Prop) : Except ε α → Except ε β → Prop
  | .ok a, .ok b => R a b
  | .error _, .error _ => True
  | _, _ => False

section Agree

variable {ε α β γ δ : Type}

@[simp] theorem agree_ok_ok {R : α → β → Prop} {a : α} {b : β} :
    Agree (ε := ε) R (.ok a) (.ok b) ↔ R a b := Iff.rfl

theorem Agree.imp {R S : α → β → Prop} {x : Except ε α} {y : Except ε β} (h : Agree R x y)
    (hRS : ∀ a b, R a b → S a b) : Agree S x y := by
  cases x <;> cases y <;> first | exact hRS _ _ h | exact h

theorem Agree.bind {R : α → β → Prop} {S : γ → δ → Prop} {x : Except ε α} {y : Except ε β}
    {f : α → Except ε γ} {g : β → Except ε δ} (h : Agree R x y)
    (hfg : ∀ a b, R a b → Agree S (f a) (g b)) : Agree S (x.bind f) (y.bind g) := by
  cases x <;> cases y
  · exact trivial
  · exact h.elim
  · exact h.elim
  · exact hfg _ _ h

theorem Agree.trans {R : α → β → Prop} {S : β → γ → Prop} {x : Except ε α} {y : Except ε β}
    {z : Except ε γ} (h₁ : Agree R x y) (h₂ : Agree S y z) :
    Agree (fun a c => ∃ b, R a b ∧ S b c) x z := by
  cases x <;> cases y <;> cases z
  all_goals first | exact trivial | exact h₁.elim | exact h₂.elim | exact ⟨_, h₁, h₂⟩

theorem Agree.symm {R : α → β → Prop} {x : Except ε α} {y : Except ε β} (h : Agree R x y) :
    Agree (fun b a => R a b) y x := by
  cases x <;> cases y <;> exact h

theorem Agree.map_left {R : α → β → Prop} {S : γ → β → Prop} {x : Except ε α} {y : Except ε β}
    {f : α → γ} (h : Agree R x y) (hf : ∀ a b, R a b → S (f a) b) : Agree S (x.map f) y := by
  cases x <;> cases y
  · exact trivial
  · exact h.elim
  · exact h.elim
  · exact hf _ _ h

theorem map_map {x : Except ε α} (f : α → β) (g : β → γ) : (x.map f).map g = x.map (g ∘ f) := by
  cases x <;> rfl

theorem map_bind {x : Except ε α} (f : α → β) (g : β → Except ε γ) :
    (x.map f).bind g = x.bind (g ∘ f) := by
  cases x <;> rfl

theorem Agree.toOption_eq {x y : Except ε α} (h : Agree (· = ·) x y) : x.toOption = y.toOption := by
  cases x <;> cases y
  · rfl
  · exact h.elim
  · exact h.elim
  · exact congrArg some h

/-- Traversals of one list agree when the two steps agree at every element. -/
theorem Agree.mapM {R : α → β → Prop} {f : γ → Except ε α} {g : γ → Except ε β} {l : List γ}
    (h : ∀ x ∈ l, Agree R (f x) (g x)) : Agree (List.Forall₂ R) (l.mapM f) (l.mapM g) := by
  induction l with
  | nil => exact .nil
  | cons x xs ih =>
    simp only [List.mapM_cons]
    refine (h x List.mem_cons_self).bind fun a b hab => ?_
    refine (ih fun y hy => h y (List.mem_cons_of_mem _ hy)).bind fun as bs habs => ?_
    exact .cons hab habs

theorem agree_eq_iff {x y : Except ε α} : Agree (· = ·) x y ↔ ∀ v, x = .ok v ↔ y = .ok v := by
  cases x with
  | error e => cases y <;> simp [Agree]
  | ok a =>
    cases y with
    | error e => simp [Agree]
    | ok b => exact ⟨fun h v => by simp [show a = b from h], fun h => (Except.ok.inj ((h a).mp rfl)).symm⟩

theorem forall₂_comp_iff {R : γ → α → Prop} {S : α → β → Prop} {l : List γ} {zs : List β} :
    List.Forall₂ (fun x z => ∃ y, R x y ∧ S y z) l zs ↔
      ∃ ys, List.Forall₂ R l ys ∧ List.Forall₂ S ys zs := by
  induction l generalizing zs with
  | nil => simp
  | cons x xs ih =>
    simp only [List.forall₂_cons_left_iff, ih]
    constructor
    · rintro ⟨z, zs', ⟨y, hxy, hyz⟩, ⟨ys, hys, hyzs⟩, rfl⟩
      exact ⟨y :: ys, ⟨y, ys, hxy, hys, rfl⟩, .cons hyz hyzs⟩
    · rintro ⟨_, ⟨y, ys, hxy, hys, rfl⟩, hS⟩
      cases hS with
      | cons hyz hyzs => exact ⟨_, _, ⟨y, hxy, hyz⟩, ⟨ys, hys, hyzs⟩, rfl⟩

/-- Running two steps element by element, or the first step on all elements before the second,
succeeds alike and gives the same results; only the failure met first may differ. -/
theorem agree_mapM_bind {f : γ → Except ε α} {g : α → Except ε β} (l : List γ) :
    Agree (· = ·) (l.mapM fun x => f x >>= g) (l.mapM f >>= fun ys => ys.mapM g) := by
  rw [agree_eq_iff]
  intro zs
  simp only [mapM_eq_ok_iff, Except.bind_eq_ok]
  exact forall₂_comp_iff

end Agree

end Except

theorem getD_of_mem_zipIdx {α : Type} {l : List α} {e : α × Nat} (he : e ∈ l.zipIdx) (d : α) :
    l.getD e.2 d = e.1 := by
  rw [List.getD_eq_getElem?_getD, List.mem_zipIdx_iff_getElem?.mp he]
  rfl

/-- Looking up the positions of the kept elements of a numbered list gives the kept elements. -/
theorem map_getD_filter_zipIdx {α : Type} (l : List α) (p : α → Bool) (d : α) :
    ((l.zipIdx.filter fun e => p e.1).map (·.2)).map (l.getD · d) = l.filter p := by
  have hget : ∀ e ∈ l.zipIdx.filter (fun e => p e.1), l.getD e.2 d = e.1 := fun e he =>
    getD_of_mem_zipIdx (List.mem_of_mem_filter he) d
  calc ((l.zipIdx.filter fun e => p e.1).map (·.2)).map (l.getD · d)
      = (l.zipIdx.filter fun e => p e.1).map (fun e => l.getD e.2 d) := by
        rw [List.map_map]
        rfl
    _ = (l.zipIdx.filter fun e => p e.1).map (·.1) := List.map_congr_left hget
    _ = l.filter p := by
        rw [show (fun e : α × Nat => p e.1) = p ∘ (·.1) from rfl, ← List.filter_map]
        simp

theorem getD_eq_of_lt {α : Type} {l : List α} {i : Nat} (h : i < l.length) (d : α) :
    l.getD i d = l.get ⟨i, h⟩ := by
  rw [List.getD_eq_getElem?_getD, List.getElem?_eq_getElem h]
  rfl

theorem filterMap_getElem?_eq_map_getD {α : Type} {l : List α} {positions : List Nat}
    (h : ∀ i ∈ positions, i < l.length) (d : α) :
    positions.filterMap (l[·]?) = positions.map (l.getD · d) := by
  induction positions with
  | nil => rfl
  | cons i rest ih =>
    have hi := h i List.mem_cons_self
    rw [List.filterMap_cons, List.getElem?_eq_getElem hi, List.map_cons,
      ih fun j hj => h j (List.mem_cons_of_mem _ hj), getD_eq_of_lt hi]
    rfl

end DocQuery
