import Mathlib
import DocQuery.Proofs.ReadPlan

/-!
# Reading counts

A limit or a skip is read from a JSON value: `null` leaves it unset, a nonnegative integer is
itself, a nonnegative float without a fraction is the integer it denotes, cut to the largest
64-bit count, and anything else is an error naming the option (`Json.toCount_eq_ok_iff`).
Resolving reads every limit and skip of the tree this way (`QueryBody.resolve_reads_counts`).
-/

namespace DocQuery

namespace Binary64

/-- The rational number a binary64 value denotes: its signed units over the units in one. -/
def toRat (x : Binary64) : ℚ := (x.toUnits : ℚ) / (unitsPerOne : ℚ)

theorem unitsPerOne_pos : 0 < unitsPerOne := by
  unfold unitsPerOne
  rw [Nat.pow_eq]
  positivity

theorem toRat_eq_natCast_iff (x : Binary64) (k : Nat) :
    x.toRat = k ↔ x.toUnits = k * unitsPerOne := by
  have hP : (unitsPerOne : ℚ) ≠ 0 := by exact_mod_cast unitsPerOne_pos.ne'
  rw [toRat, div_eq_iff hP]
  generalize unitsPerOne = P at *
  exact_mod_cast Iff.rfl

theorem cmp_zero_ne_lt_iff (x : Binary64) : (x.cmp zero != .lt) = true ↔ 0 ≤ x.toUnits := by
  rw [cmp, show zero.toUnits = 0 from rfl, bne_iff_ne, ne_eq, compare_lt_iff_lt, not_lt]

/-- A quotient of at least one unit never rounds to zero. -/
theorem roundUnits_pos {num den : Nat} (h : 0 < num / den) : 0 < roundUnits num den := by
  unfold roundUnits
  dsimp only
  split
  · exact Nat.lt_of_lt_of_le h (div_le_nearestEven num den)
  · rename_i hbig
    -- Past 53 bits the step `2^shift` is at most the whole part, so the quotient by the step
    -- is still at least one.
    have hprecision : precision = 53 := rfl
    have hlog : precision ≤ Nat.log2 (num / den) :=
      (Nat.le_log2 (by omega)).mpr (by simpa [Nat.pow_eq] using hbig)
    have hstep : 2 ^ (Nat.log2 (num / den) + 1 - precision) ≤ num / den :=
      le_trans (Nat.pow_le_pow_right (by norm_num) (by omega)) (Nat.log2_self_le (by omega))
    have hq : 0 < num / (den * 2 ^ (Nat.log2 (num / den) + 1 - precision)) := by
      rw [← Nat.div_div_eq_div_mul]
      exact Nat.div_pos hstep (by positivity)
    simp only [Nat.pow_eq]
    exact Nat.mul_pos (Nat.lt_of_lt_of_le hq (div_le_nearestEven _ _)) (by positivity)

/-- A negative integer stays negative when rounded to binary64. -/
theorem ofInt_toUnits_neg {n : Int} (h : n < 0) : (ofInt n).toUnits < 0 := by
  have hunits : 0 < roundUnits (n.natAbs * unitsPerOne) 1 := by
    apply roundUnits_pos
    rw [Nat.div_one]
    exact Nat.mul_pos (Int.natAbs_pos.mpr (by omega)) unitsPerOne_pos
  simp only [ofInt, toUnits, decide_eq_true h, if_true]
  omega

/-- A negative value denotes a natural number only when it is a zero, and the number is `0`. -/
theorem neg_toUnits_eq_mul {units k : Nat} (h : (⟨true, units⟩ : Binary64).toUnits = k * unitsPerOne) :
    units = 0 ∧ k = 0 := by
  have hP := unitsPerOne_pos
  simp only [toUnits, if_true] at h
  generalize unitsPerOne = P at *
  -- `-units` is at most zero and `k * P` at least zero, so both are zero.
  have hkP : (0 : Int) ≤ k * P := by positivity
  have hzero : (k : Int) * P = 0 := by omega
  refine ⟨by omega, ?_⟩
  rcases Int.mul_eq_zero.mp hzero with hk | hk <;> omega

/-- The sign and integral tests of a count hold exactly of the values that denote a natural
number: in units, a whole multiple of one. -/
theorem isCount_iff (x : Binary64) :
    (x.cmp zero != .lt && x.isIntegral) = true ↔ ∃ k : Nat, x.toUnits = k * unitsPerOne := by
  rw [Bool.and_eq_true, cmp_zero_ne_lt_iff]
  obtain ⟨neg, units⟩ := x
  simp only [isIntegral, beq_iff_eq]
  cases neg with
  | false =>
    simp only [toUnits, Bool.false_eq_true, if_false, Nat.cast_nonneg, true_and]
    constructor
    · intro hmod
      refine ⟨units / unitsPerOne, ?_⟩
      rw [← Nat.cast_mul, Nat.div_mul_cancel (Nat.dvd_of_mod_eq_zero hmod)]
    · rintro ⟨k, hk⟩
      have hu : units = k * unitsPerOne := by exact_mod_cast hk
      simp [hu]
  | true =>
    -- A negative zero is the only negative value that passes.
    constructor
    · rintro ⟨hsign, -⟩
      simp only [toUnits, if_true] at hsign
      exact ⟨0, by simp only [toUnits, if_true, Nat.cast_zero, zero_mul]; omega⟩
    · rintro ⟨k, hk⟩
      obtain ⟨rfl, -⟩ := neg_toUnits_eq_mul hk
      exact ⟨by simp [toUnits], Nat.zero_mod _⟩

/-- The saturating conversion of a value that denotes `k` gives `k`, or the largest 64-bit count
when `k` is larger. -/
theorem toCountSat_of_toUnits {x : Binary64} {k : Nat} (h : x.toUnits = k * unitsPerOne) :
    x.toCountSat = min k Number.maxWord := by
  obtain ⟨neg, units⟩ := x
  cases neg with
  | false =>
    simp only [toUnits, Bool.false_eq_true, if_false] at h
    have hu : units = k * unitsPerOne := by exact_mod_cast h
    simp only [toCountSat, Bool.false_eq_true, if_false, hu, Nat.mul_div_cancel _ unitsPerOne_pos]
    rfl
  | true =>
    obtain ⟨-, rfl⟩ := neg_toUnits_eq_mul h
    simp [toCountSat]

end Binary64

namespace Json

/-- What a count option reads from a value: `null` leaves it unset; a number held as an integer
reads as itself when it is not negative; a float that denotes a natural number `k` reads as `k`,
or as the largest 64-bit count when `k` is larger. No other value is a count. -/
inductive CountReading : Json → Option Nat → Prop
  | null : CountReading .null none
  | word {n : Int} (h : 0 ≤ n) : CountReading (.num (.int n)) (some n.toNat)
  | float {x : Binary64} {k : Nat} (h : x.toRat = k) :
      CountReading (.num (.float x)) (some (min k Number.maxWord))

/-- A value reads as one count at most. -/
theorem CountReading.unique {v : Json} {r r' : Option Nat} (h : v.CountReading r)
    (h' : v.CountReading r') : r = r' := by
  cases h with
  | null => cases h'; rfl
  | word _ => cases h'; rfl
  | @float x k hk =>
    cases h' with
    | @float _ k' hk' =>
      have hkk : k = k' := by exact_mod_cast hk.symm.trans hk'
      rw [hkk]

/-- The error of a value that is no count. -/
def countError (option : String) (v : Json) : Error :=
  .invalidOption option ("expected a non-negative integer, got " ++ v.compact)

/-- Reading a count gives a count exactly as `CountReading` says, and fails otherwise with the
error naming the option. -/
theorem toCount_eq (option : String) (v : Json) :
    (∃ r, toCount option v = .ok r ∧ v.CountReading r) ∨
      (toCount option v = .error (countError option v) ∧ ∀ r, ¬ v.CountReading r) := by
  match v with
  | .null => exact .inl ⟨none, rfl, .null⟩
  | .num (.int n) =>
    by_cases hn : 0 ≤ n
    · exact .inl ⟨some n.toNat, by simp [toCount, Number.toWord?, hn], .word hn⟩
    · -- A negative integer is no word, and rounds to a negative float.
      have hneg := Binary64.ofInt_toUnits_neg (Int.lt_of_not_ge hn)
      have hfail : (Binary64.cmp (Number.int n).toBinary64 Binary64.zero != .lt) = false := by
        rw [Bool.eq_false_iff, ne_eq, Binary64.cmp_zero_ne_lt_iff, not_le]
        exact hneg
      refine .inr ⟨?_, fun r hr => ?_⟩
      · simp [toCount, Number.toWord?, hn, hfail, countError]
      · cases hr
        omega
  | .num (.float x) =>
    by_cases hx : (x.cmp Binary64.zero != .lt && x.isIntegral) = true
    · obtain ⟨k, hk⟩ := (Binary64.isCount_iff x).mp hx
      refine .inl ⟨some (min k Number.maxWord), ?_, .float ((Binary64.toRat_eq_natCast_iff x k).mpr hk)⟩
      rw [← Binary64.toCountSat_of_toUnits hk]
      simp only [Bool.and_eq_true] at hx
      simp [toCount, Number.toWord?, Number.toBinary64, hx]
    · refine .inr ⟨?_, fun r hr => ?_⟩
      · rw [Bool.and_eq_true, not_and] at hx
        by_cases hsign : (x.cmp Binary64.zero != .lt) = true
        · simp [toCount, Number.toWord?, Number.toBinary64, hsign, hx hsign, countError]
        · simp [toCount, Number.toWord?, Number.toBinary64, hsign, countError]
      · cases hr with
        | float hk =>
          exact hx ((Binary64.isCount_iff x).mpr ⟨_, (Binary64.toRat_eq_natCast_iff x _).mp hk⟩)
  | .bool _ | .str _ | .arr _ | .obj _ => exact .inr ⟨rfl, fun r hr => nomatch hr⟩

theorem toCount_eq_ok_iff (option : String) (v : Json) (r : Option Nat) :
    toCount option v = .ok r ↔ v.CountReading r := by
  rcases toCount_eq option v with ⟨r', hok, hr'⟩ | ⟨herr, hno⟩
  · rw [hok, Except.ok.injEq]
    constructor
    · rintro rfl
      exact hr'
    · exact hr'.unique
  · rw [herr]
    exact ⟨(fun h => by cases h), fun hr => absurd hr (hno r)⟩

theorem toCount_eq_error_iff (option : String) (v : Json) (e : Error) :
    toCount option v = .error e ↔ (∀ r, ¬ v.CountReading r) ∧ e = countError option v := by
  rcases toCount_eq option v with ⟨r', hok, hr'⟩ | ⟨herr, hno⟩
  · rw [hok]
    exact ⟨(fun h => by cases h), fun ⟨hno, _⟩ => absurd hr' (hno r')⟩
  · rw [herr, Except.error.injEq]
    exact ⟨fun h => ⟨hno, h.symm⟩, fun ⟨_, h⟩ => h.symm⟩

end Json

namespace QueryBody

variable {params : Params}

/-- A count option read from an optional template under parameters: unset without a template,
and with one what the count reads from the template's value. -/
def CountFrom (params : Params) : Option Template → Option Nat → Prop
  | none, r => r = none
  | some t, r => ∃ v, t.substitute params = .ok v ∧ v.CountReading r

mutual
/-- Every limit and skip of a concrete body, at every depth, is read from its body's own. -/
def CountsRead (params : Params) : QueryBody → ConcreteBody → Prop
  | ⟨_, _, limit, skip, _, _, relations⟩, c =>
    CountFrom params limit c.options.limit ∧ CountFrom params skip c.options.skip ∧
      relationsCountsRead params relations c.relations

/-- Relations pair off, each concrete body with its counts read from its body's. -/
def relationsCountsRead (params : Params) :
    List (String × QueryBody) → List (String × ConcreteBody) → Prop
  | [], [] => True
  | (_, b) :: rest, (_, c) :: cs => CountsRead params b c ∧ relationsCountsRead params rest cs
  | _, _ => False
end

/-- The count a resolution gives a root option: with pagination on and the parameter named after
the option given, what the count reads from the parameter; otherwise the body's own. -/
def RootCount (params : Params) (paginate : Bool) (option : String) (t : Option Template)
    (r : Option Nat) : Prop :=
  match paginate, params.get? option with
  | true, some v => v.CountReading r
  | _, _ => CountFrom params t r

theorem countsRead_iff (b : QueryBody) (c : ConcreteBody) :
    CountsRead params b c ↔ CountFrom params b.limit c.options.limit ∧
      CountFrom params b.skip c.options.skip ∧ relationsCountsRead params b.relations c.relations := by
  obtain ⟨_, _, _, _, _, _, _⟩ := b
  rfl

theorem resolveCount_countFrom {option : String} {t : Option Template} {r : Option Nat}
    (h : resolveCount params option t = .ok r) : CountFrom params t r := by
  cases t with
  | none =>
    simp only [resolveCount, Except.ok.injEq] at h
    exact h.symm
  | some t =>
    obtain ⟨v, hv, hr⟩ := Except.bind_eq_ok.mp h
    exact ⟨v, hv, (Json.toCount_eq_ok_iff option v r).mp hr⟩

theorem resolveOptions_counts {b : QueryBody} {o : FindOptions}
    (h : resolveOptions params b = .ok o) :
    CountFrom params b.limit o.limit ∧ CountFrom params b.skip o.skip := by
  rw [resolveOptions] at h
  -- whichever the sort, the limit and the skip are read as counts
  split at h
  all_goals
    obtain ⟨sort, -, h⟩ := Except.bind_eq_ok.mp h
    obtain ⟨limit, hlimit, h⟩ := Except.bind_eq_ok.mp h
    obtain ⟨skip, hskip, h⟩ := Except.bind_eq_ok.mp h
    simp only [pure, Except.pure, Except.ok.injEq] at h
    rw [← h]
    exact ⟨resolveCount_countFrom hlimit, resolveCount_countFrom hskip⟩

mutual
theorem resolveLevel_countsRead : ∀ {b : QueryBody} {c : ConcreteBody},
    resolveLevel params b = .ok c → CountsRead params b c
  | ⟨selector, sort, limit, skip, fields, paginate, relations⟩, c, h => by
    obtain ⟨sel, options, rels, -, hoptions, hrels, rfl⟩ := resolveLevel_eq_ok.mp h
    exact ⟨(resolveOptions_counts hoptions).1, (resolveOptions_counts hoptions).2,
      resolveRelations_countsRead hrels⟩

theorem resolveRelations_countsRead : ∀ {rs : List (String × QueryBody)}
    {cs : List (String × ConcreteBody)}, resolveRelations params rs = .ok cs →
      relationsCountsRead params rs cs
  | [], cs, h => by
    cases h
    trivial
  | (name, b) :: rest, cs, h => by
    obtain ⟨c, tail, hc, htail, rfl⟩ := resolveRelations_cons_eq_ok.mp h
    exact ⟨resolveLevel_countsRead hc, resolveRelations_countsRead htail⟩
end

/-- What an override sets its count to: the parameter's reading when the parameter is given,
the count as it was otherwise. -/
theorem overrideCount_reads {option : String} {set : ConcreteBody → Option Nat → ConcreteBody}
    {c c' : ConcreteBody} (h : overrideCount params option set c = .ok c')
    (get : ConcreteBody → Option Nat) (hget : ∀ c n, get (set c n) = n) :
    (∃ v, params.get? option = some v ∧ v.CountReading (get c')) ∨
      (params.get? option = none ∧ get c' = get c) := by
  rcases overrideCount_eq_ok.mp h with ⟨hnone, rfl⟩ | ⟨v, n, hv, hn, rfl⟩
  · exact .inr ⟨hnone, rfl⟩
  · rw [hget]
    exact .inl ⟨v, hv, (Json.toCount_eq_ok_iff option v n).mp hn⟩

/-- A resolution reads its root counts from the pagination parameters when pagination is on
and they are given, and from the body's own otherwise. -/
theorem resolve_rootCounts {b : QueryBody} {c : ConcreteBody} (h : b.resolve params = .ok c) :
    RootCount params b.paginate "limit" b.limit c.options.limit ∧
      RootCount params b.paginate "skip" b.skip c.options.skip := by
  rw [resolve_eq_overrideCount] at h
  obtain ⟨c₀, hc₀, h⟩ := Except.bind_eq_ok.mp h
  have hown := (countsRead_iff b c₀).mp (resolveLevel_countsRead hc₀)
  unfold RootCount
  split at h
  · rename_i hpag
    rw [hpag]
    -- the limit override first, then the skip override, which keeps the limit
    obtain ⟨c₁, hc₁, h⟩ := Except.bind_eq_ok.mp h
    have hlimit : c.options.limit = c₁.options.limit :=
      overrideCount_keeps h (·.options.limit) fun _ _ => rfl
    have hskip : c₁.options.skip = c₀.options.skip :=
      overrideCount_keeps hc₁ (·.options.skip) fun _ _ => rfl
    constructor
    · rw [hlimit]
      rcases overrideCount_reads hc₁ (·.options.limit) (fun _ _ => rfl) with
        ⟨v, hv, hr⟩ | ⟨hnone, heq⟩
      · rw [hv]
        exact hr
      · rw [hnone, heq]
        exact hown.1
    · rcases overrideCount_reads h (·.options.skip) (fun _ _ => rfl) with
        ⟨w, hw, hr⟩ | ⟨hnone, heq⟩
      · rw [hw]
        exact hr
      · rw [hnone, heq, hskip]
        exact hown.2.1
  · rename_i hpag
    rw [Bool.not_eq_true] at hpag
    rw [hpag]
    obtain rfl := Except.ok.inj h
    exact ⟨hown.1, hown.2.1⟩

/-- Every limit and skip a resolution produces is read as a count, below the root from the
body's own templates at every depth, and at the root, with pagination on, from the `limit` and
`skip` parameters when given. -/
theorem resolve_reads_counts (b : QueryBody) (params : Params) :
    (∀ option v r, Json.toCount option v = .ok r ↔ v.CountReading r) ∧
    (∀ option v e, Json.toCount option v = .error e ↔
      (∀ r, ¬ v.CountReading r) ∧
        e = .invalidOption option ("expected a non-negative integer, got " ++ v.compact)) ∧
    ∀ c, b.resolve params = .ok c →
      RootCount params b.paginate "limit" b.limit c.options.limit ∧
      RootCount params b.paginate "skip" b.skip c.options.skip ∧
      relationsCountsRead params b.relations c.relations := by
  refine ⟨Json.toCount_eq_ok_iff, Json.toCount_eq_error_iff, fun c h => ?_⟩
  obtain ⟨c₀, hc₀, hrel⟩ := resolve_relations h
  rw [hrel]
  exact ⟨(resolve_rootCounts h).1, (resolve_rootCounts h).2,
    ((countsRead_iff b c₀).mp (resolveLevel_countsRead hc₀)).2.2⟩

end QueryBody

end DocQuery
