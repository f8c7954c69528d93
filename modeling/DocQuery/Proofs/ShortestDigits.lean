import DocQuery.Proofs.RoundingInterval

/-!
# The shortest digits round back

The shortest decimal of a magnitude is found on a grid of powers of ten, the first grid with a
neighbour inside the magnitude's rounding interval giving the digits
(`Binary64.nearestOnGrid_inside`); the fallback is the exact value. So the shortest decimal
always rounds back to the magnitude (`Binary64.shortest_rounds`). A decimal is compared with a
magnitude in quarter units: `4 * 2^1074` of them make one.
-/

namespace DocQuery

namespace Decimal

def value (d : Decimal) : ℚ := d.digits * (10 : ℚ) ^ d.exponent

theorem value_trim (digits : Nat) (exponent : Int) :
    (trim digits exponent).value = digits * (10 : ℚ) ^ exponent := by
  induction digits using Nat.strong_induction_on generalizing exponent with
  | _ digits ih =>
    rw [trim]
    split
    · rename_i h
      rw [ih (digits / 10) (by omega), zpow_add_one₀ (by norm_num)]
      have hd : (digits : ℚ) = (digits / 10 : Nat) * 10 := by
        exact_mod_cast (Nat.div_mul_cancel (Nat.dvd_of_mod_eq_zero h.2)).symm
      rw [hd]
      ring
    · rfl

theorem digits_trim_ne_zero {digits : Nat} (h : digits ≠ 0) (exponent : Int) :
    (trim digits exponent).digits ≠ 0 := by
  induction digits using Nat.strong_induction_on generalizing exponent with
  | _ digits ih =>
    rw [trim]
    split
    · rename_i hd
      exact ih (digits / 10) (by omega) (by omega) _
    · exact h

end Decimal

namespace Binary64

theorem gridScale_snd_pos (k : Int) : 0 < (gridScale k).2 := by
  unfold gridScale
  split
  · exact Nat.one_pos
  · exact Nat.pow_pos (by norm_num)

theorem gridScale_fst (k : Int) :
    ((gridScale k).1 : ℚ) = 10 ^ k * (4 * unitsPerOne) * (gridScale k).2 := by
  unfold gridScale unitsPerOne
  generalize unitExp = E
  split
  · rename_i hk
    obtain ⟨n, rfl⟩ := Int.eq_ofNat_of_zero_le hk
    simp only [Nat.pow_eq, Int.toNat_natCast, Nat.cast_mul, Nat.cast_pow, Nat.cast_ofNat,
      Nat.cast_one, zpow_natCast, pow_add]
    ring
  · rename_i hk
    obtain ⟨n, hn⟩ : ∃ n : Nat, k = -n := ⟨(-k).toNat, by omega⟩
    subst hn
    simp only [Nat.pow_eq, neg_neg, Int.toNat_natCast, Nat.cast_pow, Nat.cast_ofNat, zpow_neg,
      zpow_natCast, pow_add]
    field_simp
    push_cast
    ring

/-- A candidate on the grid `10^k` lies in the rounding interval of `u`, compared exactly. -/
def OnGridInside (u : Nat) (k : Int) (j : Nat) : Prop :=
  if endsIncluded u then (roundingInterval u).1 * (gridScale k).2 ≤ j * (gridScale k).1 ∧
      j * (gridScale k).1 ≤ (roundingInterval u).2 * (gridScale k).2
  else (roundingInterval u).1 * (gridScale k).2 < j * (gridScale k).1 ∧
      j * (gridScale k).1 < (roundingInterval u).2 * (gridScale k).2

theorem nearestOnGrid_inside {tie : Tie} {u : Nat} {k : Int} {j : Nat}
    (h : nearestOnGrid tie u k = some j) : OnGridInside u k j := by
  unfold nearestOnGrid at h
  dsimp only at h
  set below := 4 * u * (gridScale k).2 / (gridScale k).1
  set above := if 4 * u * (gridScale k).2 % (gridScale k).1 = 0 then below else below + 1
  -- the check of a candidate, as the search makes it
  have hcheck : ∀ c, (if endsIncluded u = true then
      decide ((roundingInterval u).1 * (gridScale k).2 ≤ c * (gridScale k).1) &&
        decide (c * (gridScale k).1 ≤ (roundingInterval u).2 * (gridScale k).2)
    else decide ((roundingInterval u).1 * (gridScale k).2 < c * (gridScale k).1) &&
        decide (c * (gridScale k).1 < (roundingInterval u).2 * (gridScale k).2)) = true →
      OnGridInside u k c := by
    intro c hc
    unfold OnGridInside
    split at hc <;> simp_all
  split at h
  · rename_i hb ha
    -- both candidates pass: whichever is taken, nearer or by the tie rule, passed
    have hj : j = below ∨ j = above := by
      cases tie <;> split_ifs at h <;>
        first | exact .inl (Option.some.inj h).symm | exact .inr (Option.some.inj h).symm
    rcases hj with hj | hj
    · rw [hj]
      exact hcheck _ hb
    · rw [hj]
      exact hcheck _ ha
  · rename_i hb _
    rw [← Option.some.inj h]
    exact hcheck _ hb
  · rename_i _ ha
    rw [← Option.some.inj h]
    exact hcheck _ ha
  · cases h
/-- A candidate that passed the check, scaled to quarter units, rounds to the magnitude. -/
theorem rounds_of_onGridInside {u : Nat} {k : Int} {j : Nat} (h : OnGridInside u k j) :
    Rounds u (j * 10 ^ k * (4 * unitsPerOne)) := by
  set q : ℚ := j * 10 ^ k * (4 * unitsPerOne)
  have hb : (0 : ℚ) < (gridScale k).2 := by exact_mod_cast gridScale_snd_pos k
  -- the exact comparisons on the grid are comparisons with `q`, scaled by the grid's divisor
  have hscale : ((j * (gridScale k).1 : Nat) : ℚ) = q * (gridScale k).2 := by
    push_cast
    rw [gridScale_fst]
    ring
  have hle : ∀ x : Nat, x * (gridScale k).2 ≤ j * (gridScale k).1 ↔ (x : ℚ) ≤ q := fun x => by
    rw [← mul_le_mul_iff_of_pos_right hb, ← hscale, ← Nat.cast_mul, Nat.cast_le]
  have hlt : ∀ x : Nat, x * (gridScale k).2 < j * (gridScale k).1 ↔ (x : ℚ) < q := fun x => by
    rw [← mul_lt_mul_iff_of_pos_right hb, ← hscale, ← Nat.cast_mul, Nat.cast_lt]
  have hge : ∀ x : Nat, j * (gridScale k).1 ≤ x * (gridScale k).2 ↔ q ≤ x := fun x => by
    rw [← mul_le_mul_iff_of_pos_right hb, ← hscale, ← Nat.cast_mul, Nat.cast_le]
  have hgt : ∀ x : Nat, j * (gridScale k).1 < x * (gridScale k).2 ↔ q < x := fun x => by
    rw [← mul_lt_mul_iff_of_pos_right hb, ← hscale, ← Nat.cast_mul, Nat.cast_lt]
  unfold OnGridInside at h
  unfold Rounds
  split at h
  · rename_i hends
    rw [if_pos hends]
    exact ⟨(hle _).mp h.1, (hge _).mp h.2⟩
  · rename_i hends
    rw [if_neg hends]
    exact ⟨(hlt _).mp h.1, (hgt _).mp h.2⟩

/-- The shortest decimal of a nonzero magnitude rounds back to it, and has nonzero digits. -/
theorem shortest_rounds {tie : Tie} {u : Nat} (hu : 0 < u) :
    Rounds u ((shortest tie u).value * (4 * unitsPerOne)) ∧ (shortest tie u).digits ≠ 0 := by
  generalize hd : shortest tie u = d
  delta shortest at hd
  dsimp only at hd
  rcases hfound : (List.range 17).findSome? (fun (i : Nat) =>
      (nearestOnGrid tie u (leadingExp u - i)).map fun j => (j, leadingExp u - (i : Int)))
    with _ | ⟨j, k⟩
  · -- no grid did: the exact value, `u * 5^1074 * 10^-1074`
    rw [hfound, Option.elim_none] at hd
    subst hd
    -- the power is kept unevaluated: `unitExp` stays a name throughout
    have h5 : ∀ E, Nat.pow 5 E ≠ 0 := fun E => Nat.pos_iff_ne_zero.mp (Nat.pow_pos (by norm_num))
    refine ⟨?_, Decimal.digits_trim_ne_zero (Nat.mul_ne_zero (by omega) (h5 unitExp)) _⟩
    have hexact : ((u * Nat.pow 5 unitExp : Nat) : ℚ) * 10 ^ (-(unitExp : Int)) *
        (4 * (unitsPerOne : ℚ)) = 4 * u := by
      unfold unitsPerOne
      generalize unitExp = E
      have h10 : (10 : ℚ) ^ E = 2 ^ E * 5 ^ E := by rw [← mul_pow]; norm_num
      simp only [Nat.pow_eq, Nat.cast_mul, Nat.cast_pow, Nat.cast_ofNat, zpow_neg, zpow_natCast,
        h10]
      field_simp
    rw [Decimal.value_trim, hexact]
    exact rounds_four_mul hu
  · -- a grid gave the digits: a checked candidate, trimmed
    rw [hfound, Option.elim_some] at hd
    obtain ⟨i, -, hi⟩ := List.exists_of_findSome?_eq_some hfound
    obtain ⟨j', hj', hjk⟩ := Option.map_eq_some_iff.mp hi
    simp only [Prod.mk.injEq] at hjk
    obtain ⟨rfl, rfl⟩ := hjk
    subst hd
    have hr := rounds_of_onGridInside (nearestOnGrid_inside hj')
    refine ⟨by rw [Decimal.value_trim]; exact hr, Decimal.digits_trim_ne_zero (fun h0 => ?_) _⟩
    have hpos := hr.pos hu
    rw [show j' = 0 from h0, Nat.cast_zero, zero_mul, zero_mul] at hpos
    exact lt_irrefl _ hpos

end Binary64

end DocQuery
