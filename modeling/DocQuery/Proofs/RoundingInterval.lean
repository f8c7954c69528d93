import Mathlib
import DocQuery.Binary64.Shortest

/-!
# Rounding intervals of binary64 magnitudes

A binary64 magnitude is a whole multiple of the step to the next larger one
(`Binary64.Representable`), and every rounded magnitude is one. The rounding intervals of two
different representable magnitudes never meet, the touching ends splitting between an odd and an
even significand (`Binary64.eq_of_rounds`), so a length read back from a text names one
magnitude. Lengths are counted in quarter units, as `Binary64.roundingInterval` counts them.
-/

namespace DocQuery

namespace Binary64

/-- A magnitude with at most 53 significant bits: a multiple of its step. -/
def Representable (u : Nat) : Prop := u % 2 ^ stepExp u = 0

/-- A length `q`, in quarter units, rounds to the magnitude `u`: it lies in the rounding interval
of `u`, its ends included when the significand of `u` is even. -/
def Rounds (u : Nat) (q : ℚ) : Prop :=
  if endsIncluded u then ((roundingInterval u).1 : ℚ) ≤ q ∧ q ≤ (roundingInterval u).2
  else ((roundingInterval u).1 : ℚ) < q ∧ q < (roundingInterval u).2

/-! ## Steps -/

theorem stepExp_of_lt {u : Nat} (h : u < 2 ^ 53) : stepExp u = 0 := by
  rw [stepExp, if_pos (by simpa [precision] using h)]

theorem stepExp_of_ge {u : Nat} (h : 2 ^ 53 ≤ u) : stepExp u = Nat.log2 u - 52 := by
  rw [stepExp, if_neg (by simpa [precision] using h)]
  rfl

/-- From `2^53` on, a magnitude lies in the binade of its step. -/
theorem binade_of_ge {u : Nat} (h : 2 ^ 53 ≤ u) :
    2 ^ (52 + stepExp u) ≤ u ∧ u < 2 ^ (53 + stepExp u) ∧ 0 < stepExp u := by
  have hu : u ≠ 0 := by omega
  have hlog : 53 ≤ Nat.log2 u := (Nat.le_log2 hu).mpr h
  rw [stepExp_of_ge h]
  refine ⟨?_, ?_, by omega⟩
  · rw [show 52 + (Nat.log2 u - 52) = Nat.log2 u by omega]
    exact Nat.log2_self_le hu
  · rw [show 53 + (Nat.log2 u - 52) = Nat.log2 u + 1 by omega]
    exact Nat.lt_log2_self

theorem lt_two_pow_stepExp (u : Nat) : u < 2 ^ (53 + stepExp u) := by
  rcases Nat.lt_or_ge u (2 ^ 53) with h | h
  · rw [stepExp_of_lt h]
    exact h
  · exact (binade_of_ge h).2.1

/-- A positive step puts the magnitude at or above the lowest power of two of its binade. -/
theorem two_pow_le_of_stepExp_pos {u : Nat} (h : 0 < stepExp u) : 2 ^ (52 + stepExp u) ≤ u := by
  rcases Nat.lt_or_ge u (2 ^ 53) with hu | hu
  · rw [stepExp_of_lt hu] at h
    omega
  · exact (binade_of_ge hu).1

/-- Below `2^(53 + k)` the step is at most `2^k`. -/
theorem stepExp_le_of_lt {u k : Nat} (h : u < 2 ^ (53 + k)) : stepExp u ≤ k := by
  rcases Nat.lt_or_ge u (2 ^ 53) with hu | hu
  · rw [stepExp_of_lt hu]
    omega
  · have hlog : Nat.log2 u < 53 + k := (Nat.log2_lt (by omega)).mpr h
    rw [stepExp_of_ge hu]
    omega

theorem stepExp_mono {u v : Nat} (h : u ≤ v) : stepExp u ≤ stepExp v := by
  rcases Nat.lt_or_ge u (2 ^ 53) with hu | hu
  · rw [stepExp_of_lt hu]
    omega
  · have hlog : Nat.log2 u ≤ Nat.log2 v :=
      (Nat.le_log2 (by omega)).mpr (Nat.le_trans (Nat.log2_self_le (by omega)) h)
    rw [stepExp_of_ge hu, stepExp_of_ge (Nat.le_trans hu h)]
    omega

/-! ## Representable magnitudes -/

/-- A significand of at most 53 bits shifted left gives a representable magnitude. -/
theorem representable_mul_two_pow {m : Nat} (hm : m ≤ 2 ^ 53) (k : Nat) :
    Representable (m * 2 ^ k) := by
  unfold Representable
  rcases Nat.lt_or_ge m (2 ^ 53) with hlt | heq
  · -- the step is at most `2^k`, which divides the magnitude
    have hstep : stepExp (m * 2 ^ k) ≤ k := stepExp_le_of_lt (by
      rw [Nat.pow_add]
      exact Nat.mul_lt_mul_of_pos_right hlt (Nat.two_pow_pos k))
    exact Nat.mod_eq_zero_of_dvd
      (Dvd.dvd.mul_left (Nat.pow_dvd_pow 2 hstep) m)
  · -- the significand is `2^53`: a power of two, one binade up
    have hm' : m = 2 ^ 53 := by omega
    subst hm'
    have hstep : stepExp (2 ^ 53 * 2 ^ k) ≤ k + 1 := stepExp_le_of_lt (by
      rw [← Nat.pow_add]
      exact Nat.pow_lt_pow_right (by omega) (by omega))
    rw [← Nat.pow_add] at hstep ⊢
    exact Nat.mod_eq_zero_of_dvd (Nat.pow_dvd_pow 2 (by omega))

/-- Rounding gives a representable magnitude: a significand of at most 53 bits, shifted. -/
theorem roundUnits_representable (num den : Nat) : Representable (roundUnits num den) := by
  unfold roundUnits
  dsimp only
  split
  · rename_i hwhole
    have hle : nearestEven num den ≤ 2 ^ 53 := by
      have := nearestEven_le_succ num den
      simp only [precision, Nat.pow_eq] at hwhole
      omega
    simpa using representable_mul_two_pow hle 0
  · rename_i hwhole
    simp only [precision, Nat.pow_eq, Nat.not_lt] at hwhole
    -- the shift leaves a whole part below `2^53`, so the significand is at most `2^53`
    have hlog : 53 ≤ Nat.log2 (num / den) := (Nat.le_log2 (by omega)).mpr hwhole
    have hlt : num / den < 2 ^ (53 + (Nat.log2 (num / den) + 1 - precision)) := by
      rw [show 53 + (Nat.log2 (num / den) + 1 - precision) = Nat.log2 (num / den) + 1 by
        simp only [precision]; omega]
      exact Nat.lt_log2_self
    have hq : num / (den * 2 ^ (Nat.log2 (num / den) + 1 - precision)) < 2 ^ 53 := by
      rw [← Nat.div_div_eq_div_mul, Nat.div_lt_iff_lt_mul (Nat.two_pow_pos _), ← Nat.pow_add]
      exact hlt
    have hle := nearestEven_le_succ num (den * 2 ^ (Nat.log2 (num / den) + 1 - precision))
    simp only [Nat.pow_eq]
    exact representable_mul_two_pow (by omega) _

theorem ofInt_representable (n : Int) : Representable (ofInt n).units :=
  roundUnits_representable _ _

/-! ## Rounding intervals -/

section Interval

variable {u v : Nat}

theorem roundingInterval_fst (u : Nat) : (roundingInterval u).1 =
    4 * u - if 0 < stepExp u ∧ u = 2 ^ (52 + stepExp u) then 2 ^ stepExp u
      else 2 ^ (stepExp u + 1) := by
  simp [roundingInterval, precision]
  rfl

theorem roundingInterval_snd (u : Nat) : (roundingInterval u).2 = 4 * u + 2 * 2 ^ stepExp u := by
  simp [roundingInterval, Nat.pow_succ, Nat.mul_comm]

/-- The distance below the magnitude to the lower end is at most a step, and positive. -/
theorem below_le (u : Nat) :
    0 < (if 0 < stepExp u ∧ u = 2 ^ (52 + stepExp u) then 2 ^ stepExp u
      else 2 ^ (stepExp u + 1)) ∧
    (if 0 < stepExp u ∧ u = 2 ^ (52 + stepExp u) then 2 ^ stepExp u
      else 2 ^ (stepExp u + 1)) ≤ 2 * 2 ^ stepExp u := by
  split
  · exact ⟨Nat.two_pow_pos _, by omega⟩
  · exact ⟨Nat.two_pow_pos _, by rw [Nat.pow_succ]; omega⟩

/-- The lower end lies strictly between zero and four times the magnitude. -/
theorem roundingInterval_fst_pos (hu : 0 < u) :
    0 < (roundingInterval u).1 ∧ (roundingInterval u).1 < 4 * u := by
  rw [roundingInterval_fst]
  obtain ⟨hpos, hle⟩ := below_le u
  have hstep : 2 * 2 ^ stepExp u < 4 * u := by
    rcases Nat.eq_zero_or_pos (stepExp u) with h0 | hs
    · rw [h0]
      omega
    · have h := two_pow_le_of_stepExp_pos hs
      have : 2 ^ stepExp u * 2 ≤ 2 ^ (52 + stepExp u) := by
        rw [Nat.pow_add, Nat.mul_comm (2 ^ 52)]
        exact Nat.mul_le_mul_left _ (by norm_num)
      omega
  omega

theorem rounds_four_mul (hu : 0 < u) : Rounds u (4 * u) := by
  have hlo := roundingInterval_fst_pos hu
  have hhi := roundingInterval_snd u
  have hlt : ((roundingInterval u).1 : ℚ) < 4 * u := by exact_mod_cast hlo.2
  have hgt : (4 * u : ℚ) < (roundingInterval u).2 := by
    rw [hhi]
    push_cast
    have : (0 : ℚ) < 2 * 2 ^ stepExp u := by positivity
    linarith
  unfold Rounds
  split <;> exact ⟨by linarith, by linarith⟩

theorem Rounds.lo_le {q : ℚ} (h : Rounds u q) : ((roundingInterval u).1 : ℚ) ≤ q := by
  unfold Rounds at h
  split at h
  · exact h.1
  · exact h.1.le

theorem Rounds.le_hi {q : ℚ} (h : Rounds u q) : q ≤ (roundingInterval u).2 := by
  unfold Rounds at h
  split at h
  · exact h.2
  · exact h.2.le

/-- An end is reached only when the ends are included. -/
theorem Rounds.endsIncluded_of_eq {q : ℚ} (h : Rounds u q)
    (hq : q = (roundingInterval u).1 ∨ q = (roundingInterval u).2) : endsIncluded u = true := by
  unfold Rounds at h
  split at h
  · assumption
  · rcases hq with rfl | rfl
    · exact absurd h.1 (lt_irrefl _)
    · exact absurd h.2 (lt_irrefl _)

theorem Rounds.pos {q : ℚ} (h : Rounds u q) (hu : 0 < u) : 0 < q := by
  have hlo : (0 : ℚ) < (roundingInterval u).1 := by exact_mod_cast (roundingInterval_fst_pos hu).1
  exact lt_of_lt_of_le hlo h.lo_le

/-- Two intervals in order, on the significands `m < n` of two magnitudes and their steps
`2^s ≤ 2^t`: the upper end of the first, `4 m 2^s + 2 2^s`, is at most the lower end of the
second, `4 n 2^t - b`, where `b` is one step below the bottom significand of a binade and two
steps otherwise; and the two meet only where one significand is odd. -/
theorem gap_of_significands {m n s t : Nat} (hst : s ≤ t) (hm : m < 2 ^ 53)
    (hmlow : 0 < s → 2 ^ 52 ≤ m) (hnlow : 0 < t → 2 ^ 52 ≤ n) (hmn : m * 2 ^ s < n * 2 ^ t) :
    4 * (m * 2 ^ s) + 2 * 2 ^ s + (if 0 < t ∧ n = 2 ^ 52 then 2 ^ t else 2 * 2 ^ t) ≤
        4 * (n * 2 ^ t) ∧
      (4 * (m * 2 ^ s) + 2 * 2 ^ s + (if 0 < t ∧ n = 2 ^ 52 then 2 ^ t else 2 * 2 ^ t) =
        4 * (n * 2 ^ t) → m % 2 = 0 → n % 2 = 0 → False) := by
  have hP : 0 < 2 ^ s := Nat.two_pow_pos s
  have hm1 : (m + 1) * 2 ^ s ≤ 2 ^ 53 * 2 ^ s := Nat.mul_le_mul_right _ hm
  rcases Nat.eq_or_lt_of_le hst with rfl | hlt
  · -- one binade: the larger significand is at least one more, never a binade's bottom
    have hmn' : m + 1 ≤ n := Nat.lt_of_mul_lt_mul_right hmn
    have hbot : ¬ (0 < s ∧ n = 2 ^ 52) := fun ⟨hs, hn⟩ =>
      Nat.not_succ_le_self m (Nat.le_trans (hn ▸ hmn') (hmlow hs))
    rw [if_neg hbot]
    have hstep : (m + 1) * 2 ^ s ≤ n * 2 ^ s := Nat.mul_le_mul_right _ hmn'
    refine ⟨by linarith, fun heq hme hne => ?_⟩
    have hnm : n * 2 ^ s = (m + 1) * 2 ^ s := by linarith
    have hn1 : n = m + 1 := Nat.eq_of_mul_eq_mul_right hP hnm
    rw [hn1, Nat.succ_mod_two_eq_zero_iff] at hne
    rw [hme] at hne
    exact Nat.zero_ne_one hne
  · -- across binades: the first is at most the top of its binade, the second at least the
    -- bottom of its own, and the step doubles at least once
    have htpos : 0 < t := Nat.lt_of_le_of_lt (Nat.zero_le s) hlt
    have hQ : 2 * 2 ^ s ≤ 2 ^ t := by
      rw [← Nat.pow_succ']
      exact Nat.pow_le_pow_right (by omega) hlt
    have hn := hnlow htpos
    by_cases hbot : n = 2 ^ 52
    · rw [if_pos ⟨htpos, hbot⟩, hbot]
      refine ⟨by linarith, fun heq hme _ => ?_⟩
      have htop : 2 ^ 53 * 2 ^ s ≤ (m + 1) * 2 ^ s := by linarith
      have hm' : m = 2 ^ 53 - 1 := Nat.le_antisymm (Nat.le_sub_one_of_lt hm)
        (Nat.sub_le_of_le_add (Nat.le_of_mul_le_mul_right htop hP))
      rw [hm'] at hme
      norm_num at hme
    · rw [if_neg fun h => hbot h.2]
      have hn' : (2 ^ 52 + 1) * 2 ^ t ≤ n * 2 ^ t :=
        Nat.mul_le_mul_right _ (Nat.lt_of_le_of_ne hn (Ne.symm hbot))
      exact ⟨by linarith, fun heq => absurd heq (by linarith)⟩

/-- Two representable magnitudes in order: the upper end of the smaller one's interval is at
most the lower end of the larger one's, and where they meet one of the two significands is odd. -/
theorem snd_le_fst (hu : Representable u) (hv : Representable v) (huv : u < v) :
    (roundingInterval u).2 ≤ (roundingInterval v).1 ∧
      ((roundingInterval u).2 = (roundingInterval v).1 →
        ¬ (endsIncluded u = true ∧ endsIncluded v = true)) := by
  -- each magnitude is its significand times its step
  have hu' : u / 2 ^ stepExp u * 2 ^ stepExp u = u :=
    Nat.div_mul_cancel (Nat.dvd_of_mod_eq_zero hu)
  have hv' : v / 2 ^ stepExp v * 2 ^ stepExp v = v :=
    Nat.div_mul_cancel (Nat.dvd_of_mod_eq_zero hv)
  have hsig : ∀ w, 0 < stepExp w → 2 ^ 52 ≤ w / 2 ^ stepExp w := fun w hw =>
    (Nat.le_div_iff_mul_le (Nat.two_pow_pos _)).mpr
      (by rw [← Nat.pow_add]; exact two_pow_le_of_stepExp_pos hw)
  have hm : u / 2 ^ stepExp u < 2 ^ 53 := (Nat.div_lt_iff_lt_mul (Nat.two_pow_pos _)).mpr
    (by rw [← Nat.pow_add]; exact lt_two_pow_stepExp u)
  -- the bottom of a binade, read on the significand
  have hb : (if 0 < stepExp v ∧ v = 2 ^ (52 + stepExp v) then 2 ^ stepExp v
      else 2 ^ (stepExp v + 1)) =
      if 0 < stepExp v ∧ v / 2 ^ stepExp v = 2 ^ 52 then 2 ^ stepExp v
      else 2 * 2 ^ stepExp v := by
    have hiff : v = 2 ^ (52 + stepExp v) ↔ v / 2 ^ stepExp v = 2 ^ 52 := by
      generalize stepExp v = t at hv' ⊢
      constructor
      · intro h
        rw [h, Nat.pow_add, Nat.mul_div_cancel _ (Nat.two_pow_pos _)]
      · intro h
        rw [← hv', h, Nat.pow_add]
    simp only [hiff, Nat.pow_succ']
  obtain ⟨hle, htouch⟩ := gap_of_significands (stepExp_mono huv.le) hm (hsig u) (hsig v)
    (by rw [hu', hv']; exact huv)
  rw [hu', hv'] at hle htouch
  rw [roundingInterval_snd, roundingInterval_fst, hb]
  refine ⟨Nat.le_sub_of_add_le hle, fun heq ⟨hiu, hiv⟩ => ?_⟩
  simp only [endsIncluded, beq_iff_eq] at hiu hiv
  exact htouch (by rw [heq]; exact Nat.sub_add_cancel (Nat.le_trans (Nat.le_add_left _ _) hle))
    hiu hiv

/-- No length rounds to two different representable magnitudes. -/
theorem eq_of_rounds {q : ℚ} (hu : Representable u) (hv : Representable v)
    (h₁ : Rounds u q) (h₂ : Rounds v q) : u = v := by
  -- for `u < v` the length would sit at the top of `u`'s interval and the bottom of `v`'s
  have key : ∀ {a b : Nat}, Representable a → Representable b → a < b → Rounds a q →
      Rounds b q → False := by
    intro a b ha hb hab ha' hb'
    obtain ⟨hle, hne⟩ := snd_le_fst ha hb hab
    have h₁ := ha'.le_hi
    have h₂ := hb'.lo_le
    have hle' : ((roundingInterval a).2 : ℚ) ≤ (roundingInterval b).1 := by exact_mod_cast hle
    have hq : q = (roundingInterval a).2 := by linarith
    have hq' : q = (roundingInterval b).1 := by linarith
    have heq : (roundingInterval a).2 = (roundingInterval b).1 := by exact_mod_cast hq.symm.trans hq'
    exact hne heq ⟨ha'.endsIncluded_of_eq (.inr hq), hb'.endsIncluded_of_eq (.inl hq')⟩
  rcases Nat.lt_trichotomy u v with huv | huv | huv
  · exact (key hu hv huv h₁ h₂).elim
  · exact huv
  · exact (key hv hu huv h₂ h₁).elim

end Interval

end Binary64

end DocQuery
