import Mathlib
import DocQuery.Proofs.NumeralText
import DocQuery.Proofs.RoundingInterval

/-!
# Numbers from their texts

A text stands for a binary64 value when its length rounds to it (`Binary64.ReadsAs`), and two
representable values one text stands for are equal (`Binary64.toUnits_eq_of_readsAs`). A value's
own text stands for it (`FloatStyle.readsAs_render`), so the JSON text of a number with a
representable magnitude determines the number (`Number.toText_injective`).
-/

namespace DocQuery

open Numeral

namespace Binary64

/-- A sign and a length read off a text stand for the value: zero for zero, whatever the sign;
any other value with its sign and a length, in units, that rounds to its magnitude. -/
def ReadsAs (x : Binary64) (p : Bool × ℚ) : Prop :=
  if x.units = 0 then p.2 = 0 else p.1 = x.neg ∧ Rounds x.units (p.2 * (4 * unitsPerOne))

theorem units_eq_of_toUnits_eq {x y : Binary64} (hneg : x.neg = y.neg)
    (h : x.toUnits = y.toUnits) : x.units = y.units := by
  unfold toUnits at h
  rw [hneg] at h
  split_ifs at h <;> omega

/-- Two values equal as numbers are the same value, or both zero. -/
theorem eq_or_zero_of_toUnits_eq {x y : Binary64} (h : x.toUnits = y.toUnits) :
    x = y ∨ (x.units = 0 ∧ y.units = 0) := by
  rcases x with ⟨xneg, xu⟩
  rcases y with ⟨yneg, yu⟩
  unfold toUnits at h
  cases xneg <;> cases yneg <;> simp only [if_true, Bool.false_eq_true, if_false] at h <;>
    simp <;> omega

/-- No nonzero magnitude rounds from a zero length. -/
theorem not_rounds_zero {u : Nat} (hu : u ≠ 0) : ¬ Rounds u 0 := fun h =>
  lt_irrefl _ (h.pos (Nat.pos_of_ne_zero hu))

/-- A text that stands for two representable values stands for one number. -/
theorem toUnits_eq_of_readsAs {x y : Binary64} {p : Bool × ℚ} (hx : Representable x.units)
    (hy : Representable y.units) (h₁ : x.ReadsAs p) (h₂ : y.ReadsAs p) :
    x.toUnits = y.toUnits := by
  unfold ReadsAs at h₁ h₂
  split_ifs at h₁ h₂ with hx0 hy0 hy0
  · simp [toUnits, hx0, hy0]
  · -- a zero length rounds to no nonzero magnitude
    rw [h₁, zero_mul] at h₂
    exact absurd h₂.2 (not_rounds_zero hy0)
  · rw [h₂, zero_mul] at h₁
    exact absurd h₁.2 (not_rounds_zero hx0)
  · have hneg : x.neg = y.neg := h₁.1.symm.trans h₂.1
    have hunits : x.units = y.units := eq_of_rounds hx hy h₁.2 h₂.2
    simp [toUnits, hneg, hunits]

/-- An integral value stands for its truncation, read exactly. -/
theorem readsAs_truncate {x : Binary64} (hx : x.isIntegral = true) :
    x.ReadsAs (decide (x.truncate < 0), (x.truncate.natAbs : ℚ)) := by
  have hdvd : unitsPerOne ∣ x.units := Nat.dvd_of_mod_eq_zero (by simpa [isIntegral] using hx)
  have habs : x.truncate.natAbs = x.units / unitsPerOne := by
    unfold truncate
    split_ifs <;> simp only [Int.natAbs_neg, Int.natAbs_natCast]
  unfold ReadsAs
  split_ifs with hzero
  · simp [habs, hzero]
  · have hone : 0 < unitsPerOne := Nat.pos_of_dvd_of_pos hdvd (Nat.pos_of_ne_zero hzero)
    have hwhole : 0 < x.units / unitsPerOne :=
      Nat.div_pos (Nat.le_of_dvd (Nat.pos_of_ne_zero hzero) hdvd) hone
    refine ⟨?_, ?_⟩
    · unfold truncate
      dsimp only
      generalize x.units / unitsPerOne = w at hwhole
      cases x.neg <;> simp [hwhole]
    · -- the exact value is four times the magnitude, in quarter units
      obtain ⟨k, hk⟩ := hdvd
      have hexact : ((x.units / unitsPerOne : Nat) : ℚ) * (4 * unitsPerOne) = 4 * x.units := by
        rw [hk, Nat.mul_div_cancel_left k hone]
        push_cast
        ring
      rw [habs, hexact]
      exact rounds_four_mul (Nat.pos_of_ne_zero hzero)

end Binary64

namespace FloatStyle

/-- The text of a value in a style that reads back stands for the value. -/
theorem readsAs_render {style : FloatStyle} (hstyle : style.Plain) (x : Binary64) :
    x.ReadsAs (value (style.render x).toList) := by
  rw [value_render hstyle, Binary64.ReadsAs]
  split_ifs with hzero
  · rfl
  · exact ⟨rfl, (Binary64.shortest_rounds (Nat.pos_of_ne_zero hzero)).1⟩

/-- A style whose text reads back writes distinct representable values differently, the two
zeros included. -/
theorem render_injective {style : FloatStyle} (hstyle : style.Plain) {x y : Binary64}
    (hx : Binary64.Representable x.units) (hy : Binary64.Representable y.units)
    (h : style.render x = style.render y) : x = y := by
  have hread : value (style.render x).toList = value (style.render y).toList := by rw [h]
  have hneg : x.neg = y.neg := by
    have := congrArg Prod.fst hread
    rwa [value_render hstyle, value_render hstyle] at this
  have hunits := Binary64.toUnits_eq_of_readsAs hx hy (readsAs_render hstyle x)
    (hread ▸ readsAs_render hstyle y)
  have := Binary64.units_eq_of_toUnits_eq hneg hunits
  cases x
  cases y
  simp_all

/-- With `.0` after an integral value and `e` before an exponent, a text always has a point or
an exponent. -/
theorem renderDecimal_marked {style : FloatStyle} (hmark : style.integralMark = ".0")
    (hexp : style.exponentMark = "e") (d : Decimal) :
    (style.renderDecimal d).toList.all (fun c => c.isDigit || c == '-') = false := by
  unfold renderDecimal
  dsimp only
  split_ifs <;> simp [hmark, hexp]

theorem render_marked {style : FloatStyle} (hmark : style.integralMark = ".0")
    (hexp : style.exponentMark = "e") (x : Binary64) :
    (style.render x).toList.all (fun c => c.isDigit || c == '-') = false := by
  unfold render
  dsimp only
  split_ifs <;> simp [hmark, renderDecimal_marked hmark hexp]

theorem renderDecimal_ne_nil (style : FloatStyle) (d : Decimal) :
    (style.renderDecimal d).toList ≠ [] := by
  have hdigits : Nat.toDigits 10 d.digits ≠ [] := Nat.toDigits_ne_nil
  unfold renderDecimal
  dsimp only
  split_ifs <;> simp [hdigits]

theorem render_ne_nil (style : FloatStyle) (x : Binary64) : (style.render x).toList ≠ [] := by
  have hdecimal := renderDecimal_ne_nil style (Binary64.shortest style.tie x.units)
  simp at hdecimal
  unfold render
  dsimp only
  split_ifs <;> simp [hdecimal]

end FloatStyle

namespace Number

/-- A number whose binary64 magnitude is one that binary64 holds: a float as parsed, or an
integer, whose magnitude is rounded. -/
def Representable (n : Number) : Prop := Binary64.Representable n.toBinary64.units

theorem representable_int (n : Int) : (Number.int n).Representable :=
  Binary64.ofInt_representable n

/-- An integer's text is digits after an optional minus sign. -/
theorem intText_integral (n : Int) :
    (toString n).toList.all (fun c => c.isDigit || c == '-') = true := by
  rw [intText]
  have hdigits := toDigits_isDigit n.natAbs
  simp only [List.all_append, Bool.and_eq_true]
  refine ⟨by cases decide (n < 0) <;> decide, List.all_eq_true.mpr fun c hc => ?_⟩
  simp [List.all_eq_true.mp hdigits c hc]

/-- A float's JSON text has a point or an exponent. -/
theorem floatText_not_integral (x : Binary64) :
    (jsonStyle.render x).toList.all (fun c => c.isDigit || c == '-') = false :=
  FloatStyle.render_marked rfl rfl x

/-- The JSON text of a number with a representable magnitude determines the number. -/
theorem toText_injective {a b : Number} (ha : a.Representable) (hb : b.Representable)
    (h : a.toText = b.toText) : a = b := by
  cases a with
  | int m =>
    cases b with
    | int n =>
      have hread := congrArg (fun s => value s.toList) h
      simp only [toText, value_intText, Prod.mk.injEq, Nat.cast_inj] at hread
      obtain ⟨hsign, habs⟩ := hread
      have : m = n := by
        by_cases hm : m < 0 <;> by_cases hn : n < 0 <;> simp [hm, hn] at hsign <;> omega
      rw [this]
    | float y =>
      have := floatText_not_integral y
      rw [← show (toString m) = jsonStyle.render y from h, intText_integral] at this
      exact Bool.noConfusion this
  | float x =>
    cases b with
    | int n =>
      have := floatText_not_integral x
      rw [show jsonStyle.render x = toString n from h, intText_integral] at this
      exact Bool.noConfusion this
    | float y =>
      have hxy : x = y := FloatStyle.render_injective ⟨Or.inr rfl, rfl, Or.inr rfl⟩ ha hb h
      rw [hxy]

end Number

end DocQuery
