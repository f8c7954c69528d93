import Mathlib
import DocQuery.Proofs.CompactText
import DocQuery.Proofs.Projection
import DocQuery.Graph.Key
import DocQuery.Store.Selector

/-!
# Join keys and equal values

Rows are joined on key texts, while a selector's `$in` compares values with `sameValue`. Two
numbers have the same key exactly when they are equal binary64 numbers (`Json.key?_num_eq_iff`),
since a number's key reads back as a value rounding to it; keys of different kinds differ, and
equal keys of other values are equal compact texts (`Json.sameValue_of_key?_eq`).
-/

namespace DocQuery

namespace Json

open Numeral

theorem keyStyle_plain : keyStyle.Plain :=
  ⟨Or.inl rfl, rfl, Or.inl rfl⟩

/-! ## Number keys -/

theorem key?_num_isSome (n : Number) : ∃ t, key? (.num n) = some t := by
  simp only [key?]
  split_ifs
  · exact ⟨_, rfl⟩
  · exact ⟨_, rfl⟩

/-- A number's key text stands for the number. -/
theorem readsAs_key? {n : Number} {t : String} (h : key? (.num n) = some t) :
    n.toBinary64.ReadsAs (value t.toList) := by
  simp only [key?] at h
  split_ifs at h with hint
  · rw [← Option.some.inj h, value_intText]
    exact Binary64.readsAs_truncate (Bool.and_eq_true_iff.mp hint).1
  · rw [← Option.some.inj h]
    exact FloatStyle.readsAs_render keyStyle_plain _

/-- A number's key text is a nonempty run of numeral characters. -/
theorem key?_num_numeral {n : Number} {t : String} (h : key? (.num n) = some t) :
    t.toList ≠ [] ∧ t.toList.all isNumeralChar = true := by
  simp only [key?] at h
  split_ifs at h
  · rw [← Option.some.inj h, intText]
    exact ⟨by simp [Nat.toDigits_ne_nil], by rw [← intText]; exact intText_numeral _⟩
  · rw [← Option.some.inj h]
    exact ⟨FloatStyle.render_ne_nil _ _, FloatStyle.render_numeral (by decide) _⟩

/-- Zero, of either sign, keys as `0`. -/
theorem key?_num_of_units_zero {n : Number} (h : n.toBinary64.units = 0) :
    key? (.num n) = some "0" := by
  have hintegral : n.toBinary64.isIntegral = true := by
    simp [Binary64.isIntegral, h]
  have hsmall : n.toBinary64.absLtPow2 63 = true := by
    unfold Binary64.absLtPow2
    rw [h, Nat.pow_eq]
    exact decide_eq_true (by positivity)
  have htrunc : n.toBinary64.truncate = 0 := by
    simp [Binary64.truncate, h]
  simp only [key?, hintegral, hsmall, Bool.and_self, if_true, htrunc]
  rfl

/-- Two numbers have the same key exactly when they are equal binary64 numbers. -/
theorem key?_num_eq_iff {a b : Number} (ha : a.Representable) (hb : b.Representable) :
    key? (.num a) = key? (.num b) ↔ a.toBinary64.numEq b.toBinary64 = true := by
  constructor
  · intro h
    obtain ⟨t, ht⟩ := key?_num_isSome a
    have hunits := Binary64.toUnits_eq_of_readsAs ha hb (readsAs_key? ht) (readsAs_key? (h ▸ ht))
    simpa [Binary64.numEq] using hunits
  · intro h
    have hunits : a.toBinary64.toUnits = b.toBinary64.toUnits := by
      simpa [Binary64.numEq] using h
    rcases Binary64.eq_or_zero_of_toUnits_eq hunits with hab | ⟨ha0, hb0⟩
    · simp only [key?, hab]
    · rw [key?_num_of_units_zero ha0, key?_num_of_units_zero hb0]

/-! ## Keys of other values -/

theorem ne_null_of_key?_eq_some {v : Json} {t : String} (h : key? v = some t) : v ≠ .null := by
  rintro rfl
  simp [key?] at h

theorem key?_of_kind {v : Json} (hnull : v ≠ .null) (hnum : v.kind ≠ 2) :
    key? v = some v.compact := by
  cases v <;> simp_all [key?, kind]

/-- A key starts with a character that tells whether the value is a number. -/
theorem key?_lead {v : Json} {t : String} (h : key? v = some t) :
    ∃ c rest, t.toList = c :: rest ∧ (kindOfLead c = 2 ↔ v.kind = 2) := by
  by_cases hnum : v.kind = 2
  · obtain ⟨n, rfl⟩ := exists_num_of_kind hnum
    obtain ⟨hne, hnumeral⟩ := key?_num_numeral h
    obtain ⟨c, rest, hc⟩ := List.exists_cons_of_ne_nil hne
    have hcnum := List.all_eq_true.mp hnumeral c (by simp [hc])
    exact ⟨c, rest, hc, by simp [kindOfLead, hcnum, kind]⟩
  · rw [key?_of_kind (ne_null_of_key?_eq_some h) hnum, Option.some.injEq] at h
    obtain ⟨c, rest, hc, hkind⟩ := compact_lead v
    exact ⟨c, rest, h ▸ hc, by rw [hkind]⟩

/-! ## Equal keys, equal values -/

mutual
/-- A value whose objects repeat no key is the same value as itself. -/
theorem sameValue_refl : ∀ v : Json, v.KeysDistinct → sameValue v v = true
  | .null, _ => by simp [sameValue, equal]
  | .bool _, _ => by simp [sameValue, equal]
  | .num n, _ => Binary64.numEq_refl _
  | .str _, _ => by simp [sameValue, equal]
  | .arr xs, h => by
    simp only [sameValue, beq_self_eq_true, Bool.true_and]
    exact sameItems_refl xs h
  | .obj es, h => by
    simp only [sameValue, beq_self_eq_true, Bool.true_and]
    exact sameEntries_of_get? es es h.2 fun e he => Object.get?_of_mem h.1 he

theorem sameItems_refl : ∀ xs : List Json, itemsKeysDistinct xs → sameItems xs xs = true
  | [], _ => by simp [sameItems]
  | x :: xs, h => by
    simp only [sameItems, sameValue_refl x h.1, sameItems_refl xs h.2, Bool.and_self]

/-- Entries that stand in an object under their keys are the same as that object's. -/
theorem sameEntries_of_get? : ∀ (es : List (String × Json)) (o : Object),
    entriesKeysDistinct es → (∀ e ∈ es, o.get? e.1 = some e.2) → sameEntries es o = true
  | [], _, _, _ => by simp [sameEntries]
  | (k, v) :: es, o, h, hget => by
    simp only [sameEntries, hget (k, v) List.mem_cons_self, sameValue_refl v h.1, Bool.true_and]
    exact sameEntries_of_get? es o h.2 fun e he => hget e (List.mem_cons_of_mem _ he)
end

/-- Values with the same key are the same value: numbers as binary64 numbers, any other value
by its compact text. -/
theorem sameValue_of_key?_eq {a b : Json} (ha : a.NumbersRepresentable)
    (hb : b.NumbersRepresentable) (hdistinct : a.KeysDistinct) (h : key? a = key? b)
    (hsome : key? a ≠ none) : sameValue a b = true := by
  obtain ⟨t, ht⟩ := Option.ne_none_iff_exists'.mp hsome
  have htb : key? b = some t := h ▸ ht
  obtain ⟨c, rest, hc, hkinda⟩ := key?_lead ht
  obtain ⟨c', rest', hc', hkindb⟩ := key?_lead htb
  obtain ⟨rfl, -⟩ := List.cons.inj (hc.symm.trans hc')
  by_cases hnum : a.kind = 2
  · -- both numbers: equal as binary64 numbers
    obtain ⟨m, rfl⟩ := exists_num_of_kind hnum
    obtain ⟨n, rfl⟩ := exists_num_of_kind (hkindb.mp (hkinda.mpr hnum))
    simpa [sameValue] using (key?_num_eq_iff ha hb).mp h
  · -- neither a number: the same compact text, so the same value
    have hnumb : b.kind ≠ 2 := fun hb2 => hnum (hkinda.mp (hkindb.mpr hb2))
    rw [key?_of_kind (ne_null_of_key?_eq_some ht) hnum,
      key?_of_kind (ne_null_of_key?_eq_some htb) hnumb, Option.some.injEq] at h
    rw [← compact_injective ha hb h]
    exact sameValue_refl a hdistinct

/-! ## Scalars -/

/-- A number, a string or a boolean. -/
def IsScalar : Json → Prop
  | .num _ | .str _ | .bool _ => True
  | _ => False

theorem keysDistinct_of_isScalar {v : Json} (h : v.IsScalar) : v.KeysDistinct := by
  cases v <;> simp_all [IsScalar, KeysDistinct]

theorem key?_ne_none_of_isScalar {v : Json} (h : v.IsScalar) : key? v ≠ none := by
  cases v with
  | num n =>
    obtain ⟨t, ht⟩ := key?_num_isSome n
    simp [ht]
  | str s => simp [key?]
  | bool b => simp [key?]
  | _ => simp [IsScalar] at h

/-- Numbers, strings and booleans that are the same value have the same key. -/
theorem key?_eq_of_sameValue {a b : Json} (ha : a.IsScalar) (hb : b.IsScalar)
    (hna : a.NumbersRepresentable) (hnb : b.NumbersRepresentable) (h : sameValue a b = true) :
    key? a = key? b := by
  -- numbers by value; strings and booleans only as themselves, and no two kinds meet
  cases a <;> cases b <;> simp only [IsScalar] at ha hb
  case num.num m n => exact (key?_num_eq_iff hna hnb).mpr h
  all_goals simp_all [sameValue, equal]

/-- Join keys agree with `sameValue`: two numbers have the same key exactly when they are equal
binary64 numbers, two numbers, strings or booleans exactly when they are the same value, and
any two values with the same key are the same value, when no object in the first repeats a key.
Numbers are taken as binary64 holds them. -/
theorem key?_eq_iff_sameValue :
    (∀ a b : Number, a.Representable → b.Representable →
      (key? (.num a) = key? (.num b) ↔ a.toBinary64.numEq b.toBinary64 = true)) ∧
    (∀ a b : Json, a.IsScalar → b.IsScalar → a.NumbersRepresentable →
      b.NumbersRepresentable → (key? a = key? b ↔ sameValue a b = true)) ∧
    (∀ a b : Json, a.NumbersRepresentable → b.NumbersRepresentable → a.KeysDistinct →
      key? a = key? b → key? a ≠ none → sameValue a b = true) := by
  refine ⟨fun a b ha hb => key?_num_eq_iff ha hb, fun a b ha hb hna hnb => ⟨fun h => ?_,
    key?_eq_of_sameValue ha hb hna hnb⟩,
    fun a b ha hb hdistinct h hsome => sameValue_of_key?_eq ha hb hdistinct h hsome⟩
  -- a scalar repeats no key and always has one
  exact sameValue_of_key?_eq hna hnb (keysDistinct_of_isScalar ha) h (key?_ne_none_of_isScalar ha)

/-- `-0.0` and `0` share a key, and the string `"1"` never meets the number `1`. -/
theorem key?_negZero_eq_zero :
    key? (.num (.float ⟨true, 0⟩)) = key? (.num (.int 0)) ∧
      key? (.str "1") ≠ key? (.num (.int 1)) := by
  have hzero : (Number.float ⟨true, 0⟩).Representable := by
    simp [Number.Representable, Binary64.Representable, Number.toBinary64]
  have hsame : Binary64.numEq ⟨true, 0⟩ (Number.int 0).toBinary64 = true := by
    simp [Binary64.numEq, Binary64.toUnits, Number.toBinary64, Binary64.ofInt,
      Binary64.roundUnits, Binary64.nearestEven]
  refine ⟨(key?_eq_iff_sameValue.1 _ _ hzero (Number.representable_int 0)).mpr hsame, ?_⟩
  intro h
  have := (key?_eq_iff_sameValue.2.1 (.str "1") (.num (.int 1)) trivial trivial trivial
    (Number.representable_int 1)).mp h
  simp [sameValue, equal] at this

end Json

end DocQuery
