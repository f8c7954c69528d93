import Mathlib
import DocQuery.Proofs.CompactText
import DocQuery.Client.Query

/-!
# Subscription keys

A subscription key hashes the query's name, a zero byte and the compact text of the arguments.
A name may hold `U+0000`, but compact text has no control character, so the last zero byte is the
separator and the bytes determine name and text (`Query.keyBytes_eq_iff`); two keys coincide
exactly when names and texts do, barring a hash collision (`Query.subscriptionKey_eq_iff`).
-/

namespace DocQuery

/-! ## The bytes of a string -/

theorem byteArray_toList_loop (bs : ByteArray) (i : Nat) (r : List UInt8) :
    ByteArray.toList.loop bs i r = r.reverse ++ bs.data.toList.drop i := by
  fun_induction ByteArray.toList.loop bs i r with
  | case1 i r h ih =>
    rw [ih]
    rw [← ByteArray.size_data] at h
    have hi : i < bs.data.toList.length := by simpa using h
    have hget : bs.get! i = bs.data.toList[i] := by
      rcases bs with ⟨a⟩
      simp [ByteArray.get!, getElem!_pos, h]
    rw [hget, List.reverse_cons, List.append_assoc, List.singleton_append,
      ← List.drop_eq_getElem_cons]
  | case2 i r h =>
    rw [← ByteArray.size_data] at h
    rw [List.drop_eq_nil_of_le (by simpa using h), List.append_nil]

theorem byteArray_toList (bs : ByteArray) : bs.toList = bs.data.toList := by
  simp [ByteArray.toList, byteArray_toList_loop]

/-- The UTF-8 bytes of a string are the encodings of its characters in turn. -/
theorem toUTF8_toList (s : String) :
    s.toUTF8.toList = s.toList.flatMap String.utf8EncodeChar := by
  conv_lhs => rw [← String.ofList_toList (s := s)]
  rw [String.toUTF8_eq_toByteArray, String.toByteArray_ofList, byteArray_toList]
  simp [List.utf8Encode]

/-- Only `U+0000` has a zero byte in its UTF-8 encoding: the other bytes of a multi-byte
encoding have their top bit set. -/
theorem toNat_eq_zero_of_zero_mem {c : Char} (h : (0 : UInt8) ∈ String.utf8EncodeChar c) :
    c.toNat = 0 := by
  unfold String.utf8EncodeChar at h
  simp only [← Char.toNat.eq_1] at h
  split_ifs at h <;> simp [← UInt8.toNat_inj] at h <;> omega

theorem zero_not_mem_toUTF8 {s : String} (h : s.toList.all (fun c => !Json.isControl c) = true) :
    (0 : UInt8) ∉ s.toUTF8.toList := by
  rw [toUTF8_toList, List.mem_flatMap]
  rintro ⟨c, hc, hzero⟩
  have hctl := List.all_eq_true.mp h c hc
  simp [Json.isControl, toNat_eq_zero_of_zero_mem hzero] at hctl

/-- Two byte strings that end in a zero byte followed by bytes with no zero split there alike. -/
theorem append_zero_inj {l₁ l₂ t₁ t₂ : List UInt8} (h₁ : (0 : UInt8) ∉ t₁)
    (h₂ : (0 : UInt8) ∉ t₂) (h : l₁ ++ 0 :: t₁ = l₂ ++ 0 :: t₂) : l₁ = l₂ ∧ t₁ = t₂ := by
  -- read backwards, the tails are the maximal runs of nonzero bytes
  have hrev : t₁.reverse ++ 0 :: l₁.reverse = t₂.reverse ++ 0 :: l₂.reverse := by
    simpa using congrArg List.reverse h
  have hrun : ∀ {t : List UInt8}, (0 : UInt8) ∉ t → t.reverse.all (· != 0) = true := by
    intro t ht
    simp only [List.all_eq_true, List.mem_reverse, bne_iff_ne, ne_eq]
    exact fun b hb hb0 => ht (hb0 ▸ hb)
  obtain ⟨ht, hl⟩ := append_inj_of_stop (hrun h₁) (hrun h₂) (by simp) (by simp) hrev
  exact ⟨List.reverse_injective (List.cons_injective hl), List.reverse_injective ht⟩

namespace Query

/-- The compact text of arguments has no zero byte. -/
theorem zero_not_mem_compact (args : Json) : (0 : UInt8) ∉ args.compact.toUTF8.toList :=
  zero_not_mem_toUTF8 (Json.compact_noControl args)

theorem keyBytes_eq_iff (n₁ n₂ : String) (a₁ a₂ : Json) :
    keyBytes n₁ a₁ = keyBytes n₂ a₂ ↔ n₁ = n₂ ∧ a₁.compact = a₂.compact := by
  constructor
  · intro h
    simp only [keyBytes, List.append_assoc, List.singleton_append] at h
    obtain ⟨hname, hargs⟩ := append_zero_inj (zero_not_mem_compact a₁) (zero_not_mem_compact a₂) h
    -- UTF-8 bytes determine the string
    have hbytes : ∀ {s t : String}, s.toUTF8.toList = t.toUTF8.toList → s = t := by
      intro s t hst
      rw [toUTF8_toList, toUTF8_toList] at hst
      have hst' : s.toList.utf8Encode = t.toList.utf8Encode := by
        simp only [List.utf8Encode, hst]
      rw [← String.toByteArray_ofList, ← String.toByteArray_ofList, String.toByteArray_inj,
        String.ofList_toList, String.ofList_toList] at hst'
      exact hst'
    exact ⟨hbytes hname, hbytes hargs⟩
  · rintro ⟨rfl, hargs⟩
    simp [keyBytes, hargs]

/-- Two subscription keys coincide exactly when the names are equal and the arguments have the
same compact text, key order included, provided the hash does not collide on the two byte
strings; the bytes themselves coincide exactly then, with no proviso. -/
theorem subscriptionKey_eq_iff (n₁ n₂ : String) (a₁ a₂ : Json) :
    (keyBytes n₁ a₁ = keyBytes n₂ a₂ ↔ n₁ = n₂ ∧ a₁.compact = a₂.compact) ∧
    ((Blake3.hashHex (keyBytes n₁ a₁) = Blake3.hashHex (keyBytes n₂ a₂) →
        keyBytes n₁ a₁ = keyBytes n₂ a₂) →
      (subscriptionKey n₁ a₁ = subscriptionKey n₂ a₂ ↔ n₁ = n₂ ∧ a₁.compact = a₂.compact)) := by
  refine ⟨keyBytes_eq_iff n₁ n₂ a₁ a₂, fun hfree => ?_⟩
  constructor
  · intro hkey
    exact (keyBytes_eq_iff n₁ n₂ a₁ a₂).mp (hfree hkey)
  · intro hsame
    simp only [subscriptionKey, (keyBytes_eq_iff n₁ n₂ a₁ a₂).mpr hsame]

end Query

end DocQuery
