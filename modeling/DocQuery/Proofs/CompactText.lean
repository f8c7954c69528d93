import Mathlib
import DocQuery.Proofs.NumberText
import DocQuery.Json.Parse

/-!
# Compact JSON text

The compact text of a value holds no control character (`Json.compact_noControl`), and it
determines the value when its numbers are binary64 values (`Json.compact_injective`): each
escape reads back as its character, the first character tells the kind of value, and a value's
text followed by a comma, a closing bracket or nothing splits off one way only
(`Json.compact_append_inj`).
-/

namespace DocQuery

namespace Json

/-- A control character, `U+0000` to `U+001F`. -/
def isControl (c : Char) : Bool := c.toNat < 32

theorem hexDigit_noControl : ∀ n, n < 16 → isControl (hexDigit n) = false := by
  decide

theorem escapeChar_noControl (c : Char) : (escapeChar c).all (fun d => !isControl d) = true := by
  unfold escapeChar
  split_ifs with h₁ h₂ h₃ h₄ h₅ h₆ h₇ h₈
  any_goals decide
  · have hhigh := hexDigit_noControl _ (by omega : c.toNat / 16 < 16)
    have hlow := hexDigit_noControl _ (Nat.mod_lt c.toNat (by omega : 16 > 0))
    simp only [List.all_cons, List.all_nil, hhigh, hlow, Bool.not_false, Bool.and_true]
    decide
  · simp [isControl, h₈]

theorem quote_toList (s : String) :
    (quote s).toList = '"' :: (s.toList.flatMap escapeChar ++ ['"']) := by
  simp [quote]

theorem quote_noControl (s : String) : (quote s).toList.all (fun c => !isControl c) = true := by
  have hchars : s.toList.all (fun c => (escapeChar c).all fun d => !isControl d) = true :=
    List.all_eq_true.mpr fun c _ => escapeChar_noControl c
  rw [quote_toList]
  simp only [List.all_cons, List.all_append, List.all_flatMap, hchars, List.all_nil, Bool.and_true]
  decide

theorem numeral_noControl {l : List Char} (h : l.all Numeral.isNumeralChar = true) :
    l.all (fun c => !isControl c) = true :=
  List.all_eq_true.mpr fun c hc => by
    have := Numeral.printable_of_isNumeralChar (List.all_eq_true.mp h c hc)
    simp [isControl]
    omega

mutual
/-- Compact JSON text holds no control character. -/
theorem compact_noControl : ∀ v : Json, (compact v).toList.all (fun c => !isControl c) = true
  | .null => by decide
  | .bool b => by cases b <;> decide
  | .num n => by simpa [compact] using numeral_noControl (Number.toText_numeral n)
  | .str s => by simpa [compact] using quote_noControl s
  | .arr xs => by
    have hitems := compactItems_noControl xs
    simp only [compact, String.toList_append, List.all_append, hitems]
    decide
  | .obj es => by
    have hentries := compactEntries_noControl es
    simp only [compact, String.toList_append, List.all_append, hentries]
    decide

theorem compactItems_noControl :
    ∀ xs : List Json, (compactItems xs).toList.all (fun c => !isControl c) = true
  | [] => by decide
  | [x] => by simpa [compactItems] using compact_noControl x
  | x :: y :: xs => by
    have hx := compact_noControl x
    have hrest := compactItems_noControl (y :: xs)
    simp only [compactItems, String.toList_append, List.all_append, hx, hrest]
    decide

theorem compactEntries_noControl :
    ∀ es : List (String × Json), (compactEntries es).toList.all (fun c => !isControl c) = true
  | [] => by decide
  | [(k, v)] => by
    have hk := quote_noControl k
    have hv := compact_noControl v
    simp only [compactEntries, String.toList_append, List.all_append, hk, hv]
    decide
  | (k, v) :: e :: es => by
    have hk := quote_noControl k
    have hv := compact_noControl v
    have hrest := compactEntries_noControl (e :: es)
    simp only [compactEntries, String.toList_append, List.all_append, hk, hv, hrest]
    decide
end

/-! ## Reading escapes back -/

theorem hexValue_hexDigit : ∀ n, n < 16 → hexValue (hexDigit n) = some n := by
  decide

/-- The character that one escape of a JSON string stands for, and the text after it. -/
def unescapeOne : List Char → Option (Char × List Char)
  | '\\' :: 'u' :: a :: b :: c :: d :: rest =>
    (hexUnit a b c d).map fun n => (Char.ofNat n, rest)
  | '\\' :: 'n' :: rest => some ('\n', rest)
  | '\\' :: 'r' :: rest => some ('\r', rest)
  | '\\' :: 't' :: rest => some ('\t', rest)
  | '\\' :: 'b' :: rest => some (Char.ofNat 8, rest)
  | '\\' :: 'f' :: rest => some (Char.ofNat 12, rest)
  | '\\' :: e :: rest => some (e, rest)
  | c :: rest => some (c, rest)
  | [] => none

theorem eq_ofNat_of_toNat_eq {c : Char} {n : Nat} (h : c.toNat = n) : c = Char.ofNat n := by
  rw [← h, Char.ofNat_toNat]

theorem unescapeOne_escapeChar (c : Char) (rest : List Char) :
    unescapeOne (escapeChar c ++ rest) = some (c, rest) := by
  unfold escapeChar
  split_ifs with h₁ h₂ h₃ h₄ h₅ h₆ h₇ h₈
  · subst h₁; rfl
  · subst h₂; rfl
  · subst h₃; rfl
  · subst h₄; rfl
  · subst h₅; rfl
  · rw [eq_ofNat_of_toNat_eq h₆]; rfl
  · rw [eq_ofNat_of_toNat_eq h₇]; rfl
  · -- `\u00` and two hex digits: the high and low halves of the code
    have hhigh := hexValue_hexDigit _ (by omega : c.toNat / 16 < 16)
    have hlow := hexValue_hexDigit _ (Nat.mod_lt c.toNat (by omega : 16 > 0))
    have hzero : hexValue '0' = some 0 := by decide
    simp only [List.cons_append, List.nil_append, unescapeOne, hexUnit, hzero, hhigh, hlow,
      Option.map_some, zero_mul, zero_add, Nat.div_add_mod' c.toNat 16, Char.ofNat_toNat]
  · simp [unescapeOne, h₂]

/-- An escape is read off the front of a text in one way only. -/
theorem escapeChar_append_inj {c d : Char} {x y : List Char}
    (h : escapeChar c ++ x = escapeChar d ++ y) : c = d ∧ x = y := by
  have hread := congrArg unescapeOne h
  rw [unescapeOne_escapeChar, unescapeOne_escapeChar] at hread
  simpa using hread

/-- No escape starts with a bare quote. -/
theorem escapeChar_head (c : Char) : ∃ e rest, escapeChar c = e :: rest ∧ e ≠ '"' := by
  unfold escapeChar
  split_ifs with h₁
  -- an escape starts with a backslash; any other character stands for itself
  any_goals exact ⟨'\\', _, rfl, by decide⟩
  exact ⟨c, [], rfl, h₁⟩

/-- Escaped text followed by a quote splits at that quote. -/
theorem escaped_append_inj : ∀ {s t r r' : List Char},
    s.flatMap escapeChar ++ '"' :: r = t.flatMap escapeChar ++ '"' :: r' → s = t ∧ r = r'
  | [], [], _, _, h => ⟨rfl, (List.cons.inj h).2⟩
  | [], d :: _, _, _, h => by
    obtain ⟨e, rest, he, hne⟩ := escapeChar_head d
    simp only [List.flatMap_cons, he, List.flatMap_nil, List.nil_append, List.cons_append] at h
    exact absurd (List.cons.inj h).1.symm hne
  | c :: _, [], _, _, h => by
    obtain ⟨e, rest, he, hne⟩ := escapeChar_head c
    simp only [List.flatMap_cons, he, List.flatMap_nil, List.nil_append, List.cons_append] at h
    exact absurd (List.cons.inj h).1 hne
  | c :: s, d :: t, r, r', h => by
    simp only [List.flatMap_cons, List.append_assoc] at h
    obtain ⟨rfl, hrest⟩ := escapeChar_append_inj h
    obtain ⟨rfl, rfl⟩ := escaped_append_inj hrest
    exact ⟨rfl, rfl⟩

/-- A quoted string splits off the front of a text in one way only. -/
theorem quote_append_inj {s t : String} {r r' : List Char}
    (h : (quote s).toList ++ r = (quote t).toList ++ r') : s = t ∧ r = r' := by
  simp only [quote_toList, List.cons_append, List.append_assoc] at h
  obtain ⟨hs, hr⟩ := escaped_append_inj (List.cons.inj h).2
  exact ⟨String.toList_inj.mp hs, hr⟩

/-! ## The kind of a value from its first character -/

/-- The kinds of values, in the order of the constructors. -/
def kind : Json → Nat
  | .null => 0
  | .bool _ => 1
  | .num _ => 2
  | .str _ => 3
  | .arr _ => 4
  | .obj _ => 5

/-- The kind of value whose compact text starts with `c`; a numeral character starts a number,
and `6` stands for a character that starts no value. -/
def kindOfLead (c : Char) : Nat :=
  if Numeral.isNumeralChar c then 2
  else if c = 'n' then 0
  else if c = 't' ∨ c = 'f' then 1
  else if c = '"' then 3
  else if c = '[' then 4
  else if c = '\x7b' then 5
  else 6

theorem kind_lt_six (v : Json) : v.kind < 6 := by
  cases v <;> simp [kind]

theorem exists_num_of_kind {v : Json} (h : v.kind = 2) : ∃ n, v = .num n := by
  cases v <;> simp_all [kind]

theorem Number.toText_ne_nil (n : Number) : n.toText.toList ≠ [] := by
  cases n with
  | int n =>
    intro h
    rw [Number.toText, Numeral.intText] at h
    exact Nat.toDigits_ne_nil (List.append_eq_nil_iff.mp h).2
  | float x => exact FloatStyle.render_ne_nil _ x

/-- A compact text starts with a character that tells the kind of the value. -/
theorem compact_lead (v : Json) :
    ∃ c rest, (compact v).toList = c :: rest ∧ kindOfLead c = v.kind := by
  cases v with
  | null => exact ⟨'n', _, rfl, by decide⟩
  | bool b => cases b <;> exact ⟨_, _, rfl, by decide⟩
  | num n =>
    obtain ⟨c, rest, hcs⟩ := List.exists_cons_of_ne_nil (Number.toText_ne_nil n)
    have hnumeral := List.all_eq_true.mp (Number.toText_numeral n) c (by simp [hcs])
    exact ⟨c, rest, hcs, by simp [kindOfLead, hnumeral, kind]⟩
  | str s => exact ⟨'"', _, quote_toList s, rfl⟩
  | arr xs => exact ⟨'[', (compactItems xs).toList ++ [']'], by simp [compact], rfl⟩
  | obj es => exact ⟨'\x7b', (compactEntries es).toList ++ ['\x7d'], by simp [compact], rfl⟩

theorem kind_eq_of_compact_append {a b : Json} {r r' : List Char}
    (h : (compact a).toList ++ r = (compact b).toList ++ r') : a.kind = b.kind := by
  obtain ⟨c, rest, hc, hkc⟩ := compact_lead a
  obtain ⟨d, rest', hd, hkd⟩ := compact_lead b
  rw [hc, hd, List.cons_append, List.cons_append] at h
  rw [← hkc, ← hkd, (List.cons.inj h).1]

/-- A compact text never starts with a character that starts no value. -/
theorem compact_append_ne {d : Char} (hd : kindOfLead d = 6) (v : Json) (r r' : List Char) :
    (compact v).toList ++ r ≠ d :: r' := by
  obtain ⟨c, rest, hc, hkc⟩ := compact_lead v
  rw [hc, List.cons_append]
  intro h
  have := kind_lt_six v
  rw [← hkc, (List.cons.inj h).1, hd] at this
  exact lt_irrefl _ this

/-! ## Splitting values off a text -/

mutual
/-- Every number in the value, at any depth, has a magnitude that binary64 holds. -/
def NumbersRepresentable : Json → Prop
  | .num n => n.Representable
  | .arr items => itemsNumbersRepresentable items
  | .obj entries => entriesNumbersRepresentable entries
  | _ => True

/-- Every item of a list has numbers that binary64 holds. -/
def itemsNumbersRepresentable : List Json → Prop
  | [] => True
  | v :: rest => NumbersRepresentable v ∧ itemsNumbersRepresentable rest

/-- Every value of a list of entries has numbers that binary64 holds. -/
def entriesNumbersRepresentable : List (String × Json) → Prop
  | [] => True
  | (_, v) :: rest => NumbersRepresentable v ∧ entriesNumbersRepresentable rest
end

/-- Text that may follow a value inside compact text: nothing, a comma or a closing bracket. -/
def Follows (r : List Char) : Prop := ∀ c ∈ r.head?, c = ',' ∨ c = ']' ∨ c = '\x7d'

theorem follows_nil : Follows [] := by
  simp [Follows]

theorem follows_cons {c : Char} (hc : c = ',' ∨ c = ']' ∨ c = '\x7d') (r : List Char) :
    Follows (c :: r) := by
  simpa [Follows] using hc

section Separators

variable {α : Type} {d : Char}

/-- After an item or an entry comes the closing bracket `d`, or a comma and the others. -/
theorem follows_close_or_comma (hd : d = ']' ∨ d = '\x7d') (zs : List α) (r t : List Char) :
    Follows (if zs = [] then d :: r else ',' :: t) := by
  split_ifs
  · exact follows_cons (Or.inr hd) r
  · exact follows_cons (Or.inl rfl) t

/-- After a first item or entry, two equal texts both close or both go on. -/
theorem close_or_comma_inj (hd : d ≠ ',') {zs zs' : List α} {r r' t t' : List Char}
    (h : (if zs = [] then d :: r else ',' :: t) = (if zs' = [] then d :: r' else ',' :: t')) :
    (zs = [] ∧ zs' = [] ∧ r = r') ∨ (zs ≠ [] ∧ zs' ≠ [] ∧ t = t') := by
  by_cases hz : zs = [] <;> by_cases hz' : zs' = [] <;> simp only [hz, hz', if_true, if_false] at h
  · exact .inl ⟨hz, hz', (List.cons.inj h).2⟩
  · exact absurd (List.cons.inj h).1 hd
  · exact absurd (List.cons.inj h).1.symm hd
  · exact .inr ⟨hz, hz', (List.cons.inj h).2⟩

end Separators

/-- Nothing that may follow a value is a numeral character, so a numeral splits off whole. -/
theorem numeral_append_inj {a b : Number} {r r' : List Char} (hr : Follows r) (hr' : Follows r')
    (h : a.toText.toList ++ r = b.toText.toList ++ r') : a.toText = b.toText ∧ r = r' := by
  have hstop : ∀ {r : List Char}, Follows r → ∀ c ∈ r.head?, Numeral.isNumeralChar c = false := by
    intro r hr c hc
    rcases hr c hc with rfl | rfl | rfl <;> decide
  obtain ⟨htext, hrest⟩ := append_inj_of_stop (Number.toText_numeral a) (Number.toText_numeral b)
    (hstop hr) (hstop hr') h
  exact ⟨String.toList_inj.mp htext, hrest⟩

/-- The text of items, closed by a bracket: the first item, then a comma and the others or the
bracket. -/
theorem compactItems_cons (x : Json) (xs : List Json) (r : List Char) :
    (compactItems (x :: xs)).toList ++ ']' :: r = (compact x).toList ++
      (if xs = [] then ']' :: r else ',' :: ((compactItems xs).toList ++ ']' :: r)) := by
  cases xs with
  | nil => simp [compactItems]
  | cons y ys => simp [compactItems]

/-- The text of entries, closed by a brace: the first key, a colon and its value, then a comma
and the others or the brace. -/
theorem compactEntries_cons (k : String) (v : Json) (es : List (String × Json)) (r : List Char) :
    (compactEntries ((k, v) :: es)).toList ++ '\x7d' :: r = (quote k).toList ++ ':' ::
      ((compact v).toList ++
        (if es = [] then '\x7d' :: r else ',' :: ((compactEntries es).toList ++ '\x7d' :: r))) := by
  cases es with
  | nil => simp [compactEntries]
  | cons e es => obtain ⟨k', v'⟩ := e; simp [compactEntries]

mutual
/-- A value's compact text, followed by what may follow a value, splits off in one way only. -/
theorem compact_append_inj : ∀ (a b : Json) {r r' : List Char}, a.NumbersRepresentable →
    b.NumbersRepresentable → Follows r → Follows r' →
    (compact a).toList ++ r = (compact b).toList ++ r' → a = b ∧ r = r'
  | .null, b => fun _ _ _ _ h => by
    have hkind := kind_eq_of_compact_append h
    obtain rfl : b = .null := by cases b <;> simp [kind] at hkind ⊢
    exact ⟨rfl, List.append_cancel_left h⟩
  | .bool x, b => fun _ _ _ _ h => by
    have hkind := kind_eq_of_compact_append h
    obtain ⟨y, rfl⟩ : ∃ y, b = .bool y := by
      cases b <;> simp [kind] at hkind ⊢
    cases x <;> cases y <;> simp [compact] at h ⊢ <;> exact h
  | .num m, b => fun hm hb hr hr' h => by
    have hkind := kind_eq_of_compact_append h
    obtain ⟨n, rfl⟩ := exists_num_of_kind hkind.symm
    obtain ⟨htext, hrest⟩ := numeral_append_inj hr hr' h
    exact ⟨by rw [Number.toText_injective hm hb htext], hrest⟩
  | .str s, b => fun _ _ _ _ h => by
    have hkind := kind_eq_of_compact_append h
    obtain ⟨t, rfl⟩ : ∃ t, b = .str t := by
      cases b <;> simp [kind] at hkind ⊢
    obtain ⟨rfl, hrest⟩ := quote_append_inj h
    exact ⟨rfl, hrest⟩
  | .arr xs, b => fun hxs hb _ _ h => by
    have hkind := kind_eq_of_compact_append h
    obtain ⟨ys, rfl⟩ : ∃ ys, b = .arr ys := by
      cases b <;> simp [kind] at hkind ⊢
    simp only [compact, String.toList_append, List.append_assoc] at h
    obtain ⟨rfl, hrest⟩ := compactItems_append_inj xs ys hxs hb (List.cons.inj h).2
    exact ⟨rfl, hrest⟩
  | .obj es, b => fun hes hb _ _ h => by
    have hkind := kind_eq_of_compact_append h
    obtain ⟨es', rfl⟩ : ∃ es', b = .obj es' := by
      cases b <;> simp [kind] at hkind ⊢
    simp only [compact, String.toList_append, List.append_assoc] at h
    obtain ⟨rfl, hrest⟩ := compactEntries_append_inj es es' hes hb (List.cons.inj h).2
    exact ⟨rfl, hrest⟩

theorem compactItems_append_inj : ∀ (xs ys : List Json) {r r' : List Char},
    itemsNumbersRepresentable xs → itemsNumbersRepresentable ys →
    (compactItems xs).toList ++ ']' :: r = (compactItems ys).toList ++ ']' :: r' → xs = ys ∧ r = r'
  | [], [], _, _, _, _, h => ⟨rfl, (List.cons.inj h).2⟩
  | [], y :: ys, _, _, _, _, h => by
    rw [compactItems_cons] at h
    exact absurd h.symm (compact_append_ne (by decide) y _ _)
  | x :: xs, [], _, _, _, _, h => by
    rw [compactItems_cons] at h
    exact absurd h (compact_append_ne (by decide) x _ _)
  | x :: xs, y :: ys, r, r', hxs, hys, h => by
    rw [compactItems_cons, compactItems_cons] at h
    obtain ⟨rfl, htail⟩ := compact_append_inj x y hxs.1 hys.1
      (follows_close_or_comma (.inl rfl) xs _ _) (follows_close_or_comma (.inl rfl) ys _ _) h
    rcases close_or_comma_inj (by decide) htail with ⟨rfl, rfl, rfl⟩ | ⟨-, -, hrest⟩
    · exact ⟨rfl, rfl⟩
    · obtain ⟨rfl, rfl⟩ := compactItems_append_inj xs ys hxs.2 hys.2 hrest
      exact ⟨rfl, rfl⟩

theorem compactEntries_append_inj : ∀ (es es' : List (String × Json)) {r r' : List Char},
    entriesNumbersRepresentable es → entriesNumbersRepresentable es' →
    (compactEntries es).toList ++ '\x7d' :: r = (compactEntries es').toList ++ '\x7d' :: r' →
      es = es' ∧ r = r'
  | [], [], _, _, _, _, h => ⟨rfl, (List.cons.inj h).2⟩
  | [], (k, v) :: es, _, _, _, _, h => by
    rw [compactEntries_cons, quote_toList] at h
    exact absurd (List.cons.inj h).1 (by decide)
  | (k, v) :: es, [], _, _, _, _, h => by
    rw [compactEntries_cons, quote_toList] at h
    exact absurd (List.cons.inj h).1 (by decide)
  | (k, v) :: es, (k', v') :: es', r, r', hes, hes', h => by
    rw [compactEntries_cons, compactEntries_cons] at h
    obtain ⟨rfl, hvalue⟩ := quote_append_inj h
    obtain ⟨rfl, htail⟩ := compact_append_inj v v' hes.1 hes'.1
      (follows_close_or_comma (.inr rfl) es _ _) (follows_close_or_comma (.inr rfl) es' _ _)
      (List.cons.inj hvalue).2
    rcases close_or_comma_inj (by decide) htail with ⟨rfl, rfl, rfl⟩ | ⟨-, -, hrest⟩
    · exact ⟨rfl, rfl⟩
    · obtain ⟨rfl, rfl⟩ := compactEntries_append_inj es es' hes.2 hes'.2 hrest
      exact ⟨rfl, rfl⟩
end

/-- The compact text of a value whose numbers binary64 holds determines the value. -/
theorem compact_injective {a b : Json} (ha : a.NumbersRepresentable) (hb : b.NumbersRepresentable)
    (h : a.compact = b.compact) : a = b :=
  (compact_append_inj a b ha hb follows_nil follows_nil (by rw [h])).1

end Json

end DocQuery
