import Mathlib
import DocQuery.Proofs.ShortestDigits
import DocQuery.Json.Print

/-!
# Reading numerals back

Every text of a number is a numeral: a sign, digits, a fraction and an exponent, with no control
character. A numeral denotes a sign and a magnitude (`Numeral.value`): an integer's text reads
back as the integer, and a binary64 value's text in a plain style as the value of its shortest
decimal (`FloatStyle.value_render`), which rounds back to the value alone
(`Binary64.ReadsAs.unique`).
-/

namespace DocQuery

/-- A maximal run of `p` is the longest prefix whose items satisfy `p`. -/
theorem takeWhile_append_of_stop {α : Type} {p : α → Bool} {l r : List α} (hl : l.all p = true)
    (hr : ∀ a ∈ r.head?, p a = false) : (l ++ r).takeWhile p = l := by
  rw [List.takeWhile_append_of_pos (List.all_eq_true.mp hl)]
  cases r with
  | nil => simp
  | cons a r => simp [hr a rfl]

theorem dropWhile_append_of_stop {α : Type} {p : α → Bool} {l r : List α} (hl : l.all p = true)
    (hr : ∀ a ∈ r.head?, p a = false) : (l ++ r).dropWhile p = r := by
  rw [List.dropWhile_append_of_pos (List.all_eq_true.mp hl)]
  cases r with
  | nil => rfl
  | cons a r => simp [hr a rfl]

/-- Two texts that each begin with a maximal run of `p` begin with the same run. -/
theorem append_inj_of_stop {α : Type} {p : α → Bool} {l₁ l₂ r₁ r₂ : List α}
    (h₁ : l₁.all p = true) (h₂ : l₂.all p = true) (hr₁ : ∀ a ∈ r₁.head?, p a = false)
    (hr₂ : ∀ a ∈ r₂.head?, p a = false) (h : l₁ ++ r₁ = l₂ ++ r₂) : l₁ = l₂ ∧ r₁ = r₂ := by
  have hl : l₁ = l₂ := by
    rw [← takeWhile_append_of_stop h₁ hr₁, h, takeWhile_append_of_stop h₂ hr₂]
  subst hl
  exact ⟨rfl, List.append_cancel_left h⟩

namespace Numeral

/-- The characters numbers are written with: digits, the two signs, the point and `e`. -/
def isNumeralChar (c : Char) : Bool :=
  c.isDigit || c == '-' || c == '+' || c == '.' || c == 'e'

theorem isNumeralChar_of_isDigit {c : Char} (h : c.isDigit = true) : isNumeralChar c = true := by
  simp [isNumeralChar, h]

/-- A numeral character is printable ASCII. -/
theorem printable_of_isNumeralChar {c : Char} (h : isNumeralChar c = true) : 32 ≤ c.toNat := by
  simp only [isNumeralChar, Bool.or_eq_true, beq_iff_eq] at h
  rcases h with (((h | rfl) | rfl) | rfl) | rfl
  · simp only [Char.isDigit, Bool.and_eq_true, decide_eq_true_eq] at h
    have h48 : (48 : UInt32) ≤ c.val := h.1
    rw [UInt32.le_iff_toNat_le] at h48
    exact le_trans (by decide) h48
  all_goals decide

theorem toDigits_numeral (n : Nat) : (Nat.toDigits 10 n).all isNumeralChar = true :=
  List.all_eq_true.mpr fun _ hc =>
    isNumeralChar_of_isDigit (Nat.isDigit_of_mem_toDigits (by omega) (by omega) hc)

/-- The text of a sign. -/
def signText (neg : Bool) : List Char := if neg then ['-'] else []

/-- An integer is written as its sign and the digits of its magnitude. -/
theorem intText (n : Int) :
    (toString n).toList = signText (decide (n < 0)) ++ Nat.toDigits 10 n.natAbs := by
  rw [Int.toString_eq_repr]
  cases n <;> simp [Int.repr, signText]

theorem intText_numeral (n : Int) : (toString n).toList.all isNumeralChar = true := by
  rw [intText, List.all_append, toDigits_numeral, Bool.and_true]
  unfold signText
  split <;> rfl

/-! ## Reading a numeral -/

/-- A leading minus sign, and the characters after it. -/
def sign : List Char → Bool × List Char
  | '-' :: rest => (true, rest)
  | rest => (false, rest)

/-- The digits after a point, and the characters after them; none without a point. -/
def fraction : List Char → List Char × List Char
  | '.' :: rest => (rest.takeWhile Char.isDigit, rest.dropWhile Char.isDigit)
  | rest => ([], rest)

/-- The exponent after `e`, from its digits and its minus sign; zero without an `e`. -/
def exponent : List Char → Int
  | 'e' :: rest =>
    let magnitude : Int := Nat.ofDigitChars 10 (rest.filter Char.isDigit) 0
    if rest.head? = some '-' then -magnitude else magnitude
  | _ => 0

/-- The sign and the magnitude a numeral denotes: its whole and fraction digits, scaled by ten to
its exponent less the number of fraction digits. -/
def value (cs : List Char) : Bool × ℚ :=
  let (neg, rest) := sign cs
  let whole := rest.takeWhile Char.isDigit
  let (frac, rest) := fraction (rest.dropWhile Char.isDigit)
  (neg, (Nat.ofDigitChars 10 (whole ++ frac) 0 : ℚ) * 10 ^ (exponent rest - frac.length))

theorem sign_signText (neg : Bool) {rest : List Char} (hrest : ∀ c ∈ rest.head?, c ≠ '-') :
    sign (signText neg ++ rest) = (neg, rest) := by
  cases neg with
  | true => rfl
  | false =>
    cases rest with
    | nil => rfl
    | cons c rest =>
      have hc : c ≠ '-' := hrest c rfl
      simp only [signText, Bool.false_eq_true, if_false, List.nil_append]
      unfold sign
      split
      · rename_i h
        exact absurd (List.cons.inj h).1 hc
      · rfl

/-- Digits followed by anything but a minus sign do not start with one. -/
theorem head_ne_minus {whole rest : List Char} (hwhole : whole.all Char.isDigit)
    (hrest : ∀ c ∈ rest.head?, c ≠ '-') : ∀ c ∈ (whole ++ rest).head?, c ≠ '-' := by
  cases whole with
  | nil => simpa using hrest
  | cons d ds =>
    intro c hc
    simp only [List.cons_append, List.head?_cons, Option.mem_def, Option.some.injEq] at hc
    subst hc
    intro hd
    have hdigit := List.all_eq_true.mp hwhole d (by simp)
    rw [hd] at hdigit
    exact absurd hdigit (by decide)

/-- A numeral with a point: the value of its digits, less one power of ten per fraction digit. -/
theorem value_point (neg : Bool) (whole frac tail : List Char) (hwhole : whole.all Char.isDigit)
    (hfrac : frac.all Char.isDigit) (htail : ∀ c ∈ tail.head?, c = 'e') :
    value (signText neg ++ (whole ++ '.' :: (frac ++ tail))) =
      (neg, (Nat.ofDigitChars 10 (whole ++ frac) 0 : ℚ) * 10 ^ (exponent tail - frac.length)) := by
  have hpoint : ∀ c ∈ ('.' :: (frac ++ tail)).head?, c.isDigit = false := by simp
  have htail' : ∀ c ∈ tail.head?, c.isDigit = false := fun c hc => by rw [htail c hc]; decide
  simp only [value]
  rw [sign_signText neg (head_ne_minus hwhole (by simp))]
  dsimp only
  rw [takeWhile_append_of_stop hwhole hpoint, dropWhile_append_of_stop hwhole hpoint]
  simp only [fraction, takeWhile_append_of_stop hfrac htail', dropWhile_append_of_stop hfrac htail']

/-- A numeral without a point: the value of its digits. -/
theorem value_noPoint (neg : Bool) (whole tail : List Char) (hwhole : whole.all Char.isDigit)
    (htail : ∀ c ∈ tail.head?, c = 'e') :
    value (signText neg ++ (whole ++ tail)) =
      (neg, (Nat.ofDigitChars 10 whole 0 : ℚ) * 10 ^ exponent tail) := by
  have htail' : ∀ c ∈ tail.head?, c.isDigit = false := fun c hc => by rw [htail c hc]; decide
  have htail'' : ∀ c ∈ tail.head?, c ≠ '-' := fun c hc => by rw [htail c hc]; decide
  simp only [value]
  rw [sign_signText neg (head_ne_minus hwhole htail'')]
  dsimp only
  rw [takeWhile_append_of_stop hwhole htail', dropWhile_append_of_stop hwhole htail']
  -- without a point the fraction is empty and the whole text after the digits is the exponent
  have hfrac : fraction tail = ([], tail) := by
    cases tail with
    | nil => rfl
    | cons c rest =>
      rw [show c = 'e' from htail c rfl]
      rfl
  simp [hfrac]

theorem toDigits_isDigit (n : Nat) : (Nat.toDigits 10 n).all Char.isDigit = true :=
  List.all_eq_true.mpr fun _ hc => Nat.isDigit_of_mem_toDigits (by omega) (by omega) hc

/-- The text of an integer reads back as its sign and magnitude. -/
theorem value_intText (n : Int) : value (toString n).toList = (decide (n < 0), (n.natAbs : ℚ)) := by
  rw [intText, ← List.append_nil (Nat.toDigits 10 n.natAbs),
    value_noPoint _ _ _ (toDigits_isDigit _) (by simp)]
  simp [exponent]

/-- An exponent written after `e`, with `plus` before a nonnegative one, reads back. -/
theorem exponent_text {plus : List Char} (hplus : plus = [] ∨ plus = ['+']) (e : Int) :
    exponent ('e' :: ((if 0 ≤ e then plus else []) ++ (toString e).toList)) = e := by
  have hdigits := List.filter_eq_self.mpr (List.all_eq_true.mp (toDigits_isDigit e.natAbs))
  rw [intText]
  by_cases he : 0 ≤ e
  · have hsign : decide (e < 0) = false := by simp; omega
    -- the digits do not start with a minus sign, and `+` is dropped with the other non-digits
    have hhead : ∀ c ∈ (plus ++ Nat.toDigits 10 e.natAbs).head?, c ≠ '-' := by
      rcases hplus with rfl | rfl
      · have hnil : ∀ c ∈ ([] : List Char).head?, c ≠ '-' := by simp
        simpa using head_ne_minus (toDigits_isDigit e.natAbs) hnil
      · simp
    have hfilter : (plus ++ Nat.toDigits 10 e.natAbs).filter Char.isDigit =
        Nat.toDigits 10 e.natAbs := by
      rcases hplus with rfl | rfl
      · exact hdigits
      · simp [hdigits]
    rw [if_pos he, hsign]
    simp only [signText, Bool.false_eq_true, if_false, List.nil_append, exponent]
    have hnot : ¬ (plus ++ Nat.toDigits 10 e.natAbs).head? = some '-' := fun h => hhead '-' h rfl
    rw [if_neg hnot, hfilter, Nat.ofDigitChars_ten_toDigits]
    omega
  · have hsign : decide (e < 0) = true := by simp; omega
    rw [if_neg he, hsign]
    simp only [signText, if_true, List.nil_append, exponent, List.head?_cons, List.cons_append]
    rw [List.filter_cons_of_neg (by decide), hdigits, Nat.ofDigitChars_ten_toDigits]
    omega

/-! ## The shapes of a decimal's text

`D` below stands for the digits of `m`, of length `n`. -/

section Shapes

variable (neg : Bool) (m : Nat)

theorem replicate_zero_isDigit (k : Nat) : (List.replicate k '0').all Char.isDigit = true :=
  List.all_eq_true.mpr fun c hc => by rw [List.eq_of_mem_replicate hc]; decide

/-- `D` followed by `k` zeros, then nothing or `.0`, is `m * 10^k`. -/
theorem value_digits_zeros (k : Nat) {mark : List Char} (hmark : mark = [] ∨ mark = ['.', '0']) :
    value (signText neg ++ (Nat.toDigits 10 m ++ (List.replicate k '0' ++ mark))) =
      (neg, (m : ℚ) * 10 ^ (k : Int)) := by
  have hwhole : (Nat.toDigits 10 m ++ List.replicate k '0').all Char.isDigit = true := by
    simp only [List.all_append, toDigits_isDigit, replicate_zero_isDigit, Bool.and_self]
  have hread : Nat.ofDigitChars 10 (Nat.toDigits 10 m ++ List.replicate k '0') 0 = 10 ^ k * m := by
    rw [Nat.ofDigitChars_append, Nat.ofDigitChars_ten_toDigits, Nat.ofDigitChars_replicate_zero]
  rcases hmark with rfl | rfl
  · have h := value_noPoint neg _ [] hwhole (by simp)
    simp only [List.append_nil] at h ⊢
    rw [h, hread]
    simp [exponent, mul_comm]
  · -- the mark `.0` adds one fraction digit, a zero
    have h := value_point neg _ ['0'] [] hwhole (by decide) (by simp)
    simp only [List.append_nil, List.append_assoc] at h ⊢
    rw [h, ← List.append_assoc, Nat.ofDigitChars_append, hread]
    refine Prod.ext rfl ?_
    simp only [exponent, Nat.ofDigitChars_cons, List.length_singleton, Nat.ofDigitChars_nil]
    push_cast
    rw [zpow_neg_one, zpow_natCast]
    field_simp
    ring

theorem take_toDigits_isDigit (p : Nat) : ((Nat.toDigits 10 m).take p).all Char.isDigit = true :=
  List.all_eq_true.mpr fun c hc =>
    List.all_eq_true.mp (toDigits_isDigit m) c (List.mem_of_mem_take hc)

theorem drop_toDigits_isDigit (p : Nat) : ((Nat.toDigits 10 m).drop p).all Char.isDigit = true :=
  List.all_eq_true.mpr fun c hc =>
    List.all_eq_true.mp (toDigits_isDigit m) c (List.mem_of_mem_drop hc)

/-- `D` with a point after its first `p` digits is `m * 10^(p - n)`. -/
theorem value_take_drop {p : Nat} (hp : p ≤ (Nat.toDigits 10 m).length) :
    value (signText neg ++ ((Nat.toDigits 10 m).take p ++ '.' :: (Nat.toDigits 10 m).drop p)) =
      (neg, (m : ℚ) * 10 ^ ((p : Int) - (Nat.toDigits 10 m).length)) := by
  have h := value_point neg _ _ [] (take_toDigits_isDigit m p) (drop_toDigits_isDigit m p)
    (by simp)
  simp only [List.append_nil] at h
  rw [h, List.take_append_drop, Nat.ofDigitChars_ten_toDigits]
  refine Prod.ext rfl ?_
  simp only [exponent, List.length_drop]
  rw [show (0 : Int) - (((Nat.toDigits 10 m).length - p : Nat) : Int) =
    (p : Int) - (Nat.toDigits 10 m).length by omega]

/-- `0.` then `z` zeros and `D` is `m * 10^-(z + n)`. -/
theorem value_zero_point (z : Nat) :
    value (signText neg ++ ('0' :: '.' :: (List.replicate z '0' ++ Nat.toDigits 10 m))) =
      (neg, (m : ℚ) * 10 ^ (-((z + (Nat.toDigits 10 m).length : Nat) : Int))) := by
  have hfrac : (List.replicate z '0' ++ Nat.toDigits 10 m).all Char.isDigit = true := by
    simp only [List.all_append, replicate_zero_isDigit, toDigits_isDigit, Bool.and_self]
  have h := value_point neg ['0'] _ [] (by decide) hfrac (by simp)
  simp only [List.append_nil, List.singleton_append] at h
  rw [h]
  refine Prod.ext rfl ?_
  -- leading zeros add nothing
  have hread : Nat.ofDigitChars 10 ('0' :: (List.replicate z '0' ++ Nat.toDigits 10 m)) 0 = m := by
    rw [Nat.ofDigitChars_cons, Nat.ofDigitChars_append, Nat.ofDigitChars_replicate_zero]
    simp
  simp only [hread, exponent, List.length_append, List.length_replicate, zero_sub]

/-- A single digit `D` followed by an exponent is `m` times ten to the exponent. -/
theorem value_sci_single (tail : List Char) (htail : ∀ c ∈ tail.head?, c = 'e')
    (hone : (Nat.toDigits 10 m).drop 1 = []) :
    value (signText neg ++ ((Nat.toDigits 10 m).take 1 ++ tail)) =
      (neg, (m : ℚ) * 10 ^ exponent tail) := by
  rw [value_noPoint neg _ tail (take_toDigits_isDigit m 1) htail]
  have hall : (Nat.toDigits 10 m).take 1 = Nat.toDigits 10 m := by
    rw [List.take_of_length_le (List.drop_eq_nil_iff.mp hone)]
  rw [hall, Nat.ofDigitChars_ten_toDigits]

/-- `D` with a point after its first digit and then an exponent `e` is `m * 10^(e - (n - 1))`. -/
theorem value_sci_point (tail : List Char) (htail : ∀ c ∈ tail.head?, c = 'e') :
    value (signText neg ++ ((Nat.toDigits 10 m).take 1 ++ '.' :: ((Nat.toDigits 10 m).drop 1 ++ tail))) =
      (neg, (m : ℚ) * 10 ^ (exponent tail - ((Nat.toDigits 10 m).length - 1 : Nat))) := by
  rw [value_point neg _ _ tail (take_toDigits_isDigit m 1) (drop_toDigits_isDigit m 1) htail,
    List.take_append_drop, Nat.ofDigitChars_ten_toDigits, List.length_drop]

end Shapes

end Numeral

namespace FloatStyle

open Numeral

@[simp] theorem toList_zeros (n : Nat) : (zeros n).toList = List.replicate n '0' := by
  simp [zeros]

/-- A style whose text reads back: nothing or `.0` after an integral value, `e` before the
exponent, and nothing or `+` before a nonnegative exponent. -/
def Plain (style : FloatStyle) : Prop :=
  (style.integralMark = "" ∨ style.integralMark = ".0") ∧ style.exponentMark = "e" ∧
    (style.exponentPlus = "" ∨ style.exponentPlus = "+")

/-- The characters of a decimal's text are numeral characters, when the style's marks are. -/
theorem renderDecimal_numeral {style : FloatStyle}
    (hmarks : (style.integralMark ++ style.exponentMark ++ style.exponentPlus).toList.all
      isNumeralChar = true) (d : Decimal) :
    (style.renderDecimal d).toList.all isNumeralChar = true := by
  simp only [String.toList_append, List.all_append, Bool.and_eq_true] at hmarks
  obtain ⟨⟨hintegral, hexp⟩, hplus⟩ := hmarks
  have hdig := toDigits_numeral d.digits
  have htake : ∀ k, ((Nat.toDigits 10 d.digits).take k).all isNumeralChar = true := fun _ =>
    List.all_eq_true.mpr fun c hc => List.all_eq_true.mp hdig c (List.mem_of_mem_take hc)
  have hdrop : ∀ k, ((Nat.toDigits 10 d.digits).drop k).all isNumeralChar = true := fun _ =>
    List.all_eq_true.mpr fun c hc => List.all_eq_true.mp hdig c (List.mem_of_mem_drop hc)
  have hzeros : ∀ k, (List.replicate k '0').all isNumeralChar = true := fun _ =>
    List.all_eq_true.mpr fun c hc => by rw [List.eq_of_mem_replicate hc]; decide
  unfold renderDecimal
  dsimp only
  split_ifs <;>
    simp only [String.toList_append, String.toList_ofList, toList_zeros, List.all_append,
      hintegral, hexp, hplus, hdig, htake, hdrop, hzeros, intText_numeral, Bool.and_true] <;>
    decide

theorem render_numeral {style : FloatStyle}
    (hmarks : (style.integralMark ++ style.exponentMark ++ style.exponentPlus).toList.all
      isNumeralChar = true) (x : Binary64) :
    (style.render x).toList.all isNumeralChar = true := by
  have hintegral : style.integralMark.toList.all isNumeralChar = true := by
    simp only [String.toList_append, List.all_append, Bool.and_eq_true] at hmarks
    exact hmarks.1.1
  unfold render
  split_ifs <;>
    simp only [String.toList_append, List.all_append, renderDecimal_numeral hmarks, hintegral,
      Bool.and_true] <;>
    decide

theorem Plain.integralMark_toList {style : FloatStyle} (h : style.Plain) :
    style.integralMark.toList = [] ∨ style.integralMark.toList = ['.', '0'] := by
  rcases h.1 with h | h <;> simp [h]

/-- The text of a decimal, after a sign, reads back as the sign and the decimal's value. -/
theorem value_renderDecimal {style : FloatStyle} (hstyle : style.Plain) (neg : Bool)
    (d : Decimal) : value (signText neg ++ (style.renderDecimal d).toList) = (neg, d.value) := by
  have hmark := hstyle.integralMark_toList
  obtain ⟨-, hexpMark, hplus⟩ := hstyle
  have hlen : 0 < (Nat.toDigits 10 d.digits).length :=
    List.length_pos_iff.mpr Nat.toDigits_ne_nil
  -- the exponent after the mark reads back, whichever sign it has
  have hexpTail : ∀ lead : Int, exponent (style.exponentMark.toList ++
      ((if 0 ≤ lead then style.exponentPlus else "").toList ++ (toString lead).toList)) = lead := by
    intro lead
    have hplus' : style.exponentPlus.toList = [] ∨ style.exponentPlus.toList = ['+'] := by
      rcases hplus with h | h <;> simp [h]
    have := exponent_text hplus' lead
    rw [hexpMark]
    split_ifs with hl <;> simpa [hl] using this
  have hhead : ∀ rest : List Char, ∀ c ∈ (style.exponentMark.toList ++ rest).head?, c = 'e' := by
    simp [hexpMark]
  unfold renderDecimal
  dsimp only
  -- the sign of the exponent is read the same way on both sides; keep it whole
  generalize hlead : ((Nat.toDigits 10 d.digits).length : Int) + d.exponent - 1 = lead
  have hexp := hexpTail lead
  generalize (if 0 ≤ lead then style.exponentPlus else "") = sgn at hexp ⊢
  split_ifs with hpos hnonneg hpoint hrest
  · -- positional and integral: the digits, the zeros and the mark
    obtain ⟨k, hk⟩ : ∃ k : Nat, d.exponent = k := ⟨d.exponent.toNat, by omega⟩
    simp only [String.toList_append, String.toList_ofList, toList_zeros, hk, Int.toNat_natCast,
      List.append_assoc]
    rw [value_digits_zeros neg d.digits k hmark, Decimal.value, hk]
  · -- positional with the point inside the digits
    obtain ⟨p, hp⟩ : ∃ p : Nat, ((Nat.toDigits 10 d.digits).length : Int) + d.exponent = p :=
      ⟨(((Nat.toDigits 10 d.digits).length : Int) + d.exponent).toNat, by omega⟩
    simp only [String.toList_append, String.toList_ofList, hp, Int.toNat_natCast,
      List.append_assoc]
    rw [show ".".toList = ['.'] from rfl, List.singleton_append,
      value_take_drop neg d.digits (by omega), Decimal.value]
    congr 3
    omega
  · -- positional below one: `0.`, zeros, then the digits
    obtain ⟨z, hz⟩ : ∃ z : Nat, -(((Nat.toDigits 10 d.digits).length : Int) + d.exponent) = z :=
      ⟨(-(((Nat.toDigits 10 d.digits).length : Int) + d.exponent)).toNat, by omega⟩
    simp only [String.toList_append, String.toList_ofList, toList_zeros, hz, Int.toNat_natCast,
      List.append_assoc]
    rw [show "0.".toList = ['0', '.'] from rfl, List.cons_append, List.cons_append, List.nil_append,
      value_zero_point neg d.digits z, Decimal.value]
    congr 3
    omega
  · -- the exponent form with a single digit
    have hone : (Nat.toDigits 10 d.digits).drop 1 = [] := List.isEmpty_iff.mp hrest
    have hn := List.drop_eq_nil_iff.mp hone
    simp only [String.toList_append, String.toList_ofList, String.toList_empty, List.append_assoc,
      List.nil_append]
    rw [value_sci_single neg d.digits _ (hhead _) hone, hexp, Decimal.value]
    congr 3
    omega
  · -- the exponent form: the lead digit, the other digits after a point, the exponent
    simp only [String.toList_append, String.toList_ofList, List.append_assoc]
    rw [show ".".toList = ['.'] from rfl, List.singleton_append,
      value_sci_point neg d.digits _ (hhead _), hexp, Decimal.value]
    congr 3
    omega

/-- The text of a binary64 value reads back as its sign and, unless it is zero, its shortest
decimal. -/
theorem value_render {style : FloatStyle} (hstyle : style.Plain) (x : Binary64) :
    value (style.render x).toList =
      (x.neg, if x.units = 0 then 0 else (Binary64.shortest style.tie x.units).value) := by
  have hsign : (if x.neg then "-" else "").toList = signText x.neg := by
    cases x.neg <;> rfl
  unfold render
  dsimp only
  by_cases hzero : x.units = 0
  · -- zero is written `0` and the integral mark
    have h := value_digits_zeros x.neg 0 0 hstyle.integralMark_toList
    rw [if_pos hzero, if_pos hzero]
    simp only [String.toList_append, hsign, List.append_assoc]
    simpa using h
  · rw [if_neg hzero, if_neg hzero]
    simp only [String.toList_append, hsign]
    exact value_renderDecimal hstyle x.neg _

end FloatStyle

namespace Number

open Numeral

/-- The JSON text of a number is a numeral. -/
theorem toText_numeral (n : Number) : n.toText.toList.all isNumeralChar = true := by
  cases n with
  | int n => exact intText_numeral n
  | float x => exact FloatStyle.render_numeral (by decide) x

end Number

end DocQuery
