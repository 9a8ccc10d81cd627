import Mathlib.Algebra.Field.Rat
import Mathlib.Algebra.Order.Field.Power
import Mathlib.Data.List.TakeWhile
import Mathlib.Tactic.FieldSimp
import Mathlib.Tactic.NormNum
import Mathlib.Tactic.Ring
import WindowReduction.Kernel.Glsl

/-!
# Reading decimals

The text of a decimal shows its value: one reads the digits before and after the point as one number
and counts the places after the point and the power of ten.

Main statement: `value_readDecimal`. A decimal itself is not determined by its text, since `20` and
`2 * 10` are written alike.
-/

namespace WindowReduction

open Text

/-! ## Splitting at a separator -/

section Splitting

variable {c : Char} {left right : List Char}

/-- The text before the first `c`. -/
def textBefore (c : Char) (text : List Char) : List Char :=
  text.takeWhile (· ≠ c)

/-- The text after the first `c`. -/
def textAfter (c : Char) (text : List Char) : List Char :=
  (text.dropWhile (· ≠ c)).drop 1

theorem textBefore_append (h : c ∉ left) : textBefore c (left ++ c :: right) = left := by
  have hleft : ∀ a ∈ left, decide (a ≠ c) = true := fun a ha =>
    decide_eq_true fun heq => h (heq ▸ ha)
  rw [textBefore, List.takeWhile_append_of_pos hleft, List.takeWhile_cons_of_neg (by simp),
    List.append_nil]

theorem textAfter_append (h : c ∉ left) : textAfter c (left ++ c :: right) = right := by
  have hleft : ∀ a ∈ left, decide (a ≠ c) = true := fun a ha =>
    decide_eq_true fun heq => h (heq ▸ ha)
  rw [textAfter, List.dropWhile_append_of_pos hleft, List.dropWhile_cons_of_neg (by simp),
    List.drop_one, List.tail_cons]

theorem textBefore_of_not_mem (h : c ∉ left) : textBefore c left = left := by
  apply List.takeWhile_eq_self_iff.2
  intro a ha
  exact decide_eq_true fun heq => h (heq ▸ ha)

theorem textAfter_of_not_mem (h : c ∉ left) : textAfter c left = [] := by
  rw [textAfter, List.dropWhile_eq_nil_iff.2, List.drop_nil]
  intro a ha
  exact decide_eq_true fun heq => h (heq ▸ ha)

end Splitting

/-! ## Digits -/

/-- The text consists of digits. -/
def AllDigits (text : List Char) : Prop :=
  ∀ c ∈ text, c.isDigit = true

theorem allDigits_toDigits (n : Nat) : AllDigits (Nat.toDigits 10 n) := fun _ h =>
  Nat.isDigit_of_mem_toDigits (by decide) (by decide) h

theorem AllDigits.append {left right : List Char} (hl : AllDigits left) (hr : AllDigits right) :
    AllDigits (left ++ right) := fun c h =>
  (List.mem_append.1 h).elim (hl c) (hr c)

theorem AllDigits.take {text : List Char} (h : AllDigits text) (n : Nat) :
    AllDigits (text.take n) := fun c hc => h c (List.mem_of_mem_take hc)

theorem AllDigits.drop {text : List Char} (h : AllDigits text) (n : Nat) :
    AllDigits (text.drop n) := fun c hc => h c (List.mem_of_mem_drop hc)

theorem allDigits_replicate_zero (n : Nat) : AllDigits (List.replicate n '0') := by
  intro c hc
  rw [List.eq_of_mem_replicate hc]
  rfl

theorem AllDigits.not_mem {text : List Char} (h : AllDigits text) {c : Char}
    (hc : c.isDigit = false) : c ∉ text := fun hmem => by
  rw [h c hmem] at hc
  cases hc

/-- The number with the given digits. -/
def digitsValue (text : List Char) : Nat :=
  Nat.ofDigitChars 10 text 0

@[simp] theorem digitsValue_toDigits (n : Nat) : digitsValue (Nat.toDigits 10 n) = n :=
  Nat.ofDigitChars_ten_toDigits

/-- Zeros in front do not count. -/
theorem digitsValue_zeros_append (n : Nat) (text : List Char) :
    digitsValue (List.replicate n '0' ++ text) = digitsValue text := by
  rw [digitsValue, Nat.ofDigitChars_append, Nat.ofDigitChars_replicate_zero, Nat.mul_zero,
    digitsValue]

theorem digitsValue_append_zeros (n : Nat) (text : List Char) :
    digitsValue (text ++ List.replicate n '0') = 10 ^ n * digitsValue text := by
  rw [digitsValue, Nat.ofDigitChars_append, Nat.ofDigitChars_replicate_zero, digitsValue]

theorem digitsValue_append (left right : List Char) :
    digitsValue (left ++ right)
      = 10 ^ right.length * digitsValue left + digitsValue right := by
  rw [digitsValue, Nat.ofDigitChars_append, Nat.ofDigitChars_eq_ofDigitChars_zero]
  rfl

/-! ## Whole numbers -/

/-- The whole number that a text of digits, with or without a minus sign, stands for. -/
def readInt : List Char → Int
  | '-' :: digits => -(digitsValue digits : Int)
  | digits => (digitsValue digits : Int)

theorem readInt_nil : readInt [] = 0 := rfl

theorem readInt_of_allDigits {text : List Char} (h : AllDigits text) :
    readInt text = digitsValue text := by
  cases text with
  | nil => rfl
  | cons c rest =>
      have hc : c ≠ '-' := by
        rintro rfl
        exact absurd (h '-' List.mem_cons_self) (by decide)
      unfold readInt
      split
      · rename_i heq
        exact absurd (List.cons.inj heq).1 hc
      · rfl

theorem toList_toString_int (n : Int) :
    (toString n).toList
      = if 0 ≤ n then Nat.toDigits 10 n.toNat else '-' :: Nat.toDigits 10 (-n).toNat := by
  rw [Int.toString_eq_repr, Int.repr_eq_if]
  split
  · rw [Nat.toList_repr]
  · rw [String.toList_append, Nat.toList_repr]
    rfl

/-- A whole number begins with a digit or a minus sign, and digits follow. -/
theorem exists_toString_int (n : Int) :
    ∃ first rest, (toString n).toList = first :: rest ∧ (first.isDigit = true ∨ first = '-')
      ∧ AllDigits rest := by
  rw [toList_toString_int]
  split
  · have hdigits := allDigits_toDigits n.toNat
    obtain ⟨first, rest, htext⟩ := List.exists_cons_of_ne_nil (Nat.toDigits_ne_nil (n := n.toNat))
    rw [htext] at hdigits ⊢
    exact ⟨first, rest, rfl, Or.inl (hdigits first List.mem_cons_self),
      fun c hc => hdigits c (List.mem_cons_of_mem _ hc)⟩
  · exact ⟨'-', _, rfl, Or.inr rfl, allDigits_toDigits _⟩

@[simp] theorem readInt_toString (n : Int) : readInt (toString n).toList = n := by
  rw [toList_toString_int]
  split
  · rw [readInt_of_allDigits (allDigits_toDigits _), digitsValue_toDigits]
    omega
  · rw [readInt, digitsValue_toDigits]
    omega

/-! ## Decimals -/

/-- The number that a decimal stands for. -/
def Text.Decimal.value (d : Decimal) : ℚ :=
  d.coefficient * 10 ^ d.exponent

/-- The decimal that a text with or without a point and a power of ten stands for. -/
def readDecimal (text : List Char) : Decimal :=
  let mantissa := textBefore 'e' text
  let whole := textBefore '.' mantissa
  let fraction := textAfter '.' mantissa
  ⟨digitsValue (whole ++ fraction), readInt (textAfter 'e' text) - fraction.length⟩

/-- The digits after the first one, with a point in front if there are any. -/
def pointed (fraction : List Char) : List Char :=
  if fraction = [] then [] else '.' :: fraction

theorem mem_pointed {c : Char} {fraction : List Char} (h : c ∈ pointed fraction) :
    c = '.' ∨ c ∈ fraction := by
  unfold pointed at h
  split at h
  · cases h
  · exact List.mem_cons.1 h

/-- A text that has a decimal point or a power of ten, and the decimal that it stands for. -/
inductive Numeral : List Char → Decimal → Prop
  | point {whole fraction : List Char} (hne : whole ≠ []) (hw : AllDigits whole)
      (hf : AllDigits fraction) :
      Numeral (whole ++ '.' :: fraction) ⟨digitsValue (whole ++ fraction), -fraction.length⟩
  | power {first : Char} {fraction : List Char} (h : AllDigits (first :: fraction))
      (power : Int) :
      Numeral (first :: pointed fraction ++ 'e' :: (toString power).toList)
        ⟨digitsValue (first :: fraction), power - fraction.length⟩

/-- A text written out is read back. -/
theorem Numeral.readDecimal_eq {text : List Char} {d : Decimal} (h : Numeral text d) :
    readDecimal text = d := by
  cases h with
  | @point whole fraction hne hw hf =>
      have he : 'e' ∉ whole ++ '.' :: fraction := by
        intro hmem
        rcases List.mem_append.1 hmem with hmem | hmem
        · exact hw.not_mem rfl hmem
        · exact hf.not_mem rfl ((List.mem_cons.1 hmem).resolve_left (by decide))
      have hpoint : '.' ∉ whole := hw.not_mem rfl
      simp only [readDecimal, textBefore_of_not_mem he, textAfter_of_not_mem he,
        textBefore_append hpoint, textAfter_append hpoint, readInt_nil, Int.zero_sub]
  | @power first fraction hdigits power =>
      have hfirst : first.isDigit = true := hdigits first List.mem_cons_self
      have hf : AllDigits fraction := fun c hc => hdigits c (List.mem_cons_of_mem _ hc)
      have hpoint : '.' ∉ [first] := by
        rintro hmem
        rw [← List.mem_singleton.1 hmem] at hfirst
        cases hfirst
      have he : 'e' ∉ first :: pointed fraction := by
        intro hmem
        rcases List.mem_cons.1 hmem with heq | hmem
        · rw [← heq] at hfirst
          cases hfirst
        · rcases mem_pointed hmem with heq | hmem
          · cases heq
          · exact hf.not_mem rfl hmem
      simp only [readDecimal, textBefore_append he, textAfter_append he, readInt_toString]
      unfold pointed
      split
      · rename_i hnil
        rw [textBefore_of_not_mem hpoint, textAfter_of_not_mem hpoint, hnil]
        rfl
      · rw [← List.singleton_append, textBefore_append hpoint, textAfter_append hpoint,
          List.singleton_append]

/-- The characters of numbers. -/
def IsNumberChar (c : Char) : Prop :=
  c.isDigit = true ∨ c = '.' ∨ c = 'e' ∨ c = '-'

instance (c : Char) : Decidable (IsNumberChar c) :=
  inferInstanceAs (Decidable (_ ∨ _))

theorem IsNumberChar.not_mem {chars : List Char}
    (hchars : (chars.all fun c => !decide (IsNumberChar c)) = true) {c : Char}
    (h : IsNumberChar c) : c ∉ chars := by
  intro hmem
  have hnot := List.all_eq_true.1 hchars c hmem
  rw [decide_eq_true h] at hnot
  cases hnot

theorem AllDigits.isNumberChar {text : List Char} (h : AllDigits text) :
    ∀ c ∈ text, IsNumberChar c := fun c hc => Or.inl (h c hc)

theorem isNumberChar_toString (n : Int) : ∀ c ∈ (toString n).toList, IsNumberChar c := by
  intro c hc
  rw [toList_toString_int] at hc
  split at hc
  · exact (allDigits_toDigits _).isNumberChar c hc
  · rcases List.mem_cons.1 hc with rfl | hc
    · exact Or.inr (Or.inr (Or.inr rfl))
    · exact (allDigits_toDigits _).isNumberChar c hc

namespace Numeral

variable {text : List Char} {d : Decimal}

theorem isNumberChar (h : Numeral text d) : ∀ c ∈ text, IsNumberChar c := by
  intro c hc
  cases h with
  | point _ hw hf =>
      rcases List.mem_append.1 hc with hc | hc
      · exact hw.isNumberChar c hc
      · rcases List.mem_cons.1 hc with rfl | hc
        · exact Or.inr (Or.inl rfl)
        · exact hf.isNumberChar c hc
  | power hdigits power =>
      rcases List.mem_append.1 hc with hc | hc
      · rcases List.mem_cons.1 hc with rfl | hc
        · exact hdigits.isNumberChar _ List.mem_cons_self
        · rcases mem_pointed hc with rfl | hc
          · exact Or.inr (Or.inl rfl)
          · exact hdigits.isNumberChar c (List.mem_cons_of_mem _ hc)
      · rcases List.mem_cons.1 hc with rfl | hc
        · exact Or.inr (Or.inr (Or.inl rfl))
        · exact isNumberChar_toString power c hc

/-- A point or a power of ten tells a decimal from a whole number. -/
theorem mem_mark (h : Numeral text d) : '.' ∈ text ∨ 'e' ∈ text := by
  cases h with
  | point _ _ _ => exact Or.inl (by simp)
  | power _ _ => exact Or.inr (by simp)

theorem exists_first (h : Numeral text d) :
    ∃ first rest, text = first :: rest ∧ first.isDigit = true := by
  cases h with
  | @point whole fraction hne hw _ =>
      cases whole with
      | nil => exact absurd rfl hne
      | cons first whole => exact ⟨_, _, rfl, hw _ List.mem_cons_self⟩
  | power hdigits _ => exact ⟨_, _, rfl, hdigits _ List.mem_cons_self⟩

end Numeral

/-! ## The text of a decimal -/

namespace Text.Decimal

variable (d : Decimal)

theorem digits_ne_nil : d.digits ≠ [] :=
  Nat.toDigits_ne_nil

theorem allDigits_digits : AllDigits d.digits :=
  allDigits_toDigits _

theorem digitsValue_digits : digitsValue d.digits = d.coefficient :=
  digitsValue_toDigits _

variable {d} in
theorem exists_numeral_of_point {text whole fraction : List Char}
    (htext : text = whole ++ '.' :: fraction) (hne : whole ≠ []) (hw : AllDigits whole)
    (hf : AllDigits fraction)
    (hvalue : Decimal.value ⟨digitsValue (whole ++ fraction), -fraction.length⟩ = d.value) :
    ∃ d', Numeral text d' ∧ d'.value = d.value := by
  subst htext
  exact ⟨_, .point hne hw hf, hvalue⟩

variable {d} in
/-- Zeros stand between the point and the digits. -/
theorem exists_numeral_of_point_nonpos (hpoint : d.point ≤ 0) :
    ∃ d', Numeral (d.positional ".0").toList d' ∧ d'.value = d.value := by
  have hzeros : digitsValue (['0'] ++ (List.replicate (-d.point).toNat '0' ++ d.digits))
      = d.coefficient := by
    rw [← d.digitsValue_digits, ← digitsValue_zeros_append (1 + (-d.point).toNat) d.digits,
      List.replicate_add, List.append_assoc]
    rfl
  have hlength : -((List.replicate (-d.point).toNat '0' ++ d.digits).length : Int)
      = d.exponent := by
    rw [point] at hpoint ⊢
    rw [List.length_append, List.length_replicate]
    omega
  rw [positional, if_pos hpoint]
  refine exists_numeral_of_point ?_ (List.cons_ne_nil '0' []) (allDigits_replicate_zero 1)
    ((allDigits_replicate_zero (-d.point).toNat).append d.allDigits_digits) ?_
  · simp only [String.toList_append, String.toList_ofList]
    rfl
  · rw [hzeros, hlength]

variable {d} in
/-- The point stands between two digits. -/
theorem exists_numeral_of_point_lt (hpos : 0 < d.point) (hlt : d.point < d.digits.length) :
    ∃ d', Numeral (d.positional ".0").toList d' ∧ d'.value = d.value := by
  have hne : d.digits.take d.point.toNat ≠ [] := by
    rw [Ne, List.take_eq_nil_iff]
    rintro (hzero | hnil)
    · omega
    · exact d.digits_ne_nil hnil
  have hlength : -((d.digits.drop d.point.toNat).length : Int) = d.exponent := by
    rw [point] at hpos hlt ⊢
    rw [List.length_drop]
    omega
  rw [positional, if_neg (Int.not_le.2 hpos), if_pos hlt]
  refine exists_numeral_of_point ?_ hne (d.allDigits_digits.take d.point.toNat)
    (d.allDigits_digits.drop d.point.toNat) ?_
  · simp only [String.toList_append, String.toList_ofList, List.append_assoc]
    rfl
  · rw [List.take_append_drop, d.digitsValue_digits, hlength]

variable {d} in
/-- Zeros stand between the digits and the point. -/
theorem exists_numeral_of_le_point (hpos : 0 < d.point) (hle : d.digits.length ≤ d.point) :
    ∃ d', Numeral (d.positional ".0").toList d' ∧ d'.value = d.value := by
  have hexponent : (d.exponent.toNat : Int) = d.exponent := by
    rw [point] at hle
    omega
  have hzeros : digitsValue (d.digits ++ List.replicate d.exponent.toNat '0' ++ ['0'])
      = 10 ^ (d.exponent.toNat + 1) * d.coefficient := by
    rw [← d.digitsValue_digits, ← digitsValue_append_zeros, List.replicate_add,
      List.append_assoc]
    rfl
  rw [positional, if_neg (Int.not_le.2 hpos), if_neg (Int.not_lt.2 hle)]
  refine exists_numeral_of_point ?_ (by simp [d.digits_ne_nil])
    (d.allDigits_digits.append (allDigits_replicate_zero d.exponent.toNat))
    (allDigits_replicate_zero 1) ?_
  · simp only [String.toList_append, String.toList_ofList]
    rfl
  · change Decimal.value ⟨digitsValue (_ ++ ['0']), _⟩ = _
    rw [hzeros, value, value, ← hexponent, zpow_natCast]
    simp only [List.length_replicate, zpow_neg, zpow_natCast]
    push_cast
    rw [Int.toNat_natCast, pow_succ]
    field_simp

/-- A decimal with its point in place. -/
theorem exists_numeral_positional :
    ∃ d', Numeral (d.positional ".0").toList d' ∧ d'.value = d.value := by
  rcases Int.lt_or_le 0 d.point with hpos | hpoint
  · rcases Int.lt_or_le d.point d.digits.length with hlt | hle
    · exact exists_numeral_of_point_lt hpos hlt
    · exact exists_numeral_of_le_point hpos hle
  · exact exists_numeral_of_point_nonpos hpoint

/-- A decimal with a power of ten. -/
theorem exists_numeral_scientific :
    ∃ d', Numeral d.scientific.toList d' ∧ d'.value = d.value := by
  have hdigits := d.allDigits_digits
  have hvalue := d.digitsValue_digits
  obtain ⟨first, rest, hcons⟩ := List.exists_cons_of_ne_nil d.digits_ne_nil
  rw [hcons] at hdigits hvalue
  have htext : d.scientific.toList
      = first :: pointed rest ++ 'e' :: (toString d.magnitude).toList := by
    unfold scientific
    rw [hcons]
    cases rest <;> simp [pointed]
  have hexponent : d.magnitude - rest.length = d.exponent := by
    rw [magnitude, point, hcons, List.length_cons]
    omega
  rw [htext]
  refine ⟨_, .power hdigits d.magnitude, ?_⟩
  rw [hvalue, hexponent]

/-- The text of a decimal is a numeral for the same number. -/
theorem exists_numeral_decimalLiteral :
    ∃ d', Numeral (decimalLiteral d).toList d' ∧ d'.value = d.value := by
  unfold decimalLiteral
  split
  · exact d.exists_numeral_positional
  · exact d.exists_numeral_scientific

end Text.Decimal

/-- The text of a decimal shows its value. -/
theorem value_readDecimal (d : Decimal) :
    (readDecimal (decimalLiteral d).toList).value = d.value := by
  obtain ⟨d', hnumeral, hvalue⟩ := d.exists_numeral_decimalLiteral
  rw [hnumeral.readDecimal_eq, hvalue]

end WindowReduction
