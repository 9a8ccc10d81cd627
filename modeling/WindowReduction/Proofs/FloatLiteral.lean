import Mathlib.Tactic.Linarith
import Mathlib.Tactic.Positivity
import WindowReduction.Proofs.DecimalReading

/-!
# Literals determine numbers

The shortest decimal of a number lies in the interval of reals that round to the number, and the
intervals of two numbers have no point in common: where two of them touch, the end belongs to the
one with the even mantissa. A literal shows the value of its decimal, so different numbers have
different literals.

Main statements: `readsBack_shortest`, `eq_of_readsBack` (intervals do not meet) and
`floatLiteral_inj`.
-/

namespace WindowReduction

open Text

/-! ## Numbers by their bits -/

/-- The range of mantissas and exponents. Mantissas are long but for the least exponent. -/
structure Canonical (mantissa : Nat) (exponent : Int) : Prop where
  minExponent_le : Binary32.minExponent ≤ exponent
  mantissa_lt : mantissa < 2 * Binary32.normalMantissa
  normal : Binary32.minExponent < exponent → Binary32.normalMantissa ≤ mantissa

/-- The bits of a number that was taken apart. -/
def Text.Binary32.bits : Binary32 → Nat
  | .nan => 0
  | .infinite negative => negative.toNat * 0x80000000 + 0x7F800000
  | .finite negative m e =>
    negative.toNat * 0x80000000
      + if m < normalMantissa then m
        else (e - minExponent + 1).toNat * normalMantissa + (m - normalMantissa)

section Bits

variable {x y : Float32}

/-- The bits of the exponent. -/
def biasedExponent (x : Float32) : Nat :=
  x.toBits.toNat / Binary32.normalMantissa % 0x100

/-- The bits of the mantissa. -/
def fractionBits (x : Float32) : Nat :=
  x.toBits.toNat % Binary32.normalMantissa

/-- Whether the bit of the sign is set. -/
def signBit (x : Float32) : Bool :=
  0x80000000 ≤ x.toBits.toNat

namespace Text.Binary32

/-- How a number is taken apart. -/
theorem ofFloat_cases (x : Float32) :
    (biasedExponent x = 255 ∧ fractionBits x = 0 ∧ ofFloat x = .infinite (signBit x))
      ∨ (biasedExponent x = 255 ∧ fractionBits x ≠ 0 ∧ ofFloat x = .nan)
      ∨ (biasedExponent x = 0 ∧ ofFloat x = .finite (signBit x) (fractionBits x) minExponent)
      ∨ (biasedExponent x ≠ 255 ∧ biasedExponent x ≠ 0
          ∧ ofFloat x = .finite (signBit x) (normalMantissa + fractionBits x)
              (minExponent + ((biasedExponent x - 1 : Nat) : Int))) := by
  have hparts : ofFloat x = if biasedExponent x = 255 then
        if fractionBits x = 0 then .infinite (signBit x) else .nan
      else if biasedExponent x = 0 then .finite (signBit x) (fractionBits x) minExponent
      else .finite (signBit x) (normalMantissa + fractionBits x)
        (minExponent + ((biasedExponent x - 1 : Nat) : Int)) := rfl
  rw [hparts]
  by_cases hspecial : biasedExponent x = 255
  · by_cases hfraction : fractionBits x = 0
    · exact Or.inl ⟨hspecial, hfraction, by rw [if_pos hspecial, if_pos hfraction]⟩
    · exact Or.inr (Or.inl ⟨hspecial, hfraction, by rw [if_pos hspecial, if_neg hfraction]⟩)
  · by_cases hsmall : biasedExponent x = 0
    · exact Or.inr (Or.inr (Or.inl ⟨hsmall, by rw [if_neg hspecial, if_pos hsmall]⟩))
    · exact Or.inr (Or.inr (Or.inr
        ⟨hspecial, hsmall, by rw [if_neg hspecial, if_neg hsmall]⟩))

theorem canonical_of_ofFloat {negative : Bool} {m : Nat} {e : Int}
    (h : ofFloat x = .finite negative m e) : Canonical m e := by
  have hfraction : fractionBits x < normalMantissa := Nat.mod_lt _ (by decide)
  rcases ofFloat_cases x with ⟨-, -, hx⟩ | ⟨-, -, hx⟩ | ⟨-, hx⟩ | ⟨-, -, hx⟩ <;> rw [hx] at h <;>
    cases h
  · exact ⟨Int.le_refl _, by omega, fun hlt => absurd hlt (Int.lt_irrefl _)⟩
  · exact ⟨by omega, by omega, fun _ => Nat.le_add_right _ _⟩

theorem toNat_signBit (x : Float32) : (signBit x).toNat = x.toBits.toNat / 0x80000000 := by
  have hlt : x.toBits.toNat < 0x100000000 := x.toBits.toNat_lt
  unfold signBit
  by_cases hle : 0x80000000 ≤ x.toBits.toNat
  · rw [decide_eq_true hle, Bool.toNat_true]
    omega
  · rw [decide_eq_false hle, Bool.toNat_false]
    omega

/-- Nothing but the payload of a NaN is lost when a number is taken apart. -/
theorem bits_ofFloat (h : ofFloat x ≠ .nan) : (ofFloat x).bits = x.toBits.toNat := by
  have hsign := toNat_signBit x
  have hfraction : fractionBits x < normalMantissa := Nat.mod_lt _ (by decide)
  have hsplit : x.toBits.toNat
      = (x.toBits.toNat / 0x80000000) * 0x80000000 + biasedExponent x * normalMantissa
          + fractionBits x := by
    have hlt : x.toBits.toNat < 0x100000000 := x.toBits.toNat_lt
    simp only [biasedExponent, fractionBits, normalMantissa]
    omega
  rcases ofFloat_cases x with ⟨hb, hf, hx⟩ | ⟨-, -, hx⟩ | ⟨hb, hx⟩ | ⟨-, hb, hx⟩
  · have hnormal : normalMantissa = 0x800000 := rfl
    rw [hb, hf, hnormal] at hsplit
    rw [hx, bits, hsign]
    omega
  · exact absurd hx h
  · rw [hb, Nat.zero_mul] at hsplit
    rw [hx, bits, hsign, if_pos hfraction]
    omega
  · have hexponent : (minExponent + ((biasedExponent x - 1 : Nat) : Int) - minExponent + 1).toNat
        = biasedExponent x := by
      omega
    rw [hx, bits, hsign, if_neg (by omega), hexponent]
    omega

end Text.Binary32

theorem float_ext_toBits (h : x.toBits = y.toBits) : x = y := by
  rcases x with ⟨⟨bits, valid⟩⟩
  rcases y with ⟨⟨bits', valid'⟩⟩
  cases (show bits = bits' from h)
  rfl

/-- Numbers with the same parts are the same. -/
theorem Text.Binary32.ofFloat_inj (h : ofFloat x = ofFloat y) (hx : ofFloat x ≠ .nan) : x = y := by
  apply float_ext_toBits
  apply UInt32.toNat_inj.1
  rw [← bits_ofFloat hx, ← bits_ofFloat (h ▸ hx), h]

/-! ### Classes -/

open Float.Model in
theorem toNat_unpackExponent (x : Float32) :
    (@UnpackedFloat.unpackExponent .binary32 x.toBits.toBitVec).toNat = biasedExponent x := by
  simp only [UnpackedFloat.unpackExponent, BitVec.toNat_cast, BitVec.extractLsb_toNat,
    Nat.shiftRight_eq_div_pow]
  rfl

open Float.Model in
theorem toNat_unpackMantissa (x : Float32) :
    (@UnpackedFloat.unpackMantissa .binary32 x.toBits.toBitVec).toNat = fractionBits x := by
  simp only [UnpackedFloat.unpackMantissa, BitVec.toNat_cast, BitVec.extractLsb_toNat,
    Nat.shiftRight_eq_div_pow]
  rw [pow_zero, Nat.div_one]
  rfl

open Float.Model in
/-- The class of a number is told by the bits of its exponent and mantissa. -/
theorem float_class (x : Float32) :
    (x.isFinite = true ↔ biasedExponent x ≠ 255)
      ∧ (x.isNaN = true ↔ biasedExponent x = 255 ∧ fractionBits x ≠ 0) := by
  have hspecial : @UnpackedFloat.unpackExponent .binary32 x.toBits.toBitVec = -1#8
      ↔ biasedExponent x = 255 := by
    rw [← BitVec.toNat_inj, toNat_unpackExponent]
    rfl
  have hzero : @UnpackedFloat.unpackMantissa .binary32 x.toBits.toBitVec = 0#23
      ↔ fractionBits x = 0 := by
    rw [← BitVec.toNat_inj, toNat_unpackMantissa]
    rfl
  change ((UnpackedFloat.unpack .binary32 x.toBits.toBitVec).isFinite = true ↔ _)
    ∧ ((UnpackedFloat.unpack .binary32 x.toBits.toBitVec).isNaN = true ↔ _)
  rw [Ne, ← hspecial, Ne, ← hzero]
  have hnan : ¬(false = true) := Bool.false_ne_true
  unfold UnpackedFloat.unpack
  by_cases h : @UnpackedFloat.unpackExponent .binary32 x.toBits.toBitVec = -1#8
  · rw [if_pos h]
    by_cases hf : @UnpackedFloat.unpackMantissa .binary32 x.toBits.toBitVec = 0#23
    · rw [if_pos hf]
      exact ⟨iff_of_false hnan (not_not.2 h), iff_of_false hnan fun hnan => hnan.2 hf⟩
    · rw [if_neg hf]
      exact ⟨iff_of_false hnan (not_not.2 h), iff_of_true rfl ⟨h, hf⟩⟩
  · rw [if_neg h]
    -- Zeros, small numbers and the others are all finite.
    by_cases hsmall : @UnpackedFloat.unpackExponent .binary32 x.toBits.toBitVec = 0#8
    · rw [if_pos hsmall]
      by_cases hf : @UnpackedFloat.unpackMantissa .binary32 x.toBits.toBitVec = 0#23
      · rw [dif_pos hf]
        exact ⟨iff_of_true rfl h, iff_of_false hnan fun hnan => h hnan.1⟩
      · rw [dif_neg hf]
        exact ⟨iff_of_true rfl h, iff_of_false hnan fun hnan => h hnan.1⟩
    · rw [if_neg hsmall]
      exact ⟨iff_of_true rfl h, iff_of_false hnan fun hnan => h hnan.1⟩

theorem isNaN_iff_ofFloat : x.isNaN = true ↔ Binary32.ofFloat x = .nan := by
  rw [(float_class x).2]
  rcases Binary32.ofFloat_cases x with ⟨hb, hf, hx⟩ | ⟨hb, hf, hx⟩ | ⟨hb, hx⟩ | ⟨hb, -, hx⟩ <;>
    rw [hx] <;> simp [hb] <;> assumption

theorem isFinite_iff_ofFloat :
    x.isFinite = true ↔ ∃ negative m e, Binary32.ofFloat x = .finite negative m e := by
  rw [(float_class x).1]
  rcases Binary32.ofFloat_cases x with ⟨hb, hf, hx⟩ | ⟨hb, hf, hx⟩ | ⟨hb, hx⟩ | ⟨hb, -, hx⟩ <;>
    rw [hx] <;> simp [hb]

end Bits

/-! ## Rounding intervals -/

/-- The quarters of a unit between a number and the lower end of its interval. -/
def quartersBelow (mantissa : Nat) (exponent : Int) : Nat :=
  if mantissa = Binary32.normalMantissa ∧ Binary32.minExponent < exponent then 1 else 2

/-- A quarter of the unit of a number with the given exponent. -/
def quarterUnit (exponent : Int) : ℚ :=
  2 ^ (exponent - 2)

theorem quarterUnit_pos (e : Int) : 0 < quarterUnit e :=
  zpow_pos (by norm_num) _

/-- Binary and decimal units are measured in the same grain. -/
theorem exists_grain (e k : Int) :
    ∃ grain : ℚ, 0 < grain ∧ (binaryUnits e k : ℚ) = grain * quarterUnit e
      ∧ (decimalUnits e k : ℚ) = grain * 10 ^ k := by
  refine ⟨2 ^ (2 - e).toNat * 10 ^ (-k).toNat, by positivity, ?_, ?_⟩
  · have htwo : (2 : ℚ) ^ (e - 2).toNat = 2 ^ (2 - e).toNat * 2 ^ (e - 2) := by
      rw [← zpow_natCast, ← zpow_natCast, ← zpow_add₀ (by norm_num)]
      congr 1
      omega
    rw [binaryUnits, quarterUnit]
    push_cast [Nat.pow_eq]
    rw [htwo]
    ring
  · have hten : (10 : ℚ) ^ k.toNat = 10 ^ (-k).toNat * 10 ^ k := by
      rw [← zpow_natCast, ← zpow_natCast, ← zpow_add₀ (by norm_num)]
      congr 1
      omega
    rw [decimalUnits]
    push_cast [Nat.pow_eq]
    rw [hten]
    ring

/-- A decimal reads back exactly when its value lies in the interval, whose ends belong to it for
even mantissas. -/
theorem readsBack_iff {m c : Nat} {e k : Int} :
    readsBack m e c k = true ↔
      if m % 2 = 0 then
        ((4 * m - quartersBelow m e : Nat) : ℚ) * quarterUnit e ≤ Decimal.value ⟨c, k⟩
          ∧ Decimal.value ⟨c, k⟩ ≤ ((4 * m + 2 : Nat) : ℚ) * quarterUnit e
      else
        ((4 * m - quartersBelow m e : Nat) : ℚ) * quarterUnit e < Decimal.value ⟨c, k⟩
          ∧ Decimal.value ⟨c, k⟩ < ((4 * m + 2 : Nat) : ℚ) * quarterUnit e := by
  obtain ⟨grain, hgrain, hbinary, hdecimal⟩ := exists_grain e k
  have hleft : ∀ x : Nat, ((x * binaryUnits e k : Nat) : ℚ) = grain * (x * quarterUnit e) := by
    intro x
    rw [Nat.cast_mul, hbinary]
    ring
  have hright : ((c * decimalUnits e k : Nat) : ℚ) = grain * Decimal.value ⟨c, k⟩ := by
    rw [Nat.cast_mul, hdecimal, Decimal.value]
    ring
  change (if m % 2 = 0 then
      decide ((4 * m - quartersBelow m e) * binaryUnits e k ≤ c * decimalUnits e k)
        && decide (c * decimalUnits e k ≤ (4 * m + 2) * binaryUnits e k)
    else
      decide ((4 * m - quartersBelow m e) * binaryUnits e k < c * decimalUnits e k)
        && decide (c * decimalUnits e k < (4 * m + 2) * binaryUnits e k)) = true ↔ _
  split
  · rw [Bool.and_eq_true, decide_eq_true_eq, decide_eq_true_eq, ← Nat.cast_le (α := ℚ),
      ← Nat.cast_le (α := ℚ), hleft, hright, hleft, mul_le_mul_iff_right₀ hgrain,
      mul_le_mul_iff_right₀ hgrain]
  · rw [Bool.and_eq_true, decide_eq_true_eq, decide_eq_true_eq, ← Nat.cast_lt (α := ℚ),
      ← Nat.cast_lt (α := ℚ), hleft, hright, hleft, mul_lt_mul_iff_right₀ hgrain,
      mul_lt_mul_iff_right₀ hgrain]

/-! ### Intervals do not meet -/

variable {m m' c c' : Nat} {e e' k k' : Int}

theorem two_mul_quarterUnit_le (h : e < e') : 2 * quarterUnit e ≤ quarterUnit e' := by
  have hle : (2 : ℚ) ^ (e - 2 + 1) ≤ 2 ^ (e' - 2) := zpow_le_zpow_right₀ (by norm_num) (by omega)
  rw [zpow_add_one₀ (by norm_num)] at hle
  rw [quarterUnit, quarterUnit, mul_comm]
  exact hle

/-- The interval of the larger of two numbers begins where that of the smaller one ends or after it,
and after it if both ends belong to the intervals. -/
theorem upper_le_lower (h : Canonical m e) (h' : Canonical m' e') (hlt : e < e' ∨ e = e' ∧ m < m') :
    ((4 * m + 2 : Nat) : ℚ) * quarterUnit e
        ≤ ((4 * m' - quartersBelow m' e' : Nat) : ℚ) * quarterUnit e'
      ∧ (m % 2 = 0 → m' % 2 = 0 →
        ((4 * m + 2 : Nat) : ℚ) * quarterUnit e
          < ((4 * m' - quartersBelow m' e' : Nat) : ℚ) * quarterUnit e') := by
  have hunit := quarterUnit_pos e
  rcases hlt with hlt | ⟨rfl, hlt⟩
  · -- The larger number has a long mantissa and units of at least twice the size.
    have hlong : 4 * Binary32.normalMantissa - 1 ≤ 4 * m' - quartersBelow m' e' := by
      have hnormal := h'.normal (lt_of_le_of_lt h.minExponent_le hlt)
      unfold quartersBelow
      split
      · omega
      · rename_i hnot
        have hne : m' ≠ Binary32.normalMantissa := fun heq =>
          hnot ⟨heq, lt_of_le_of_lt h.minExponent_le hlt⟩
        omega
    have hshort := h.mantissa_lt
    have hscale : ((2 * (4 * Binary32.normalMantissa - 1) : Nat) : ℚ) * quarterUnit e
        ≤ ((4 * m' - quartersBelow m' e' : Nat) : ℚ) * quarterUnit e' := by
      calc ((2 * (4 * Binary32.normalMantissa - 1) : Nat) : ℚ) * quarterUnit e
          = ((4 * Binary32.normalMantissa - 1 : Nat) : ℚ) * (2 * quarterUnit e) := by
            rw [Nat.cast_mul]
            push_cast
            ring
        _ ≤ _ := mul_le_mul (Nat.cast_le.2 hlong) (two_mul_quarterUnit_le hlt) (by positivity)
            (Nat.cast_nonneg _)
    constructor
    · refine le_trans (mul_le_mul_of_nonneg_right ?_ hunit.le) hscale
      exact_mod_cast (by omega : 4 * m + 2 ≤ 2 * (4 * Binary32.normalMantissa - 1))
    · intro heven _
      refine lt_of_lt_of_le (mul_lt_mul_of_pos_right ?_ hunit) hscale
      exact_mod_cast (by omega : 4 * m + 2 < 2 * (4 * Binary32.normalMantissa - 1))
  · have hbelow : quartersBelow m' e ≤ 2 := by
      unfold quartersBelow
      split <;> decide
    constructor
    · apply mul_le_mul_of_nonneg_right _ hunit.le
      exact_mod_cast (by omega : 4 * m + 2 ≤ 4 * m' - quartersBelow m' e)
    · intro heven heven'
      apply mul_lt_mul_of_pos_right _ hunit
      exact_mod_cast (by omega : 4 * m + 2 < 4 * m' - quartersBelow m' e)

/-- Decimals of one value do not read back as two numbers. -/
theorem not_readsBack_of_lt (h : Canonical m e) (h' : Canonical m' e')
    (hlt : e < e' ∨ e = e' ∧ m < m') (hc : readsBack m e c k = true)
    (hvalue : Decimal.value ⟨c, k⟩ = Decimal.value ⟨c', k'⟩) : readsBack m' e' c' k' = false := by
  rw [Bool.eq_false_iff]
  intro hc'
  obtain ⟨hle, hltEven⟩ := upper_le_lower h h' hlt
  rw [readsBack_iff, hvalue] at hc
  rw [readsBack_iff] at hc'
  -- Both intervals have their ends only if both mantissas are even, and then they are apart.
  split at hc <;> split at hc'
  · rename_i heven heven'
    linarith [hltEven heven heven', hc.2, hc'.1]
  · linarith [hc.2, hc'.1]
  · linarith [hc.2, hc'.1]
  · linarith [hc.2, hc'.1]

theorem eq_of_readsBack (h : Canonical m e) (h' : Canonical m' e') (hc : readsBack m e c k = true)
    (hc' : readsBack m' e' c' k' = true)
    (hvalue : Decimal.value ⟨c, k⟩ = Decimal.value ⟨c', k'⟩) : m = m' ∧ e = e' := by
  have hnot : ¬(e < e' ∨ e = e' ∧ m < m') := fun hlt => by
    rw [not_readsBack_of_lt h h' hlt hc hvalue] at hc'
    cases hc'
  have hnot' : ¬(e' < e ∨ e' = e ∧ m' < m) := fun hlt => by
    rw [not_readsBack_of_lt h' h hlt hc' hvalue.symm] at hc
    cases hc
  omega

/-! ## Shortest decimals -/

/-- On the finest grid a number stands for itself. -/
theorem value_shortestOnGrids_zero (h : Canonical m e) :
    (shortestOnGrids m e 0).value = ((4 * m : Nat) : ℚ) * quarterUnit e := by
  have hshift : (2 : ℚ) ^ (e - Binary32.minExponent).toNat = 2 ^ (e - 2) * 4 * 2 ^ (149 : Nat) := by
    have hexponent : ((e - Binary32.minExponent).toNat : Int) = e - 2 + 2 + (149 : Nat) := by
      have hle := h.minExponent_le
      rw [Binary32.minExponent] at hle ⊢
      omega
    rw [← zpow_natCast, hexponent, zpow_add₀ (by norm_num), zpow_add₀ (by norm_num), zpow_natCast]
    norm_num
  have hten : (10 : ℚ) ^ Binary32.minExponent = 1 / (2 ^ (149 : Nat) * 5 ^ (149 : Nat)) := by
    rw [← mul_pow, Binary32.minExponent, zpow_neg, one_div]
    norm_num
  have hnatAbs : Binary32.minExponent.natAbs = 149 := rfl
  rw [shortestOnGrids, Decimal.value, quarterUnit, hten, hnatAbs]
  push_cast [Nat.pow_eq]
  rw [hshift]
  field_simp
  norm_num

theorem readsBack_shortestOnGrids (h : Canonical m e) (hpos : 0 < m) (n : Nat) :
    readsBack m e (shortestOnGrids m e n).coefficient (shortestOnGrids m e n).exponent = true := by
  induction n with
  | zero =>
      -- Below the coarser grids is the number itself, which lies inside its interval.
      have hunit := quarterUnit_pos e
      have hvalue := value_shortestOnGrids_zero h
      have hbelow : 1 ≤ quartersBelow m e := by
        unfold quartersBelow
        split <;> decide
      rw [readsBack_iff]
      change if m % 2 = 0 then _ ≤ (shortestOnGrids m e 0).value ∧ (shortestOnGrids m e 0).value ≤ _
        else _ < (shortestOnGrids m e 0).value ∧ (shortestOnGrids m e 0).value < _
      have hlow : ((4 * m - quartersBelow m e : Nat) : ℚ) * quarterUnit e
          < ((4 * m : Nat) : ℚ) * quarterUnit e := by
        apply mul_lt_mul_of_pos_right _ hunit
        exact_mod_cast (by omega : 4 * m - quartersBelow m e < 4 * m)
      have hhigh :
          ((4 * m : Nat) : ℚ) * quarterUnit e < ((4 * m + 2 : Nat) : ℚ) * quarterUnit e := by
        apply mul_lt_mul_of_pos_right _ hunit
        exact_mod_cast (by omega : 4 * m < 4 * m + 2)
      rw [hvalue]
      split
      · exact ⟨hlow.le, hhigh.le⟩
      · exact ⟨hlow, hhigh⟩
  | succ n ih =>
      rw [shortestOnGrids]
      split
      · rename_i c hgrid
        exact readsBack_of_onGrid? hgrid
      · exact ih

/-- The shortest decimal of a number reads back. -/
theorem readsBack_shortest (h : Canonical m e) :
    readsBack m e (shortest m e).coefficient (shortest m e).exponent = true := by
  unfold shortest
  split
  · rename_i hzero
    rw [hzero]
    simp [readsBack]
  · rename_i hne
    exact readsBack_shortestOnGrids h (Nat.pos_of_ne_zero hne) gridCount

/-- Numbers with one shortest decimal are the same. -/
theorem eq_of_decimalLiteral_eq (h : Canonical m e) (h' : Canonical m' e')
    (heq : decimalLiteral (shortest m e) = decimalLiteral (shortest m' e')) : m = m' ∧ e = e' := by
  refine eq_of_readsBack h h' (readsBack_shortest h) (readsBack_shortest h') ?_
  have hvalue := value_readDecimal (shortest m e)
  rw [heq, value_readDecimal] at hvalue
  exact hvalue.symm

/-! ## Literals -/

section Literals

variable {x y : Float32} {negative : Bool}

theorem toList_floatLiteral_of_finite (h : Binary32.ofFloat x = .finite negative m e) :
    (floatLiteral x).toList
      = (if negative then ['-'] else []) ++ (decimalLiteral (shortest m e)).toList := by
  rw [floatLiteral, h]
  cases negative
  · rfl
  · rw [String.toList_append]
    rfl

/-- The literal of a finite number has only digits, points, exponents and minus signs. -/
theorem isNumberChar_floatLiteral (h : x.isFinite = true) :
    ∀ c ∈ (floatLiteral x).toList, IsNumberChar c := by
  obtain ⟨negative, m, e, hx⟩ := isFinite_iff_ofFloat.1 h
  obtain ⟨d, hnumeral, -⟩ := (shortest m e).exists_numeral_decimalLiteral
  intro c hc
  rw [toList_floatLiteral_of_finite hx] at hc
  rcases List.mem_append.1 hc with hc | hc
  · split at hc
    · exact Or.inr (Or.inr (Or.inr (List.mem_singleton.1 hc)))
    · cases hc
  · exact hnumeral.isNumberChar c hc

/-- The literal of a finite number has a point or an exponent. -/
theorem mem_mark_floatLiteral (h : x.isFinite = true) :
    '.' ∈ (floatLiteral x).toList ∨ 'e' ∈ (floatLiteral x).toList := by
  obtain ⟨negative, m, e, hx⟩ := isFinite_iff_ofFloat.1 h
  obtain ⟨d, hnumeral, -⟩ := (shortest m e).exists_numeral_decimalLiteral
  rw [toList_floatLiteral_of_finite hx]
  exact hnumeral.mem_mark.imp (List.mem_append_right _) (List.mem_append_right _)

/-- The literal of a finite number begins with a digit or a minus sign. -/
theorem exists_first_floatLiteral (h : x.isFinite = true) :
    ∃ first rest, (floatLiteral x).toList = first :: rest
      ∧ (first.isDigit = true ∨ first = '-') := by
  obtain ⟨negative, m, e, hx⟩ := isFinite_iff_ofFloat.1 h
  obtain ⟨d, hnumeral, -⟩ := (shortest m e).exists_numeral_decimalLiteral
  obtain ⟨first, rest, htext, hfirst⟩ := hnumeral.exists_first
  rw [toList_floatLiteral_of_finite hx, htext]
  cases negative
  · exact ⟨first, rest, rfl, Or.inl hfirst⟩
  · exact ⟨'-', first :: rest, rfl, Or.inr rfl⟩

theorem floatLiteral_ne_of_infinite (hx : x.isFinite = true)
    (hy : Binary32.ofFloat y = .infinite negative) : floatLiteral x ≠ floatLiteral y := by
  intro heq
  -- An infinity is written as a division, with blanks around the slash.
  have hblank : ' ' ∈ (floatLiteral y).toList := by
    rw [floatLiteral, hy]
    cases negative <;> decide
  rw [← heq] at hblank
  rcases isNumberChar_floatLiteral hx ' ' hblank with h | h | h | h <;> revert h <;> decide

/-- A text that begins with a digit is told apart from its minus sign. -/
theorem signed_text_inj {negative' : Bool} {text text' : List Char}
    (htext : ∃ first rest, text = first :: rest ∧ first.isDigit = true)
    (htext' : ∃ first rest, text' = first :: rest ∧ first.isDigit = true)
    (h : (if negative then ['-'] else []) ++ text = (if negative' then ['-'] else []) ++ text') :
    negative = negative' ∧ text = text' := by
  obtain ⟨first, rest, rfl, hfirst⟩ := htext
  obtain ⟨first', rest', rfl, hfirst'⟩ := htext'
  cases negative <;> cases negative'
  · exact ⟨rfl, h⟩
  · cases (List.cons.inj h).1
    cases hfirst
  · cases (List.cons.inj h).1
    cases hfirst'
  · exact ⟨rfl, (List.cons.inj h).2⟩

/-- Different numbers have different literals. -/
theorem floatLiteral_inj (hx : x.isNaN = false) (hy : y.isNaN = false)
    (h : floatLiteral x = floatLiteral y) : x = y := by
  have hnan : Binary32.ofFloat x ≠ .nan := fun hnan => by
    rw [isNaN_iff_ofFloat.2 hnan] at hx
    cases hx
  have hnan' : Binary32.ofFloat y ≠ .nan := fun hnan => by
    rw [isNaN_iff_ofFloat.2 hnan] at hy
    cases hy
  apply Binary32.ofFloat_inj _ hnan
  cases hpx : Binary32.ofFloat x with
  | nan => exact absurd hpx hnan
  | infinite negative =>
      cases hpy : Binary32.ofFloat y with
      | nan => exact absurd hpy hnan'
      | infinite negative' =>
          rw [floatLiteral, floatLiteral, hpx, hpy] at h
          revert h
          cases negative <;> cases negative' <;> decide
      | finite negative' m' e' =>
          exact absurd h.symm
            (floatLiteral_ne_of_infinite (isFinite_iff_ofFloat.2 ⟨_, _, _, hpy⟩) hpx)
  | finite negative m e =>
      cases hpy : Binary32.ofFloat y with
      | nan => exact absurd hpy hnan'
      | infinite negative' =>
          exact absurd h (floatLiteral_ne_of_infinite (isFinite_iff_ofFloat.2 ⟨_, _, _, hpx⟩) hpy)
      | finite negative' m' e' =>
          have htext := congrArg String.toList h
          rw [toList_floatLiteral_of_finite hpx, toList_floatLiteral_of_finite hpy] at htext
          obtain ⟨d, hnumeral, -⟩ := (shortest m e).exists_numeral_decimalLiteral
          obtain ⟨d', hnumeral', -⟩ := (shortest m' e').exists_numeral_decimalLiteral
          obtain ⟨hsign, hdecimal⟩ := signed_text_inj hnumeral.exists_first
            hnumeral'.exists_first htext
          obtain ⟨hm, he⟩ := eq_of_decimalLiteral_eq
            (Binary32.canonical_of_ofFloat hpx) (Binary32.canonical_of_ofFloat hpy)
            (String.toList_inj.1 hdecimal)
          rw [hsign, hm, he]

end Literals

end WindowReduction
