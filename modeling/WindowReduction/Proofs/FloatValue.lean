import WindowReduction.Proofs.FloatOrder
import WindowReduction.Proofs.FloatRounding

/-!
# Exact operations on single-precision numbers

Every finite number stands for a rational. An operation whose exact result is a number gives that
number: this holds of sums, of products with one and of integers that are turned into numbers. All
integers up to `2 ^ 24` in absolute value are numbers, so as long as sums stay among these, nothing
is rounded.

Main definitions: `value?` (the rational of a number), `IsInteger` (it is a given integer).
Main statements: `value?_add`, `value?_mul_one`, `IsInteger.add` and `IsInteger.beq_ofInt` (an
integer is told by equality).
-/

namespace WindowReduction

open Float.Model (Format UnpackedFloat totalExponent)
open Float.Model.UnpackedFloat (Sign)

/-! ## Values -/

/-- The rational that an unpacked number stands for. Infinities and NaN stand for none. -/
def unpackedValue? : UnpackedFloat → Option ℚ
  | .zero _ => some 0
  | .finite s m e _ => some (((s.apply m : Int) : ℚ) * 2 ^ e)
  | .infinity _ => none
  | .notANumber => none

/-- The rational that a number stands for. -/
def value? (x : Float32) : Option ℚ :=
  unpackedValue? x.toModel.unpack

/-- The rationals for which there is a number. -/
def Representable (q : ℚ) : Prop :=
  ∃ c t, Canonical c t ∧ t ≤ 104 ∧ |q| = c * 2 ^ t

variable {m m' c : Nat} {e e' t : Int} {s s' : Sign} {x y : Float32} {a b : ℚ}

/-- A number that stands for a rational is a zero or finite. -/
theorem unpack_of_value? (h : value? x = some a) :
    (∃ s, x.toModel.unpack = .zero s ∧ a = 0)
      ∨ ∃ s m e hm, x.toModel.unpack = .finite s m e hm
        ∧ a = ((s.apply m : Int) : ℚ) * 2 ^ e := by
  rw [value?] at h
  cases hx : x.toModel.unpack with
  | zero s =>
      rw [hx] at h
      exact Or.inl ⟨s, rfl, (Option.some.inj h).symm⟩
  | finite s m e hm =>
      rw [hx] at h
      exact Or.inr ⟨s, m, e, hm, rfl, (Option.some.inj h).symm⟩
  | infinity | notANumber =>
      rw [hx] at h
      cases h

/-- A finite number that is unpacked and packed again is the same. -/
theorem unpack_pack_of_unpack {hm : 0 < m} (h : x.toModel.unpack = .finite s m e hm) :
    (Float32.Model.pack (.finite s m e hm)).unpack = .finite s m e hm := by
  obtain ⟨hcanonical, hle⟩ := canonical_of_unpack h
  exact unpack_pack_finite hcanonical hm hle s

/-- Signs do not matter for how a number is written. -/
theorem apply_mul_eq (s : Sign) (h : (m : ℚ) * 2 ^ e = c * 2 ^ t) :
    ((s.apply m : Int) : ℚ) * 2 ^ e = ((s.apply c : Int) : ℚ) * 2 ^ t := by
  cases s with
  | positive => simpa [Sign.apply] using h
  | negative => simpa [Sign.apply] using h

theorem apply_mul_pos (hm : 0 < m) (e : Int) :
    0 < ((Sign.positive.apply m : Int) : ℚ) * 2 ^ e
      ∧ ((Sign.negative.apply m : Int) : ℚ) * 2 ^ e < 0 := by
  have hpos : (0 : ℚ) < m * 2 ^ e := mul_pos (Nat.cast_pos.2 hm) (zpow_pos (by norm_num) e)
  constructor
  · simpa [Sign.apply] using hpos
  · simpa [Sign.apply] using hpos

/-! ## Equality -/

/-- Canonical numbers with one value are the same. -/
theorem Canonical.eq_of_apply_mul_eq (h : Canonical m e) (h' : Canonical m' e') (hm : 0 < m)
    (hm' : 0 < m') (hvalue : ((s.apply m : Int) : ℚ) * 2 ^ e = ((s'.apply m' : Int) : ℚ) * 2 ^ e') :
    s = s' ∧ m = m' ∧ e = e' := by
  obtain ⟨hpos, hneg⟩ := apply_mul_pos hm e
  obtain ⟨hpos', hneg'⟩ := apply_mul_pos hm' e'
  cases s <;> cases s'
  · refine ⟨rfl, h.eq_of_value_eq h' hm hm' ?_⟩
    simpa [Sign.apply] using hvalue
  · linarith
  · linarith
  · refine ⟨rfl, h.eq_of_value_eq h' hm hm' ?_⟩
    simpa [Sign.apply] using hvalue

/-- Numbers that stand for one rational are equal. -/
theorem float_beq_of_value?_eq (hx : value? x = some a) (hy : value? y = some a) :
    (x == y) = true := by
  have hne : ∀ {s : Sign} {m : Nat} (e : Int), 0 < m → ((s.apply m : Int) : ℚ) * 2 ^ e ≠ 0 := by
    intro s m e hm
    cases s with
    | negative => exact (apply_mul_pos hm e).2.ne
    | positive => exact (apply_mul_pos hm e).1.ne'
  rw [float_beq_iff_position]
  rcases unpack_of_value? hx with ⟨s, hu, ha⟩ | ⟨s, m, e, hm, hu, ha⟩ <;>
    rcases unpack_of_value? hy with ⟨s', hv, ha'⟩ | ⟨s', m', e', hm', hv, ha'⟩ <;>
    rw [position?, position?, hu, hv]
  · exact ⟨_, rfl, rfl⟩
  · exact absurd (ha'.symm.trans ha) (hne e' hm')
  · exact absurd (ha.symm.trans ha') (hne e hm)
  · obtain ⟨hcanonical, -⟩ := canonical_of_unpack hu
    obtain ⟨hcanonical', -⟩ := canonical_of_unpack hv
    obtain ⟨rfl, rfl, rfl⟩ := hcanonical.eq_of_apply_mul_eq hcanonical' hm hm' (ha.symm.trans ha')
    cases s <;> exact ⟨_, rfl, rfl⟩

/-! ## Exact rounding -/

theorem Representable.exists_canonical (hm : 0 < m) (h : Representable ((m : ℚ) * 2 ^ e)) :
    ∃ c t, Canonical c t ∧ 0 < c ∧ t ≤ 104 ∧ (m : ℚ) * 2 ^ e = c * 2 ^ t := by
  obtain ⟨c, t, hcanonical, ht, hvalue⟩ := h
  have hpos : (0 : ℚ) < m * 2 ^ e := mul_pos (Nat.cast_pos.2 hm) (zpow_pos (by norm_num) e)
  rw [abs_of_pos hpos] at hvalue
  refine ⟨c, t, hcanonical, Nat.pos_of_ne_zero ?_, ht, hvalue⟩
  rintro rfl
  rw [hvalue, Nat.cast_zero, zero_mul] at hpos
  exact lt_irrefl _ hpos

/-- Rounding keeps a rational for which there is a number. -/
theorem unpackedValue?_round (hm : 0 < m) (h : Representable ((m : ℚ) * 2 ^ e)) (s : Sign) :
    unpackedValue? (Float32.Model.pack (UnpackedFloat.round .binary32 s m e)).unpack
      = some (((s.apply m : Int) : ℚ) * 2 ^ e) := by
  obtain ⟨c, t, hcanonical, hc, ht, hvalue⟩ := h.exists_canonical hm
  rw [round_eq hcanonical hc hm hvalue, unpack_pack_finite hcanonical hc ht, unpackedValue?,
    apply_mul_eq s hvalue]

/-- The same with a sign that is still in the mantissa. -/
theorem unpackedValue?_normalize {m : Int} (h : Representable ((m : ℚ) * 2 ^ e)) (s : Sign) :
    unpackedValue? (Float32.Model.pack (UnpackedFloat.normalize .binary32 m e s)).unpack
      = some ((m : ℚ) * 2 ^ e) := by
  have habs : ((m.natAbs : Nat) : ℚ) * 2 ^ e = |(m : ℚ) * 2 ^ e| := by
    rw [abs_mul, abs_of_pos (zpow_pos (by norm_num : (0 : ℚ) < 2) e), Nat.cast_natAbs, Int.cast_abs]
  have h' : Representable (((m.natAbs : Nat) : ℚ) * 2 ^ e) := by
    rw [habs, Representable, abs_abs]
    exact h
  rcases lt_trichotomy m 0 with hneg | rfl | hpos
  · have hnat : (-m).toNat = m.natAbs := by omega
    have hsign : Sign.negative.apply m.natAbs = m := by
      change -(m.natAbs : Int) = m
      omega
    rw [UnpackedFloat.normalize, compare_lt_iff_lt.2 hneg]
    simp only [hnat]
    rw [unpackedValue?_round (by omega) h', hsign]
  · rw [UnpackedFloat.normalize, Std.ReflOrd.compare_self]
    simp only [unpack_pack_zero, unpackedValue?, Int.cast_zero, zero_mul]
  · have hnat : m.toNat = m.natAbs := by omega
    have hsign : Sign.positive.apply m.natAbs = m := by
      change (m.natAbs : Int) = m
      omega
    rw [UnpackedFloat.normalize, compare_gt_iff_gt.2 hpos]
    simp only [hnat]
    rw [unpackedValue?_round (by omega) h', hsign]

/-! ## Sums and products -/

/-- The mantissas of two numbers are added at the smaller exponent. -/
theorem value_add_mantissas (s s' : Sign) (m m' : Nat) (e e' : Int) :
    ((s.apply (UnpackedFloat.decreaseExponent m e (min e e')).1
        + s'.apply (UnpackedFloat.decreaseExponent m' e' (min e e')).1 : Int) : ℚ) * 2 ^ min e e'
      = ((s.apply m : Int) : ℚ) * 2 ^ e + ((s'.apply m' : Int) : ℚ) * 2 ^ e' := by
  obtain ⟨hleft, hmin⟩ := value_decreaseExponent m e (min e e')
  obtain ⟨hright, hmin'⟩ := value_decreaseExponent m' e' (min e e')
  rw [hmin, min_eq_right (min_le_left e e')] at hleft
  rw [hmin', min_eq_right (min_le_right e e')] at hright
  rw [← apply_mul_eq s hleft, ← apply_mul_eq s' hright, Int.cast_add, add_mul]

/-- A sum for which there is a number is exact. -/
theorem value?_add (hx : value? x = some a) (hy : value? y = some b)
    (h : Representable (a + b)) : value? (x + y) = some (a + b) := by
  change unpackedValue? (Float32.Model.pack
    (UnpackedFloat.add .binary32 x.toModel.unpack y.toModel.unpack)).unpack = _
  rcases unpack_of_value? hx with ⟨s, hu, rfl⟩ | ⟨s, m, e, hm, hu, rfl⟩ <;>
    rcases unpack_of_value? hy with ⟨s', hv, rfl⟩ | ⟨s', m', e', hm', hv, rfl⟩ <;> rw [hu, hv]
  · change unpackedValue? (Float32.Model.pack
      (if s == s' then .zero s else .zero .positive)).unpack = _
    split <;> rw [unpack_pack_zero, unpackedValue?, zero_add]
  · change unpackedValue? (Float32.Model.pack (.finite s' m' e' hm')).unpack = _
    rw [unpack_pack_of_unpack hv, unpackedValue?, zero_add]
  · change unpackedValue? (Float32.Model.pack (.finite s m e hm)).unpack = _
    rw [unpack_pack_of_unpack hu, unpackedValue?, add_zero]
  · rw [← value_add_mantissas] at h ⊢
    exact unpackedValue?_normalize h _

/-- Multiplication by one changes nothing. -/
theorem value?_mul_one (x : Float32) : value? (x * 1.0) = value? x := by
  have hone : (1.0 : Float32).toModel.unpack = .finite .positive 0x800000 (-23) (by decide) := rfl
  change unpackedValue? (Float32.Model.pack
    (UnpackedFloat.mul .binary32 x.toModel.unpack (1.0 : Float32).toModel.unpack)).unpack = _
  rw [hone, value?]
  cases hx : x.toModel.unpack with
  | notANumber => rfl
  | infinity s => cases s <;> rfl
  | zero s => cases s <;> rfl
  | finite s m e hm =>
      obtain ⟨hcanonical, hle⟩ := canonical_of_unpack hx
      have hvalue : ((m * 0x800000 : Nat) : ℚ) * 2 ^ (e + -23) = m * 2 ^ e := by
        rw [zpow_add₀ (by norm_num), Nat.cast_mul]
        norm_num
        ring
      have hsign : s * .positive = s := by cases s <;> rfl
      change unpackedValue? (Float32.Model.pack (UnpackedFloat.roundWithAccuracy .binary32
        (s * .positive) (m * 0x800000) (e + -23) .exact)).unpack = _
      rw [roundWithAccuracy_eq hcanonical hm (by omega) hvalue (by omega), hsign,
        unpack_pack_finite hcanonical hm hle]

theorem value?_neg (h : value? x = some a) : value? (-x) = some (-a) := by
  change unpackedValue? (Float32.Model.pack x.toModel.unpack.neg).unpack = _
  rcases unpack_of_value? h with ⟨s, hu, rfl⟩ | ⟨s, m, e, hm, hu, rfl⟩ <;> rw [hu]
  · change unpackedValue? (Float32.Model.pack (.zero (-s))).unpack = _
    rw [unpack_pack_zero, unpackedValue?, neg_zero]
  · obtain ⟨hcanonical, hle⟩ := canonical_of_unpack hu
    have hsign : (((-s).apply m : Int) : ℚ) = -((s.apply m : Int) : ℚ) := by
      rw [← Int.cast_neg]
      congr 1
      cases s with
      | negative => exact (Int.neg_neg _).symm
      | positive => rfl
    change unpackedValue? (Float32.Model.pack (.finite (-s) m e hm)).unpack = _
    rw [unpack_pack_finite hcanonical hm hle, unpackedValue?, hsign, neg_mul]

/-! ## Integers -/

/-- A positive number below `2 ^ 24` is canonical once its leading bit is moved to its place. -/
theorem exists_canonical_natCast {n : Nat} (hpos : 0 < n) (hlt : n < 0x1000000) :
    ∃ c t, Canonical c t ∧ t ≤ 104 ∧ (n : ℚ) = c * 2 ^ t := by
  have hlog : n.log2 < 24 := (Nat.log2_lt (k := 24) hpos.ne').2 hlt
  have hscale : 2 ^ n.log2 * 2 ^ (23 - n.log2) = 0x800000 := by
    rw [← Nat.pow_add, Nat.add_sub_cancel' (by omega)]
  refine ⟨n * 2 ^ (23 - n.log2), -(23 - n.log2 : Nat), ⟨?_, ?_, ?_⟩, by omega, ?_⟩
  · change -149 ≤ _
    omega
  · calc n * 2 ^ (23 - n.log2)
        < 2 ^ (n.log2 + 1) * 2 ^ (23 - n.log2) :=
          Nat.mul_lt_mul_of_pos_right Nat.lt_log2_self (Nat.two_pow_pos _)
      _ = 2 * Text.Binary32.normalMantissa := by
          rw [Nat.pow_succ', Nat.mul_assoc, hscale]
          rfl
  · intro _
    exact hscale.symm.le.trans (Nat.mul_le_mul_right _ (Nat.log2_self_le hpos.ne'))
  · push_cast
    rw [mul_assoc, ← zpow_natCast, ← zpow_add₀ (by norm_num)]
    simp

/-- There is a number for every integer up to `2 ^ 24` in absolute value. -/
theorem representable_intCast {a : Int} (h : |a| ≤ 0x1000000) : Representable (a : ℚ) := by
  have habs : |(a : ℚ)| = (a.natAbs : ℚ) := by rw [Nat.cast_natAbs, Int.cast_abs]
  have hle : a.natAbs ≤ 0x1000000 := by
    obtain ⟨hlow, hhigh⟩ := abs_le.1 h
    omega
  unfold Representable
  rw [habs]
  generalize a.natAbs = n at hle
  rcases Nat.eq_zero_or_pos n with rfl | hpos
  · exact ⟨0, -149, ⟨le_refl _, by decide, fun hlt => absurd hlt (by decide)⟩, by decide, by simp⟩
  · rcases Nat.eq_or_lt_of_le hle with rfl | hlt
    · exact ⟨0x800000, 1, ⟨by decide, by decide, fun _ => le_refl _⟩, by decide, by norm_num⟩
    · exact exists_canonical_natCast hpos hlt

/-- Without a power of ten an integer is scaled up and rounded. -/
theorem ofScientific_zero {n : Nat} (hn : 0 < n) :
    UnpackedFloat.ofScientific .binary32 n 0
      = UnpackedFloat.roundWithAccuracy .binary32 .positive (n <<< 24) (-24) .exact := by
  have hsize : (0 : Int) < 2 ^ Format.binary32.exponentBits := by decide
  unfold UnpackedFloat.ofScientific
  rw [dif_neg hn.ne', if_neg (by decide), if_neg (by omega), if_pos (by decide)]
  change UnpackedFloat.roundWithAccuracy .binary32 .positive (n <<< 24 * 1) (-24) .exact = _
  rw [Nat.mul_one]

/-- The scale is made up for by the exponent, so an integer for which there is a number is kept. -/
theorem unpackedValue?_roundWithAccuracy_shiftLeft {n : Nat} (hn : 0 < n)
    (h : Representable (n : ℚ)) :
    unpackedValue? (Float32.Model.pack
      (UnpackedFloat.roundWithAccuracy .binary32 .positive (n <<< 24) (-24) .exact)).unpack
        = some (n : ℚ) := by
  have hscale : ((n <<< 24 : Nat) : ℚ) * 2 ^ (-24 : Int) = n := by
    rw [Nat.shiftLeft_eq, Nat.cast_mul, mul_assoc]
    norm_num
  have hpos : 0 < n <<< 24 := by
    rw [Nat.shiftLeft_eq]
    exact Nat.mul_pos hn (Nat.two_pow_pos _)
  rw [← hscale] at h
  obtain ⟨c, t, hcanonical, hc, ht, hvalue⟩ := h.exists_canonical hpos
  have hexponent : -24 ≤ t := by
    have htarget := (canonical_iff hc).1 hcanonical
    rw [← totalExponent_eq (e := 0) hn hc (by rw [zpow_zero, mul_one, ← hscale, hvalue])] at htarget
    have hlow : (n.log2 : Int) + 1 + 0 - 24 ≤ t := htarget ▸ le_max_left _ _
    omega
  rw [roundWithAccuracy_eq hcanonical hc hpos hvalue hexponent, unpack_pack_finite hcanonical hc ht,
    unpackedValue?, ← apply_mul_eq .positive hvalue]
  exact congrArg some hscale

/-- A natural number up to `2 ^ 24` is turned into a number without a change. -/
theorem value?_ofNat {n : Nat} (h : n ≤ 0x1000000) : value? (Float32.ofNat n) = some (n : ℚ) := by
  have hrepresentable : Representable (n : ℚ) := by
    have habs : |(n : Int)| ≤ 0x1000000 := by
      rw [abs_of_nonneg (Int.natCast_nonneg n)]
      omega
    exact_mod_cast representable_intCast habs
  change value? (Float32.ofScientific n false 0) = _
  unfold Float32.ofScientific
  by_cases hsmall : n < 2 ^ 23 ∧ 0 ≤ 10
  · have hone : Float32.exactlyRepresentablePowersOfTen[0] = 1.0 := rfl
    have hnat : n.toUInt64.toNat = n := UInt64.toNat_ofNat_of_lt' (by change n < 2 ^ 64; omega)
    rw [dif_pos hsmall]
    change value? (n.toUInt64.toFloat32 * Float32.exactlyRepresentablePowersOfTen[0]) = _
    rw [hone, value?_mul_one]
    change unpackedValue? (Float32.Model.pack
      (UnpackedFloat.normalize .binary32 (n.toUInt64.toNat : Int) 0 .positive)).unpack = _
    rw [hnat, unpackedValue?_normalize (by simpa using hrepresentable)]
    simp
  · have hpos : 0 < n := by omega
    rw [dif_neg hsmall]
    change unpackedValue? (Float32.Model.pack
      (UnpackedFloat.ofScientific .binary32 n 0)).unpack = _
    rw [ofScientific_zero hpos]
    exact unpackedValue?_roundWithAccuracy_shiftLeft hpos hrepresentable

/-- An integer up to `2 ^ 24` in absolute value is turned into a number without a change. -/
theorem value?_ofInt {a : Int} (h : |a| ≤ 0x1000000) :
    value? (Float32.ofInt a) = some (a : ℚ) := by
  obtain ⟨hlow, hhigh⟩ := abs_le.1 h
  cases a with
  | ofNat n =>
      have hle : (n : Int) ≤ 0x1000000 := hhigh
      change value? (Float32.ofNat n) = _
      rw [value?_ofNat (by omega)]
      simp
  | negSucc n =>
      change value? (-Float32.ofNat (n + 1)) = _
      rw [value?_neg (value?_ofNat (by omega)), Int.cast_negSucc]

/-- The number stands for the integer. -/
def IsInteger (x : Float32) (a : Int) : Prop :=
  value? x = some (a : ℚ)

namespace IsInteger

variable {a b : Int}

theorem zero : IsInteger 0.0 0 := by
  have hzero : (0.0 : Float32).toModel.unpack = .zero .positive := rfl
  rw [IsInteger, value?, hzero, unpackedValue?, Int.cast_zero]

theorem mul_one (hx : IsInteger x a) : IsInteger (x * 1.0) a :=
  (value?_mul_one x).trans hx

/-- Integers are added exactly if their absolute values add up to at most `2 ^ 24`. -/
theorem add (hx : IsInteger x a) (hy : IsInteger y b) (h : |a| + |b| ≤ 0x1000000) :
    IsInteger (x + y) (a + b) := by
  have hrepresentable := representable_intCast ((abs_add_le a b).trans h)
  rw [Int.cast_add] at hrepresentable
  rw [IsInteger, value?_add hx hy hrepresentable, Int.cast_add]

/-- An integer up to `2 ^ 24` in absolute value is told by equality. -/
theorem beq_ofInt (hx : IsInteger x a) (h : |a| ≤ 0x1000000) : (x == Float32.ofInt a) = true :=
  float_beq_of_value?_eq hx (value?_ofInt h)

end IsInteger

end WindowReduction
