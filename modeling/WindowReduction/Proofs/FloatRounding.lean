import Mathlib
import WindowReduction.Proofs.FloatLiteral

/-!
# Rounding and packing of representable numbers

An operation on single-precision numbers computes a mantissa and an exponent, brings these to the
exponent that the format has for a number of this size, and packs them into bits. A number that has
a mantissa and an exponent of the format goes through all of this unchanged: no bit that is shifted
out is set, and the packed bits are unpacked to the same mantissa and exponent.

Main statements: `canonical_iff` (the exponent of the format), `roundWithAccuracy_eq`,
`unpack_pack_finite` (rounding and packing lose nothing) and `canonical_of_unpack`.
-/

namespace WindowReduction

open Float.Model (Format UnpackedFloat totalExponent)
open Float.Model.UnpackedFloat (Sign ExtendedMantissa)
open Text (Binary32)

variable {m m' c : Nat} {e e' t : Int} {s : Sign}

/-! ## The exponent of a number -/

/-- The leading bit of a mantissa bounds the number. -/
theorem two_zpow_log2_le (hm : 0 < m) (e : Int) :
    (2 : ℚ) ^ (m.log2 + e) ≤ m * 2 ^ e ∧ (m : ℚ) * 2 ^ e < 2 ^ (m.log2 + e + 1) := by
  have hpos : (0 : ℚ) < 2 ^ e := zpow_pos (by norm_num) e
  have hlow : (2 : ℚ) ^ m.log2 ≤ m := by exact_mod_cast Nat.log2_self_le hm.ne'
  have hhigh : (m : ℚ) < 2 ^ (m.log2 + 1) := by exact_mod_cast Nat.lt_log2_self
  constructor
  · rw [zpow_add₀ (by norm_num), zpow_natCast]
    exact mul_le_mul_of_nonneg_right hlow hpos.le
  · have hexponent : (m.log2 : Int) + e + 1 = ((m.log2 + 1 : Nat) : Int) + e := by omega
    rw [hexponent, zpow_add₀ (by norm_num), zpow_natCast]
    exact mul_lt_mul_of_pos_right hhigh hpos

/-- The position of the leading bit does not depend on how a number is written. -/
theorem totalExponent_eq (hm : 0 < m) (hm' : 0 < m') (h : (m : ℚ) * 2 ^ e = m' * 2 ^ e') :
    totalExponent m e = totalExponent m' e' := by
  obtain ⟨hlow, hhigh⟩ := two_zpow_log2_le hm e
  obtain ⟨hlow', hhigh'⟩ := two_zpow_log2_le hm' e'
  rw [h] at hlow hhigh
  have hlt : (m.log2 : Int) + e < m'.log2 + e' + 1 :=
    (zpow_lt_zpow_iff_right₀ (by norm_num : (1 : ℚ) < 2)).1 (hlow.trans_lt hhigh')
  have hlt' : (m'.log2 : Int) + e' < m.log2 + e + 1 :=
    (zpow_lt_zpow_iff_right₀ (by norm_num : (1 : ℚ) < 2)).1 (hlow'.trans_lt hhigh)
  unfold totalExponent
  omega

/-- A mantissa and an exponent are canonical when the exponent is the one that the format has for
the number. -/
theorem canonical_iff (hm : 0 < m) :
    Canonical m e ↔ Format.binary32.targetExponent (totalExponent m e) = e := by
  have htarget : Format.binary32.targetExponent (totalExponent m e)
      = max ((m.log2 : Int) + 1 + e - 24) (-149) := rfl
  have hmin : Binary32.minExponent = -149 := rfl
  have hnormal : Binary32.normalMantissa = 0x800000 := rfl
  have hshort : m < 2 * 0x800000 ↔ m.log2 < 24 := (Nat.log2_lt (k := 24) hm.ne').symm
  have hlong : 0x800000 ≤ m ↔ 23 ≤ m.log2 := (Nat.le_log2 (k := 23) hm.ne').symm
  rw [htarget]
  constructor
  · rintro ⟨hle, hlt, hmantissa⟩
    rw [hmin] at hle hmantissa
    rw [hnormal, hshort] at hlt
    rw [hnormal, hlong] at hmantissa
    omega
  · intro h
    refine ⟨?_, ?_, ?_⟩
    · rw [hmin]
      omega
    · rw [hnormal, hshort]
      omega
    · rw [hmin, hnormal, hlong]
      omega

/-- A number has one canonical mantissa and exponent. -/
theorem Canonical.eq_of_value_eq (h : Canonical m e) (h' : Canonical m' e') (hm : 0 < m)
    (hm' : 0 < m') (hvalue : (m : ℚ) * 2 ^ e = m' * 2 ^ e') : m = m' ∧ e = e' := by
  have he : e = e' := by
    rw [← (canonical_iff hm).1 h, ← (canonical_iff hm').1 h', totalExponent_eq hm hm' hvalue]
  subst he
  have hne : (2 : ℚ) ^ e ≠ 0 := (zpow_pos (by norm_num) e).ne'
  exact ⟨Nat.cast_injective (mul_right_cancel₀ hne hvalue), rfl⟩

/-! ## Rounding -/

/-- Shifting out zeros loses nothing. -/
theorem shiftRight_mul_pow (c k : Nat) :
    (⟨c * 2 ^ k, false, false⟩ : ExtendedMantissa) >>> k = ⟨c, false, false⟩ := by
  change k.repeat ExtendedMantissa.shiftRightOne _ = _
  induction k generalizing c with
  | zero => rw [Nat.repeat, Nat.pow_zero, Nat.mul_one]
  | succ k ih =>
      -- The last of the shifts takes out the one factor that is left.
      rw [Nat.repeat, Nat.pow_succ, ← Nat.mul_assoc, Nat.mul_right_comm, ih]
      simp [ExtendedMantissa.shiftRightOne]

/-- Bringing a number to its exponent gives the canonical mantissa, without a rest. -/
theorem shiftToTargetExponent_eq (h : Canonical c t) (hc : 0 < c) (hm : 0 < m)
    (hvalue : (m : ℚ) * 2 ^ e = c * 2 ^ t) (he : e ≤ t) :
    UnpackedFloat.shiftToTargetExponent .binary32 m e .exact = (⟨c, false, false⟩, t) := by
  obtain ⟨k, rfl⟩ : ∃ k : Nat, t = e + k := ⟨(t - e).toNat, by omega⟩
  have hmantissa : m = c * 2 ^ k := by
    rw [zpow_add₀ (by norm_num), zpow_natCast, mul_left_comm, mul_comm ((2 : ℚ) ^ e)] at hvalue
    have hcast := mul_right_cancel₀ (zpow_pos (by norm_num : (0 : ℚ) < 2) e).ne' hvalue
    exact_mod_cast hcast
  have htarget := (canonical_iff hc).1 h
  rw [← totalExponent_eq hm hc hvalue] at htarget
  have hshift : (e + (k : Int) - e).toNat = k := by omega
  unfold UnpackedFloat.shiftToTargetExponent UnpackedFloat.shiftToExponent
  rw [htarget]
  simp only [hshift]
  rw [hmantissa]
  exact congrArg₂ Prod.mk (shiftRight_mul_pow c k) rfl

/-- Rounding a number that has a canonical mantissa and exponent gives these. -/
theorem roundWithAccuracy_eq (h : Canonical c t) (hc : 0 < c) (hm : 0 < m)
    (hvalue : (m : ℚ) * 2 ^ e = c * 2 ^ t) (he : e ≤ t) (s : Sign) :
    UnpackedFloat.roundWithAccuracy .binary32 s m e .exact = .finite s c t hc := by
  have hround : (⟨c, false, false⟩ : ExtendedMantissa).roundedMantissa = c := rfl
  unfold UnpackedFloat.roundWithAccuracy
  rw [shiftToTargetExponent_eq h hc hm hvalue he]
  simp only [hround, shiftToTargetExponent_eq h hc hc rfl le_rfl, dif_neg hc.ne']

/-- A smaller exponent is made up for by the mantissa. -/
theorem value_decreaseExponent (m : Nat) (e t : Int) :
    ((UnpackedFloat.decreaseExponent m e t).1 : ℚ) * 2 ^ (UnpackedFloat.decreaseExponent m e t).2
        = m * 2 ^ e
      ∧ (UnpackedFloat.decreaseExponent m e t).2 = min e t := by
  change ((m <<< (e - t).toNat : Nat) : ℚ) * 2 ^ (e - ((e - t).toNat : Int)) = m * 2 ^ e
    ∧ e - ((e - t).toNat : Int) = min e t
  constructor
  · rw [Nat.shiftLeft_eq, zpow_sub₀ (by norm_num), zpow_natCast]
    push_cast
    field_simp
  · omega

/-- The same with an exponent that may still be too large. -/
theorem round_eq (h : Canonical c t) (hc : 0 < c) (hm : 0 < m)
    (hvalue : (m : ℚ) * 2 ^ e = c * 2 ^ t) (s : Sign) :
    UnpackedFloat.round .binary32 s m e = .finite s c t hc := by
  have htarget := (canonical_iff hc).1 h
  rw [← totalExponent_eq hm hc hvalue] at htarget
  obtain ⟨hkeep, hmin⟩ := value_decreaseExponent m e t
  have hpos : 0 < (UnpackedFloat.decreaseExponent m e t).1 := by
    change 0 < m <<< (e - t).toNat
    rw [Nat.shiftLeft_eq]
    exact Nat.mul_pos hm (Nat.two_pow_pos _)
  unfold UnpackedFloat.round
  simp only [htarget]
  exact roundWithAccuracy_eq h hc hpos (hkeep.trans hvalue) (hmin ▸ min_le_right e t) s

/-! ## Packing -/

theorem finite_congr {hm : 0 < m} {hm' : 0 < m'} (h : m = m') (he : e = e') :
    UnpackedFloat.finite s m e hm = .finite s m' e' hm' := by
  subst h he
  rfl

/-- Where the exponent is neither the least nor the greatest, the mantissa gets back its leading
bit. -/
theorem unpack_packComponents_normal {spec : Format} (s : Sign)
    {exponent : BitVec spec.exponentBits} {mantissa : BitVec spec.mantissaBitsWithoutImplicit}
    (hmax : exponent ≠ -1#_) (hzero : exponent ≠ 0#_) (hpos : 0 < (1#1 ++ mantissa).toNat) :
    UnpackedFloat.unpack spec (UnpackedFloat.packComponents spec s exponent mantissa)
      = .finite s (1#1 ++ mantissa).toNat
          ((exponent.toNat : Int) - (spec.exponentBias + spec.mantissaBitsWithoutImplicit)) hpos := by
  simp only [UnpackedFloat.unpack, UnpackedFloat.unpackExponent_packComponents,
    UnpackedFloat.unpackMantissa_packComponents, UnpackedFloat.unpackSign_packComponents,
    Sign.ofBitVec_toBitVec, if_neg hmax, if_neg hzero]

/-- Where the exponent is the least, the mantissa has no more bits than are written. -/
theorem unpack_packComponents_subnormal {spec : Format} (s : Sign)
    {mantissa : BitVec spec.mantissaBitsWithoutImplicit} (hpos : 0 < mantissa.toNat) :
    UnpackedFloat.unpack spec (UnpackedFloat.packComponents spec s 0#_ mantissa)
      = .finite s mantissa.toNat
          (1 - ((spec.exponentBias : Int) + spec.mantissaBitsWithoutImplicit)) hpos := by
  have hmax : BitVec.ofNat spec.exponentBits 0 ≠ -1#_ := by
    simp only [Ne, ← BitVec.toNat_inj, BitVec.neg_one_eq_allOnes, BitVec.toNat_allOnes,
      BitVec.toNat_zero]
    have hbits := Nat.pow_le_pow_right (n := 2) (by decide) spec.he
    omega
  have hne : mantissa ≠ 0#_ := by
    rintro rfl
    exact Nat.lt_irrefl 0 hpos
  simp only [UnpackedFloat.unpack, UnpackedFloat.unpackExponent_packComponents,
    UnpackedFloat.unpackMantissa_packComponents, UnpackedFloat.unpackSign_packComponents,
    Sign.ofBitVec_toBitVec, if_neg hmax, if_true, dif_neg hne]
  exact finite_congr rfl (by rw [BitVec.toNat_zero]; omega)

/-- The leading bit stands before the bits that are written. -/
theorem toNat_one_append (mantissa : BitVec 23) :
    (1#1 ++ mantissa).toNat = 0x800000 + mantissa.toNat := by
  rw [BitVec.toNat_append, ← Nat.shiftLeft_add_eq_or_of_lt mantissa.isLt]
  rfl

/-- The difference between the exponent of a number and the one that is written. -/
theorem exponentOffset : (Format.binary32.exponentBias : Int)
    + (Format.binary32.mantissaBitsWithoutImplicit : Nat) = 150 :=
  rfl

theorem unpack_pack_zero (s : Sign) : (Float32.Model.pack (.zero s)).unpack = .zero s := by
  cases s <;> rfl

/-- Packing keeps a canonical number that is not too large. -/
theorem unpack_pack_finite (h : Canonical c t) (hc : 0 < c) (ht : t ≤ 104) (s : Sign) :
    (Float32.Model.pack (.finite s c t hc)).unpack = .finite s c t hc := by
  have hleast : -149 ≤ t := h.minExponent_le
  have hlt : c < 0x1000000 := h.mantissa_lt
  have hbits : Format.binary32.mantissaBits = 24 := rfl
  have hbiased : t + (Format.binary32.exponentBias : Int) + (23 : Nat) = t + 150 := by
    rw [Int.add_assoc, exponentOffset]
  have hfits : ¬ 2 ^ 8 ≤ (t + 150).toNat + 1 := by omega
  change UnpackedFloat.unpack .binary32 (UnpackedFloat.pack .binary32 (.finite s c t hc)) = _
  simp only [UnpackedFloat.pack, hbiased]
  rw [if_neg hfits, hbits]
  by_cases hlong : 0x800000 ≤ c
  · have hlog : c.log2 + 1 = 24 := by
      have hlow := (Nat.le_log2 (k := 23) hc.ne').2 hlong
      have hhigh := (Nat.log2_lt (k := 24) hc.ne').2 hlt
      omega
    have hmantissa : 0x800000 + c % 0x800000 = c := by omega
    have hexponent : (BitVec.ofNat 8 (t + 150).toNat).toNat = (t + 150).toNat := by
      rw [BitVec.toNat_ofNat]
      omega
    have hmax : BitVec.ofNat 8 (t + 150).toNat ≠ -1#8 := by
      intro heq
      have hall : (BitVec.ofNat 8 (t + 150).toNat).toNat = 255 := congrArg BitVec.toNat heq
      omega
    have hzero : BitVec.ofNat 8 (t + 150).toNat ≠ 0#8 := by
      intro heq
      have hnone : (BitVec.ofNat 8 (t + 150).toNat).toNat = 0 := congrArg BitVec.toNat heq
      omega
    have hvalue : (1#1 ++ BitVec.ofNat 23 c).toNat = c := by
      rw [toNat_one_append, BitVec.toNat_ofNat]
      exact hmantissa
    rw [if_pos hlog, unpack_packComponents_normal s hmax hzero (hc.trans_eq hvalue.symm)]
    apply finite_congr
    · exact hvalue
    · rw [hexponent, exponentOffset]
      omega
  · -- A short mantissa has the least exponent.
    have hlog : ¬ c.log2 + 1 = 24 := by
      have hhigh := (Nat.log2_lt (k := 23) hc.ne').2 (Nat.lt_of_not_le hlong)
      omega
    have hexponent : t = -149 := by
      have hnot : ¬ -149 < t := mt h.normal hlong
      omega
    have hmantissa : (BitVec.ofNat 23 c).toNat = c := by
      rw [BitVec.toNat_ofNat]
      omega
    have hpos : 0 < (BitVec.ofNat 23 c).toNat := hc.trans_eq hmantissa.symm
    rw [if_neg hlog, @unpack_packComponents_subnormal .binary32 s (BitVec.ofNat 23 c) hpos]
    apply finite_congr hmantissa
    rw [exponentOffset, hexponent]
    rfl

/-- What is unpacked is canonical and not too large. -/
theorem canonical_of_unpack {bits : BitVec 32} {hm : 0 < m}
    (h : UnpackedFloat.unpack .binary32 bits = .finite s m e hm) : Canonical m e ∧ e ≤ 104 := by
  have hexponent : (@UnpackedFloat.unpackExponent .binary32 bits).toNat < 256 :=
    BitVec.isLt _
  have hmantissa : (@UnpackedFloat.unpackMantissa .binary32 bits).toNat < 0x800000 :=
    BitVec.isLt _
  have hmin : Binary32.minExponent = -149 := rfl
  have hnormal : Binary32.normalMantissa = 0x800000 := rfl
  unfold UnpackedFloat.unpack at h
  by_cases hmax : @UnpackedFloat.unpackExponent .binary32 bits = -1#8
  · rw [if_pos hmax] at h
    split at h <;> cases h
  · rw [if_neg hmax] at h
    have hne : (@UnpackedFloat.unpackExponent .binary32 bits).toNat ≠ 255 :=
      fun heq => hmax (BitVec.eq_of_toNat_eq heq)
    by_cases hzero : @UnpackedFloat.unpackExponent .binary32 bits = 0#8
    · rw [if_pos hzero] at h
      split at h
      · cases h
      · have hnone : ((@UnpackedFloat.unpackExponent .binary32 bits).toNat : Int) = 0 := by
          rw [hzero]
          rfl
        rw [exponentOffset, hnone] at h
        cases h
        exact ⟨⟨by decide, by omega, fun hlt => absurd hlt (by decide)⟩, by decide⟩
    · rw [if_neg hzero] at h
      have hpos : (@UnpackedFloat.unpackExponent .binary32 bits).toNat ≠ 0 :=
        fun heq => hzero (BitVec.eq_of_toNat_eq heq)
      rw [exponentOffset] at h
      cases h
      rw [toNat_one_append]
      refine ⟨⟨?_, ?_, fun _ => Nat.le_add_right _ _⟩, by omega⟩
      · rw [hmin]
        omega
      · rw [hnormal]
        omega

end WindowReduction
