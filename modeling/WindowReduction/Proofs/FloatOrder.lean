import Mathlib.Data.Prod.Lex
import WindowReduction.Kind

/-!
# The order of single-precision numbers

Comparison of floating-point numbers looks at the sign, then at the exponent and then at the
mantissa. Numbers other than NaN are therefore ordered linearly, up to the two zeros, by the place
that `position?` reads off them. Nothing else is needed of the format: the laws hold of unpacked
numbers in whatever form they are.

Main statements: `float_le_trans` and `float_lt_iff_not_le` (comparison is a linear order away from
NaN), `float_beq_iff` (numerical equality is the equality of that order).
-/

namespace WindowReduction

open Float.Model (UnpackedFloat)

/-! ## Places -/

/-- A place in the order: the class of a number counts first, then its exponent, then its
mantissa. -/
def place (cls e m : Int) : Int ×ₗ Int ×ₗ Int :=
  toLex (cls, toLex (e, m))

/-- The place of an unpacked number. Below zero the larger exponent and mantissa come first, and a
NaN has no place. -/
def unpackedPosition? : UnpackedFloat → Option (Int ×ₗ Int ×ₗ Int)
  | .notANumber => none
  | .infinity .negative => some (place (-2) 0 0)
  | .finite .negative m e _ => some (place (-1) (-e) (-m))
  | .zero _ => some (place 0 0 0)
  | .finite .positive m e _ => some (place 1 e m)
  | .infinity .positive => some (place 2 0 0)

/-- The place of a number in the order. -/
def position? (x : Float32) : Option (Int ×ₗ Int ×ₗ Int) :=
  unpackedPosition? x.toModel.unpack

theorem compare_place (cls e m e' m' : Int) :
    compare (place cls e m) (place cls e' m') = (compare e e').then (compare m m') := by
  change (compare cls cls).then ((compare e e').then (compare m m')) = _
  rw [Std.ReflOrd.compare_self]
  rfl

theorem compare_natCast (m n : Nat) : compare (m : Int) (n : Int) = compare m n := by
  rcases Nat.lt_trichotomy m n with hlt | rfl | hgt
  · rw [compare_lt_iff_lt.2 hlt, compare_lt_iff_lt.2 (Int.ofNat_lt.2 hlt)]
  · rw [Std.ReflOrd.compare_self, Std.ReflOrd.compare_self]
  · rw [compare_gt_iff_gt.2 hgt, compare_gt_iff_gt.2 (Int.ofNat_lt.2 hgt)]

theorem compare_neg (m n : Int) : compare (-m) (-n) = (compare m n).swap := by
  rcases Int.lt_trichotomy m n with hlt | rfl | hgt
  · rw [compare_lt_iff_lt.2 hlt, compare_gt_iff_gt.2 (Int.neg_lt_neg hlt)]
    rfl
  · rw [Std.ReflOrd.compare_self, Std.ReflOrd.compare_self]
    rfl
  · rw [compare_gt_iff_gt.2 hgt, compare_lt_iff_lt.2 (Int.neg_lt_neg hgt)]
    rfl

/-- Comparison of unpacked numbers is comparison of their places; a NaN compares with nothing. -/
theorem unpacked_compare_eq (a b : UnpackedFloat) :
    a.compare b =
      (unpackedPosition? a).bind fun i => (unpackedPosition? b).map fun j => compare i j := by
  -- Only two finite numbers of one sign are told apart by more than their classes.
  rcases a with (_ | _) | _ | (_ | _) | ⟨_ | _, m, e, hm⟩ <;>
    rcases b with (_ | _) | _ | (_ | _) | ⟨_ | _, m', e', hm'⟩ <;> try rfl
  · have h := compare_place (-1) (-e) (-m) (-e') (-m')
    rw [compare_neg, compare_neg, compare_natCast, ← Ordering.swap_then] at h
    exact congrArg some h.symm
  · have h := compare_place 1 e m e' m'
    rw [compare_natCast] at h
    exact congrArg some h.symm

/-! ## Comparisons as comparisons of places -/

variable {x y z : Float32}

/-- Comparison of two numbers gives a result exactly when both have a place. -/
theorem compare_eq_some_iff (o : Ordering) :
    x.toModel.unpack.compare y.toModel.unpack = some o ↔
      ∃ i j, position? x = some i ∧ position? y = some j ∧ compare i j = o := by
  rw [unpacked_compare_eq]
  change (position? x).bind _ = some o ↔ _
  constructor
  · intro h
    rcases Option.bind_eq_some_iff.1 h with ⟨i, hi, h⟩
    rcases Option.map_eq_some_iff.1 h with ⟨j, hj, h⟩
    exact ⟨i, j, hi, hj, h⟩
  · rintro ⟨i, j, hi, hj, h⟩
    exact Option.bind_eq_some_iff.2 ⟨i, hi, Option.map_eq_some_iff.2 ⟨j, hj, h⟩⟩

theorem float_lt_iff_position :
    x < y ↔ ∃ i j, position? x = some i ∧ position? y = some j ∧ i < j := by
  have hdef : x < y ↔ x.toModel.unpack.compare y.toModel.unpack = some .lt := by
    change decide (_ = true) = true ↔ _
    rw [decide_eq_true_iff]
    exact beq_iff_eq
  rw [hdef, compare_eq_some_iff]
  simp only [compare_lt_iff_lt]

theorem float_le_iff_position :
    x ≤ y ↔ ∃ i j, position? x = some i ∧ position? y = some j ∧ i ≤ j := by
  have hdef : x ≤ y ↔ ∃ o, x.toModel.unpack.compare y.toModel.unpack = some o ∧ o.isLE := by
    change decide (_ = true) = true ↔ _
    rw [decide_eq_true_iff]
    exact Option.any_eq_true _ _
  rw [hdef]
  simp only [compare_eq_some_iff]
  constructor
  · rintro ⟨o, ⟨i, j, hi, hj, rfl⟩, hle⟩
    exact ⟨i, j, hi, hj, compare_le_iff_le.1 (Ordering.ne_gt_iff_isLE.2 hle)⟩
  · rintro ⟨i, j, hi, hj, hle⟩
    exact ⟨compare i j, ⟨i, j, hi, hj, rfl⟩, Ordering.ne_gt_iff_isLE.1 (compare_le_iff_le.2 hle)⟩

theorem float_beq_iff_position :
    (x == y) = true ↔ ∃ i, position? x = some i ∧ position? y = some i := by
  have hdef : (x == y) = true ↔ x.toModel.unpack.compare y.toModel.unpack = some .eq := by
    change (x.toModel.unpack.compare y.toModel.unpack == some .eq) = true ↔ _
    exact beq_iff_eq
  rw [hdef, compare_eq_some_iff]
  constructor
  · rintro ⟨i, j, hi, hj, h⟩
    rw [compare_eq_iff_eq] at h
    exact ⟨i, hi, h ▸ hj⟩
  · rintro ⟨i, hi, hj⟩
    exact ⟨i, i, hi, hj, compare_eq_iff_eq.2 rfl⟩

/-- A number has a place exactly when it is no NaN. -/
theorem isNaN_eq_false_iff_position : x.isNaN = false ↔ ∃ i, position? x = some i := by
  change x.toModel.unpack.isNaN = false ↔ ∃ i, unpackedPosition? x.toModel.unpack = some i
  generalize x.toModel.unpack = a
  constructor
  · intro h
    rcases a with (_ | _) | _ | (_ | _) | ⟨_ | _, m, e, hm⟩
    case notANumber => cases h
    all_goals exact ⟨_, rfl⟩
  · rintro ⟨i, hi⟩
    cases a with
    | notANumber => cases hi
    | infinity | zero | finite => rfl

/-! ## The order -/

theorem float_le_trans (hxy : x ≤ y) (hyz : y ≤ z) : x ≤ z := by
  obtain ⟨i, j, hi, hj, hij⟩ := float_le_iff_position.1 hxy
  obtain ⟨j', k, hj', hk, hjk⟩ := float_le_iff_position.1 hyz
  have hjj : j = j' := Option.some.inj (hj.symm.trans hj')
  exact float_le_iff_position.2 ⟨i, k, hi, hk, hij.trans (hjj ▸ hjk)⟩

theorem float_le_refl (hx : x.isNaN = false) : x ≤ x := by
  obtain ⟨i, hi⟩ := isNaN_eq_false_iff_position.1 hx
  exact float_le_iff_position.2 ⟨i, i, hi, hi, le_refl i⟩

theorem float_le_of_lt (h : x < y) : x ≤ y := by
  obtain ⟨i, j, hi, hj, hij⟩ := float_lt_iff_position.1 h
  exact float_le_iff_position.2 ⟨i, j, hi, hj, hij.le⟩

/-- Away from NaN, being less is not being at least. -/
theorem float_lt_iff_not_le (hx : x.isNaN = false) (hy : y.isNaN = false) :
    x < y ↔ ¬ y ≤ x := by
  obtain ⟨i, hi⟩ := isNaN_eq_false_iff_position.1 hx
  obtain ⟨j, hj⟩ := isNaN_eq_false_iff_position.1 hy
  rw [float_lt_iff_position, float_le_iff_position]
  simp [hi, hj]

/-- Two numbers are numerically equal exactly when each is at most the other. -/
theorem float_beq_iff : (x == y) = true ↔ x ≤ y ∧ y ≤ x := by
  rw [float_beq_iff_position, float_le_iff_position, float_le_iff_position]
  constructor
  · rintro ⟨i, hx, hy⟩
    exact ⟨⟨i, i, hx, hy, le_refl i⟩, ⟨i, i, hy, hx, le_refl i⟩⟩
  · rintro ⟨⟨i, j, hx, hy, hij⟩, ⟨j', i', hy', hx', hji⟩⟩
    have hi : i = i' := Option.some.inj (hx.symm.trans hx')
    have hj : j = j' := Option.some.inj (hy.symm.trans hy')
    subst hi hj
    exact ⟨i, hx, le_antisymm hij hji ▸ hy⟩

/-! ## Infinities -/

/-- Every place lies between those of the infinities. -/
theorem position_bounds {i : Int ×ₗ Int ×ₗ Int} (h : position? x = some i) :
    place (-2) 0 0 ≤ i ∧ i ≤ place 2 0 0 := by
  have hlex : ∀ {k l : Int} (e m e' m' : Int), k < l → place k e m ≤ place l e' m' := by
    intro k l e m e' m' hkl
    exact (Prod.Lex.toLex_lt_toLex.2 (Or.inl hkl)).le
  change unpackedPosition? x.toModel.unpack = some i at h
  generalize x.toModel.unpack = a at h
  rcases a with (_ | _) | _ | (_ | _) | ⟨_ | _, m, e, hm⟩ <;> cases h
  · exact ⟨le_refl _, hlex _ _ _ _ (by decide)⟩
  · exact ⟨hlex _ _ _ _ (by decide), le_refl _⟩
  all_goals exact ⟨hlex _ _ _ _ (by decide), hlex _ _ _ _ (by decide)⟩

theorem float_le_infinity (hx : x.isNaN = false) : x ≤ 1.0 / 0.0 := by
  obtain ⟨i, hi⟩ := isNaN_eq_false_iff_position.1 hx
  exact float_le_iff_position.2 ⟨i, place 2 0 0, hi, rfl, (position_bounds hi).2⟩

theorem neg_infinity_float_le (hx : x.isNaN = false) : -1.0 / 0.0 ≤ x := by
  obtain ⟨i, hi⟩ := isNaN_eq_false_iff_position.1 hx
  exact float_le_iff_position.2 ⟨place (-2) 0 0, i, rfl, hi, (position_bounds hi).1⟩

end WindowReduction
