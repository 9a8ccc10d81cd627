import Mathlib.Algebra.BigOperators.Intervals
import Mathlib.Algebra.Order.BigOperators.Group.Finset
import WindowReduction.Proofs.FloatValue
import WindowReduction.Proofs.PlanRun
import WindowReduction.Proofs.WindowFold

/-!
# Sums of integers

Sums of single-precision numbers depend on the order in which they are taken, since each addition
rounds. Integers whose absolute values add up to at most `2 ^ 24` are an exception: whatever part of
them is added up first stays within this bound, so no addition rounds. The windows of a pass are
disjoint parts of a row, hence their sums are such integers again, and the whole row is added up
exactly in however many passes.

Main definitions: `Tensor.HoldsIntegers` (a row of such integers).
Main statements: `Tensor.HoldsIntegers.reduce` (one pass), `Planned.exists_isInteger_reduceAll` (a
chain of passes) and `execute_exact_sum`.
-/

namespace WindowReduction

open Finset (range)

variable {d : Descriptor} {batch threshold n row : Nat} {passes : List Descriptor} {t : Tensor}

/-! ## Groups -/

/-- A group of integers is added up exactly. -/
theorem Kind.isInteger_addGroup {acc : Float32} {g : Vec4 Float32} {s a b c d : Int}
    (hacc : IsInteger acc s) (hx : IsInteger g.x a) (hy : IsInteger g.y b) (hz : IsInteger g.z c)
    (hw : IsInteger g.w d) (h : |s| + (|a| + |b| + |c| + |d|) ≤ 0x1000000) :
    IsInteger (Kind.addGroup acc g) (s + (a + b + c + d)) := by
  have hs := abs_nonneg s
  have ha := abs_nonneg a
  have hb := abs_nonneg b
  have hc := abs_nonneg c
  have hd := abs_nonneg d
  have hab := abs_add_le a b
  have habc := abs_add_le (a + b) c
  have habcd := abs_add_le (a + b + c) d
  have h₁ := IsInteger.zero.add hx.mul_one (by rw [abs_zero]; linarith)
  rw [zero_add] at h₁
  have h₂ := h₁.add hy.mul_one (by linarith)
  have h₃ := h₂.add hz.mul_one (by linarith)
  have h₄ := h₃.add hw.mul_one (by linarith)
  exact hacc.add h₄ (by linarith)

/-- The sum over one more group. -/
theorem sum_range_four_mul_succ (f : Nat → Int) (count : Nat) :
    ∑ j ∈ range (4 * (count + 1)), f j
      = ∑ j ∈ range (4 * count), f j
        + (f (4 * count) + f (4 * count + 1) + f (4 * count + 2) + f (4 * count + 3)) := by
  rw [Nat.mul_succ, Finset.sum_range_succ, Finset.sum_range_succ, Finset.sum_range_succ,
    Finset.sum_range_succ]
  ring

/-- Groups of integers are added up exactly. -/
theorem Kind.isInteger_reduceGroups {p : Nat → Float32} {a : Nat → Int} {count : Nat}
    (hp : ∀ j < 4 * count, IsInteger (p j) (a j))
    (h : ∑ j ∈ range (4 * count), |a j| ≤ 0x1000000) :
    IsInteger (Kind.sum.reduceGroups (groupsOfFour p count)) (∑ j ∈ range (4 * count), a j) := by
  change IsInteger ((groupsOfFour p count).foldl Kind.addGroup 0.0) _
  induction count with
  | zero => exact IsInteger.zero
  | succ count ih =>
      rw [sum_range_four_mul_succ] at h
      have hgroup : 0 ≤ |a (4 * count)| + |a (4 * count + 1)| + |a (4 * count + 2)|
          + |a (4 * count + 3)| := by
        positivity
      -- What is accumulated so far is no larger than the sum of the absolute values so far.
      have hacc := ih (fun j hj => hp j (by omega)) (by linarith)
      have habs := Finset.abs_sum_le_sum_abs a (range (4 * count))
      rw [groupsOfFour_succ, List.foldl_append, sum_range_four_mul_succ]
      exact Kind.isInteger_addGroup hacc (hp _ (by omega)) (hp _ (by omega)) (hp _ (by omega))
        (hp _ (by omega)) (by linarith)

/-! ## Integers followed by zeros -/

/-- The first `n` integers of a sequence, followed by zeros. -/
def zerosFrom (n : Nat) (a : Nat → Int) (j : Nat) : Int :=
  if j < n then a j else 0

/-- The zeros add nothing to a sum, nor do their values under a function that keeps zero. -/
theorem sum_zerosFrom {f : Int → Int} (hf : f 0 = 0) (a : Nat → Int) {stop : Nat} (h : n ≤ stop) :
    ∑ j ∈ range stop, f (zerosFrom n a j) = ∑ j ∈ range n, f (a j) := by
  have hzero : ∀ j, n ≤ j → f (zerosFrom n a j) = 0 := by
    intro j hj
    rw [zerosFrom, if_neg (Nat.not_lt.2 hj), hf]
  rw [Finset.eventually_constant_sum hzero h]
  apply Finset.sum_congr rfl
  intro j hj
  rw [zerosFrom, if_pos (Finset.mem_range.1 hj)]

/-! ## Rows -/

/-- A row of a matrix holds integers whose absolute values add up to at most `2 ^ 24`. The integers
go on with zeros past the end of the row. -/
structure Tensor.HoldsIntegers (t : Tensor) (row : Nat) (a : Nat → Int) : Prop where
  isInteger : ∀ col, IsInteger (t.elementOr 0.0 row col) (a col)
  eq_zero : ∀ col, t.shape.cols ≤ col → a col = 0
  sum_le : ∑ col ∈ range t.shape.cols, |a col| ≤ 0x1000000

variable {a : Nat → Int}

/-- Consecutive windows add up to what they cover. -/
theorem sum_windows (f : Nat → Int) (w count : Nat) :
    ∑ o ∈ range count, ∑ j ∈ range w, f (o * w + j) = ∑ col ∈ range (count * w), f col := by
  induction count with
  | zero => rw [Nat.zero_mul, Finset.sum_range_zero, Finset.sum_range_zero]
  | succ count ih => rw [Finset.sum_range_succ, ih, Nat.succ_mul, Finset.sum_range_add]

namespace Tensor.HoldsIntegers

/-- The bound holds up to any column. -/
theorem sum_abs_range_le (h : t.HoldsIntegers row a) (stop : Nat) :
    ∑ col ∈ range stop, |a col| ≤ 0x1000000 := by
  have hnonneg : ∀ col, 0 ≤ |a col| := fun col => abs_nonneg (a col)
  have hmax := Finset.sum_le_sum_of_subset_of_nonneg
    (Finset.range_mono (le_max_left stop t.shape.cols)) fun col _ _ => hnonneg col
  have hcols : ∑ col ∈ range (max stop t.shape.cols), |a col|
      = ∑ col ∈ range t.shape.cols, |a col| :=
    Finset.eventually_constant_sum (fun col hcol => abs_eq_zero.2 (h.eq_zero col hcol))
      (le_max_right _ _)
  exact (hmax.trans hcols.le).trans h.sum_le

/-- The bound holds for any window. -/
theorem sum_abs_window_le (h : t.HoldsIntegers row a) (w o : Nat) :
    ∑ j ∈ range w, |a (o * w + j)| ≤ 0x1000000 := by
  have hnonneg : 0 ≤ ∑ col ∈ range (o * w), |a col| := Finset.sum_nonneg fun _ _ => abs_nonneg _
  have hsplit := Finset.sum_range_add (fun col => |a col|) (o * w) w
  linarith [h.sum_abs_range_le (o * w + w)]

/-- A window of a row is added up exactly. -/
theorem isInteger_paddedGroups (h : t.HoldsIntegers row a) (hcols : t.shape.cols = n) (w o : Nat) :
    IsInteger (Kind.sum.reduceGroups (Kind.sum.paddedGroups w n t row o))
      (∑ j ∈ range w, a (o * w + j)) := by
  let b := zerosFrom w fun j => a (o * w + j)
  have hgroups : w ≤ 4 * ((w + 3) / 4) := by omega
  have hb : ∀ j, IsInteger (Kind.sum.paddedElement w n t row o j) (b j) := by
    intro j
    rw [Kind.paddedElement_eq hcols]
    by_cases hj : j < w
    · simp only [b, zerosFrom, if_pos hj]
      exact h.isInteger _
    · simp only [b, zerosFrom, if_neg hj]
      exact IsInteger.zero
  have habs : ∑ j ∈ range (4 * ((w + 3) / 4)), |b j| ≤ 0x1000000 :=
    (sum_zerosFrom abs_zero _ hgroups).trans_le (h.sum_abs_window_le w o)
  have hsum : ∑ j ∈ range (4 * ((w + 3) / 4)), b j = ∑ j ∈ range w, a (o * w + j) :=
    sum_zerosFrom (f := id) rfl _ hgroups
  rw [← hsum]
  exact Kind.isInteger_reduceGroups (fun j _ => hb j) habs

/-- The sums of the windows of a row are again integers whose absolute values add up to at most
`2 ^ 24`. -/
theorem reduce (h : t.HoldsIntegers row a) (hkind : d.kind = .sum) (hshape : t.shape = d.inputShape)
    (hrow : row < d.batch) :
    (d.reduce t).HoldsIntegers row fun o => ∑ j ∈ range d.window, a (o * d.window + j) := by
  have hcols : t.shape.cols = d.rowLength := congrArg Shape.cols hshape
  have hpast : ∀ o, d.geometry.outSize ≤ o → ∑ j ∈ range d.window, a (o * d.window + j) = 0 := by
    intro o ho
    have hstart : d.rowLength ≤ o * d.window :=
      Nat.le_of_not_lt (mt (Geometry.lt_outSize_iff d.window_pos).2 (Nat.not_lt.2 ho))
    exact Finset.sum_eq_zero fun j _ => h.eq_zero _ (by omega)
  refine ⟨?_, hpast, ?_⟩
  · intro o
    by_cases ho : o < d.geometry.outSize
    · rw [Descriptor.elementOr_reduce _ hrow ho, hkind]
      exact h.isInteger_paddedGroups hcols d.window o
    · have hout : (d.reduce t).shape.cols ≤ o := Nat.le_of_not_lt ho
      rw [Tensor.elementOr_of_le hout, hpast o (Nat.le_of_not_lt ho)]
      exact IsInteger.zero
  · calc ∑ o ∈ range d.geometry.outSize, |∑ j ∈ range d.window, a (o * d.window + j)|
        ≤ ∑ o ∈ range d.geometry.outSize, ∑ j ∈ range d.window, |a (o * d.window + j)| :=
          Finset.sum_le_sum fun o _ => Finset.abs_sum_le_sum_abs _ _
      _ = ∑ col ∈ range (d.geometry.outSize * d.window), |a col| :=
          sum_windows (fun col => |a col|) _ _
      _ ≤ 0x1000000 := h.sum_abs_range_le _

end Tensor.HoldsIntegers

/-! ## Chains of passes -/

/-- A chain of passes adds up a row exactly. -/
theorem Planned.exists_isInteger_reduceAll (h : Planned .sum batch threshold n passes)
    (hshape : t.shape = ⟨batch, n⟩) (ht : t.HoldsIntegers row a) (hn : 0 < n) (hrow : row < batch) :
    ∃ y, (Plan.reduceAll passes t).at? row 0 = some y
      ∧ IsInteger y (∑ col ∈ range n, a col) := by
  induction h generalizing t a with
  | @last n d hnew hout =>
      have hdvd := Planned.window_dvd_of_new hnew
      have hlast := Descriptor.outSize_eq_min hdvd hout
      have hwindow := Descriptor.outSize_mul_window hdvd
      rcases Descriptor.new_eq_ok_iff.1 hnew with ⟨hkind, -, rfl, rfl⟩
      have hone : d.geometry.outSize = 1 := by omega
      have ho : 0 < d.geometry.outSize := by omega
      rw [hone, Nat.one_mul] at hwindow
      -- The one window is the whole row.
      have hsum := ht.isInteger_paddedGroups (congrArg Shape.cols hshape) d.window 0
      simp only [Nat.zero_mul, Nat.zero_add, hwindow] at hsum
      show ∃ y, (d.reduce t).at? row 0 = some y ∧ _
      refine ⟨_, Tensor.at?_ofFn hrow ho, ?_⟩
      rw [hkind, hwindow]
      exact hsum
  | @more n d rest hnew hout hrest ih =>
      have hwindow := Descriptor.outSize_mul_window (Planned.window_dvd_of_new hnew)
      rcases Descriptor.new_eq_ok_iff.1 hnew with ⟨hkind, -, rfl, rfl⟩
      rcases @ih (d.reduce t) _ rfl (ht.reduce hkind hshape hrow) (by omega) with ⟨y, hy, hsum⟩
      rw [sum_windows a, hwindow] at hsum
      exact ⟨y, hy, hsum⟩

/-! ## Exact sums -/

/-- A window contributes the integers that lie in its row. -/
theorem sum_window_zerosFrom (n : Nat) (a : Nat → Int) (first w : Nat) :
    ∑ j ∈ range w, zerosFrom n a (first + j)
      = ∑ col ∈ Finset.Ico first (min (first + w) n), a col := by
  have hsub : Finset.Ico first (min (first + w) n) ⊆ Finset.Ico first (first + w) :=
    Finset.Ico_subset_Ico_right (min_le_left _ _)
  calc ∑ j ∈ range w, zerosFrom n a (first + j)
      = ∑ col ∈ Finset.Ico first (first + w), zerosFrom n a col := by
        rw [Finset.sum_Ico_eq_sum_range, Nat.add_sub_cancel_left]
    _ = ∑ col ∈ Finset.Ico first (min (first + w) n), zerosFrom n a col := by
        refine (Finset.sum_subset hsub ?_).symm
        intro col hcol hout
        rw [Finset.mem_Ico] at hcol hout
        exact if_neg (by omega)
    _ = ∑ col ∈ Finset.Ico first (min (first + w) n), a col := by
        apply Finset.sum_congr rfl
        intro col hcol
        rw [Finset.mem_Ico] at hcol
        exact if_pos (by omega)

/-- A matrix is read as if its rows were followed by zeros. -/
theorem Tensor.holdsIntegers_zerosFrom (hcols : t.shape.cols = n)
    (hcells : ∀ col < n, ∃ x, t.at? row col = some x ∧ IsInteger x (a col))
    (hsum : ∑ col ∈ range n, |a col| ≤ 0x1000000) : t.HoldsIntegers row (zerosFrom n a) where
  isInteger := by
    intro col
    by_cases hcol : col < n
    · rcases hcells col hcol with ⟨x, hx, hint⟩
      rw [Tensor.elementOr, hx, zerosFrom, if_pos hcol]
      exact hint
    · rw [Tensor.elementOr_of_le (by omega), zerosFrom, if_neg hcol]
      exact IsInteger.zero
  eq_zero := fun col hcol => if_neg (by omega)
  sum_le := by
    rw [hcols]
    exact (sum_zerosFrom abs_zero a le_rfl).trans_le hsum

/-- Where the elements are integers whose absolute values add up to at most `2 ^ 24` in each row, the
kernel of every accepted descriptor computes the exact sums of the elements of its windows, and every
plan the exact sums of the rows. -/
theorem execute_exact_sum {b n : Nat} {input : Tensor} {a : Nat → Nat → Int}
    (hshape : input.shape = ⟨b, n⟩)
    (hcells : ∀ row < b, ∀ col < n, ∃ x, input.at? row col = some x ∧ IsInteger x (a row col))
    (hsum : ∀ row < b, ∑ col ∈ range n, |a row col| ≤ 0x1000000) :
    (∀ w d, Descriptor.new .sum w b n = .ok d →
      ∃ out, (Program.build d).execute input = .ok out
        ∧ out.shape = d.outputShape
        ∧ ∀ row < b, ∀ o < d.geometry.outSize, ∃ first last y,
            d.windowRange o = .ok (first, last)
            ∧ out.at? row o = some y
            ∧ IsInteger y (∑ col ∈ Finset.Ico first (min last n), a row col)
            ∧ (y == Float32.ofInt (∑ col ∈ Finset.Ico first (min last n), a row col)) = true)
      ∧ ∀ threshold p c, 1 ≤ n → Plan.new .sum b threshold n = .ok p → c.Reachable →
        ∃ out, (p.execute input c).result = .ok out
          ∧ out.shape = ⟨b, 1⟩
          ∧ ∀ row < b, ∃ y, out.at? row 0 = some y
              ∧ IsInteger y (∑ col ∈ range n, a row col)
              ∧ (y == Float32.ofInt (∑ col ∈ range n, a row col)) = true := by
  have hcols : input.shape.cols = n := congrArg Shape.cols hshape
  have hrows : ∀ row < b, input.HoldsIntegers row (zerosFrom n (a row)) := fun row hrow =>
    Tensor.holdsIntegers_zerosFrom hcols (hcells row hrow) (hsum row hrow)
  constructor
  · intro w d hd
    rcases Descriptor.new_eq_ok_iff.1 hd with ⟨hkind, rfl, rfl, rfl⟩
    refine ⟨d.reduce input, Program.execute_build hshape, rfl, ?_⟩
    intro row hrow o ho
    have hint := (hrows row hrow).isInteger_paddedGroups hcols d.window o
    have hle := (Finset.abs_sum_le_sum_abs _ _).trans
      ((hrows row hrow).sum_abs_window_le d.window o)
    rw [sum_window_zerosFrom] at hint hle
    refine ⟨_, _, _, Descriptor.windowRange_eq_ok ho, Tensor.at?_ofFn hrow ho, ?_⟩
    rw [hkind]
    exact ⟨hint, hint.beq_ofInt hle⟩
  · intro threshold p c hn hp hc
    have hplanned := Plan.planned_of_new hp
    refine ⟨Plan.reduceAll p.passes input, ?_, ?_, ?_⟩
    · rw [Plan.execute, (Plan.runPasses_of_sound hc.sound p.passes input).1]
      exact hplanned.runBuilt_eq_ok hshape
    · rw [hplanned.shape_reduceAll input, Nat.min_eq_right hn]
    · intro row hrow
      rcases hplanned.exists_isInteger_reduceAll hshape (hrows row hrow) hn hrow with ⟨y, hy, hint⟩
      have hle := (Finset.abs_sum_le_sum_abs (a row) (range n)).trans (hsum row hrow)
      have htotal : ∑ col ∈ range n, zerosFrom n (a row) col = ∑ col ∈ range n, a row col :=
        sum_zerosFrom (f := id) rfl _ le_rfl
      rw [htotal] at hint
      exact ⟨y, hy, hint, hint.beq_ofInt hle⟩

/-- Six integers whose absolute values add up to `2 ^ 24`, in windows of four, of which the second is
partial, and in two passes. -/
theorem execute_exact_sum_six :
    ∃ (input : Tensor) (a : Nat → Nat → Int), input.shape = ⟨1, 6⟩
      ∧ (∀ row < 1, ∀ col < 6, ∃ x, input.at? row col = some x ∧ IsInteger x (a row col))
      ∧ (∀ row < 1, ∑ col ∈ range 6, |a row col| ≤ 0x1000000)
      ∧ ∑ col ∈ range 6, |a 0 col| = 0x1000000
      ∧ (∃ d out y, Descriptor.new .sum 4 1 6 = .ok d
          ∧ (Program.build d).execute input = .ok out
          ∧ out.at? 0 1 = some y ∧ (y == Float32.ofInt (-2)) = true)
      ∧ ∃ p out y, Plan.new .sum 1 2 6 = .ok p ∧ p.passes.length = 2 ∧ Cache.empty.Reachable
          ∧ (p.execute input Cache.empty).result = .ok out
          ∧ out.at? 0 0 = some y ∧ (y == Float32.ofInt 16777196) = true := by
  let a : Nat → Nat → Int := fun _ col => [16777200, -1, 2, -3, 4, -6].getD col 0
  let input := Tensor.ofFn ⟨1, 6⟩ fun row col => Float32.ofInt (a row col)
  let first : Descriptor := ⟨.sum, 2, 1, 6, by decide, by decide, by decide⟩
  let second : Descriptor := ⟨.sum, 3, 1, 3, by decide, by decide, by decide⟩
  have hd : Descriptor.new .sum 4 1 6
      = .ok ⟨.sum, 4, 1, 6, by decide, by decide, by decide⟩ := rfl
  have hp : Plan.new .sum 1 2 6 = .ok ⟨[first, second]⟩ := by decide +kernel
  have habs : ∀ col < 6, |a 0 col| ≤ 0x1000000 := by decide
  have hcells : ∀ row < 1, ∀ col < 6,
      ∃ x, input.at? row col = some x ∧ IsInteger x (a row col) := fun row hrow col hcol =>
    ⟨_, Tensor.at?_ofFn hrow hcol, value?_ofInt (habs col hcol)⟩
  have htotal : ∑ col ∈ range 6, |a 0 col| = 0x1000000 := by decide
  have hsum : ∀ row < 1, ∑ col ∈ range 6, |a row col| ≤ 0x1000000 := fun _ _ => htotal.le
  have hshape : input.shape = ⟨1, 6⟩ := rfl
  rcases execute_exact_sum hshape hcells hsum with ⟨hwindows, hplans⟩
  rcases hwindows 4 _ hd with ⟨out, hrun, -, hcell⟩
  rcases hcell 0 (by decide) 1 (by decide) with ⟨_, _, y, hrange, hy, -, hbeq⟩
  cases hrange
  rcases hplans 2 _ Cache.empty (by decide) hp .empty with ⟨out', hrun', -, hcell'⟩
  rcases hcell' 0 (by decide) with ⟨y', hy', -, hbeq'⟩
  exact ⟨input, a, hshape, hcells, hsum, htotal, ⟨_, out, y, hd, hrun, hy, hbeq⟩,
    _, out', y', hp, rfl, .empty, hrun', hy', hbeq'⟩

end WindowReduction
