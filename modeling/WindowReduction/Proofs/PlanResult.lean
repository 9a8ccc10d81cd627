import WindowReduction.Proofs.PlanRun
import WindowReduction.Proofs.WindowComposition

/-!
# What a plan computes

Passes compose because results of results are results: the windows of a pass tile the row, so what
the next pass makes of their results it makes of the whole row. How the row was split up, that is
the threshold, and which programs were in the cache makes no difference.

Main statements: `Planned.exists_summarizes_reduceAll` (a chain of passes brings a row down to a
result for all of its elements) and `Plan.execute_beq_foldRange`.
-/

namespace WindowReduction

variable {d : Descriptor} {kind : Kind} {batch threshold n : Nat} {passes : List Descriptor}
  {input : Tensor}

/-! ## One pass -/

/-- What is a result for all results of a pass is one for the whole row, if windows tile it. -/
theorem Descriptor.summarizes_row_of_reduce {y : Float32} {row : Nat}
    (hdvd : d.window ∣ d.rowLength) (hshape : input.shape = d.inputShape)
    (hcells : ∀ x ∈ input.cells, d.kind.Accepts x) (hrow : row < d.batch)
    (hy : d.kind.Summarizes y ((d.reduce input).slice d.kind.neutral row 0 d.geometry.outSize)) :
    d.kind.Summarizes y (input.slice d.kind.neutral row 0 d.rowLength) := by
  have h := Descriptor.summarizes_of_reduce hshape hcells hrow hy
  rwa [Nat.zero_mul, Descriptor.outSize_mul_window hdvd] at h

/-! ## Chains of passes -/

/-- A chain of passes leaves in each row one result for all of its elements. -/
theorem Planned.exists_summarizes_reduceAll (h : Planned kind batch threshold n passes)
    (hk : kind ≠ .sum) (hshape : input.shape = ⟨batch, n⟩)
    (hcells : ∀ x ∈ input.cells, kind.Accepts x) (hn : 0 < n) {row : Nat} (hrow : row < batch) :
    ∃ y, (Plan.reduceAll passes input).at? row 0 = some y
      ∧ kind.Summarizes y (input.slice kind.neutral row 0 n) := by
  induction h generalizing input with
  | @last n d hnew hout =>
      have hdvd := Planned.window_dvd_of_new hnew
      have hlast := Descriptor.outSize_eq_min hdvd hout
      rcases Descriptor.new_eq_ok_iff.1 hnew with ⟨rfl, -, rfl, rfl⟩
      have hone : d.geometry.outSize = 1 := by omega
      have ho : 0 < d.geometry.outSize := by omega
      show ∃ y, (d.reduce input).at? row 0 = some y ∧ _
      refine ⟨_, Tensor.at?_ofFn hrow ho, ?_⟩
      -- The one window is the whole row.
      have hwindow := Descriptor.outSize_mul_window hdvd
      rw [hone, Nat.one_mul] at hwindow
      have hslice : input.slice d.kind.neutral row (0 * d.window) (0 * d.window + d.window)
          = input.slice d.kind.neutral row 0 d.rowLength := by
        rw [Nat.zero_mul, Nat.zero_add, hwindow]
      have hcols : input.shape.cols = d.rowLength := congrArg Shape.cols hshape
      rw [← hslice]
      exact Kind.summarizes_paddedGroups hcols hcells 0
  | @more n d rest hnew hout hrest ih =>
      have hdvd := Planned.window_dvd_of_new hnew
      rcases Descriptor.new_eq_ok_iff.1 hnew with ⟨rfl, -, rfl, rfl⟩
      -- The rest of the chain gets the results of this pass, which the kind accepts again.
      have haccepts := Descriptor.accepts_reduce hk hshape hcells
      rcases @ih (d.reduce input) rfl haccepts (by omega) with ⟨y, hy, hsummary⟩
      exact ⟨y, hy, Descriptor.summarizes_row_of_reduce hdvd hshape hcells hrow hsummary⟩

theorem Plan.exists_execute_eq_ok {p : Plan} {c : Cache}
    (hp : Plan.new kind batch threshold n = .ok p) (hc : c.Reachable) (hk : kind ≠ .sum)
    (hshape : input.shape = ⟨batch, n⟩) (hcells : ∀ x ∈ input.cells, kind.Accepts x) :
    ∃ out, (p.execute input c).result = .ok out
      ∧ out.shape = ⟨batch, min n 1⟩
      ∧ ∀ row < batch, 0 < n →
          ∃ y, out.at? row 0 = some y ∧ kind.Summarizes y (input.slice kind.neutral row 0 n) := by
  have hplanned := Plan.planned_of_new hp
  refine ⟨Plan.reduceAll p.passes input, hplanned.execute_eq_ok hc hshape,
    hplanned.shape_reduceAll input, ?_⟩
  intro row hrow hn
  exact hplanned.exists_summarizes_reduceAll hk hshape hcells hn hrow

/-! ## The result of a plan -/

/-- A result for the elements of a row tells whether one of them is zero. -/
theorem Kind.Summarizes.eq_ite_slice {y : Float32} {row : Nat}
    (h : Kind.all.Summarizes y (input.slice Kind.all.neutral row 0 n)) :
    y = if ∀ col < n, (input.elementOr 1.0 row col != 0.0) = true then 1.0 else 0.0 := by
  classical
  have hiff : (∀ x ∈ input.slice Kind.all.neutral row 0 n, (x != 0.0) = true)
      ↔ ∀ col < n, (input.elementOr 1.0 row col != 0.0) = true := by
    constructor
    · intro hall col hcol
      exact hall _ ⟨col, ⟨Nat.zero_le col, hcol⟩, rfl⟩
    · rintro hall x ⟨col, ⟨-, hcol⟩, rfl⟩
      exact hall col hcol
  rw [h.eq_ite]
  simp only [hiff]

/-- Away from NaN, every plan for rows of `n` elements runs without a failure and leaves in each row
what folding its elements one by one gives, up to the sign of zero; a conjunction does so on all
numbers. Rows without elements stay empty. The result is the same for all thresholds, hence however
many passes there are, and for all caches. -/
theorem Plan.execute_beq_foldRange {p : Plan} {c : Cache} (hk : kind ≠ .sum)
    (hp : Plan.new kind batch threshold n = .ok p) (hc : c.Reachable)
    (hshape : input.shape = ⟨batch, n⟩) (hcells : ∀ x ∈ input.cells, kind.Accepts x) :
    ∃ out, (p.execute input c).result = .ok out
      ∧ out.shape = ⟨batch, if n = 0 then 0 else 1⟩
      ∧ (0 < n → ∀ row < batch, ∃ y, out.at? row 0 = some y
          ∧ (y == kind.foldRange input row 0 n) = true
          ∧ (kind = .all →
              y = if ∀ col < n, (input.elementOr 1.0 row col != 0.0) = true then 1.0 else 0.0))
      ∧ ∀ threshold' p' c', Plan.new kind batch threshold' n = .ok p' → c'.Reachable →
          ∃ out', (p'.execute input c').result = .ok out' ∧ out.SameValues out' := by
  rcases Plan.exists_execute_eq_ok hp hc hk hshape hcells with ⟨out, hrun, hout, hcell⟩
  have hmin : min n 1 = if n = 0 then 0 else 1 := by split <;> omega
  refine ⟨out, hrun, hmin ▸ hout, ?_, ?_⟩
  · intro hpos row hrow
    rcases hcell row hrow hpos with ⟨y, hy, hsummary⟩
    refine ⟨y, hy, hsummary.beq hk (Kind.summarizes_foldRange hcells), ?_⟩
    rintro rfl
    exact hsummary.eq_ite_slice
  · intro threshold' p' c' hp' hc'
    rcases Plan.exists_execute_eq_ok hp' hc' hk hshape hcells with ⟨out', hrun', hout', hcell'⟩
    refine ⟨out', hrun', hout.trans hout'.symm, ?_⟩
    intro row hrow col hcol
    rw [hout] at hrow hcol
    -- There is a column only if the rows had elements, and then it is the first.
    have hcol' : col < min n 1 := hcol
    have hzero : col = 0 := by omega
    have hpos : 0 < n := by omega
    rcases hcell row hrow hpos with ⟨y, hy, hsummary⟩
    rcases hcell' row hrow hpos with ⟨y', hy', hsummary'⟩
    rw [hzero]
    exact ⟨y, y', hy, hy', hsummary.beq hk hsummary'⟩

/-- The greatest of twelve elements, found in three passes. -/
theorem Plan.execute_beq_foldRange_twelve :
    ∃ p, Plan.new .max 1 2 12 = .ok p ∧ p.passes.length = 3 ∧ Cache.empty.Reachable
      ∧ ∃ input : Tensor, input.shape = ⟨1, 12⟩ ∧ (∀ x ∈ input.cells, Kind.max.Accepts x)
        ∧ ∃ out, (p.execute input Cache.empty).result = .ok out ∧ out.shape = ⟨1, 1⟩
          ∧ ∃ y, out.at? 0 0 = some y ∧ (y == 9.0) = true := by
  let first : Descriptor := ⟨.max, 3, 1, 12, by decide, by decide, by decide⟩
  let second : Descriptor := ⟨.max, 2, 1, 4, by decide, by decide, by decide⟩
  let third : Descriptor := ⟨.max, 2, 1, 2, by decide, by decide, by decide⟩
  have hnew : Plan.new .max 1 2 12 = .ok ⟨[first, second, third]⟩ := by decide +kernel
  let input := Tensor.ofRow [3.0, -1.0, 4.0, 1.0, -5.0, 9.0, 2.0, -6.0, 5.0, -0.0, 0.0, 8.0]
  have hcells : ∀ x ∈ input.cells, Kind.max.Accepts x := by decide +kernel
  have hfold : Kind.max.foldRange input 0 0 12 = 9.0 := by decide +kernel
  rcases Plan.execute_beq_foldRange (by decide) hnew Cache.Reachable.empty rfl hcells with
    ⟨out, hrun, hshape, hcell, -⟩
  rcases hcell (by decide) 0 (by decide) with ⟨y, hy, hbeq, -⟩
  rw [hfold] at hbeq
  exact ⟨_, hnew, rfl, .empty, input, rfl, hcells, out, hrun, hshape, y, hy, hbeq⟩

end WindowReduction
