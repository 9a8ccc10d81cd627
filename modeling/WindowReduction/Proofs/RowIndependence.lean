import WindowReduction.Proofs.PlanRefusal
import WindowReduction.Proofs.PlanRun

/-!
# Rows of a plan

Each row of a matrix is reduced by itself. The cells of a row are computed from that row alone, the
passes are planned from the row length alone, and so a row of the result is, to the bit, what a plan
for one row makes of that row. This holds of sums and of NaN as well, since neither the order of the
operations nor their operands change.

Main statements: `Descriptor.reduce_rowAlone` (one pass), `Planned.withBatch` (the passes for
another number of rows), `Plan.new_eq_ok_iff` (plans are the chains that planning takes) and
`Plan.execute_rowAlone`.
-/

namespace WindowReduction

/-! ## Rows -/

/-- A row of a matrix as a matrix of its own. -/
def Tensor.rowAlone (t : Tensor) (row : Nat) : Tensor :=
  Tensor.ofFn ⟨1, t.shape.cols⟩ fun _ col => t.elementOr 0.0 row col

/-- A row that is taken out of a matrix has the elements that it had there. -/
theorem Tensor.at?_rowAlone {t : Tensor} {row : Nat} (hrow : row < t.shape.rows) (col : Nat) :
    (t.rowAlone row).at? 0 col = t.at? row col := by
  by_cases hcol : col < t.shape.cols
  · have hentry : (t.rowAlone row).at? 0 col = some (t.elementOr 0.0 row col) :=
      Tensor.at?_ofFn Nat.one_pos hcol
    rcases Tensor.exists_at?_eq_some hrow hcol with ⟨x, hx⟩
    rw [hentry, Tensor.elementOr, hx]
    rfl
  · have hout : ¬ (0 < (t.rowAlone row).shape.rows ∧ col < (t.rowAlone row).shape.cols) :=
      fun h => hcol h.2
    have hout' : ¬ (row < t.shape.rows ∧ col < t.shape.cols) := fun h => hcol h.2
    rw [Tensor.at?, if_neg hout, Tensor.at?, if_neg hout']

/-- The padded groups of a window depend on nothing but the elements of its row. -/
theorem Kind.paddedGroups_congr (k : Kind) (w n o : Nat) {t u : Tensor} {row row' : Nat}
    (h : ∀ col, t.at? row col = u.at? row' col) :
    k.paddedGroups w n t row o = k.paddedGroups w n u row' o := by
  have helement : k.paddedElement w n t row o = k.paddedElement w n u row' o := by
    funext j
    simp only [Kind.paddedElement, Tensor.elementOr, h]
  rw [Kind.paddedGroups, Kind.paddedGroups, helement]

/-! ## One pass -/

/-- The same reduction for another number of rows. -/
def Descriptor.withBatch (d : Descriptor) (b : Nat) (hb : b ≤ maxKernelInt) : Descriptor :=
  { d with batch := b, batch_le := hb }

section

variable {d : Descriptor} {kind : Kind} {w batch b n : Nat}

/-- Whether sizes are accepted does not depend on the number of rows, if that is a kernel `int`. -/
theorem Descriptor.new_withBatch (h : Descriptor.new kind w batch n = .ok d)
    (hb : b ≤ maxKernelInt) : Descriptor.new kind w b n = .ok (d.withBatch b hb) := by
  rcases Descriptor.new_eq_ok_iff.1 h with ⟨hkind, hwindow, -, hrow⟩
  exact Descriptor.new_eq_ok_iff.2 ⟨hkind, hwindow, rfl, hrow⟩

/-- A single row is no more than a kernel `int` can count. -/
theorem one_le_maxKernelInt : 1 ≤ maxKernelInt := by decide

/-- Reducing a row alone gives that row of the reduced matrix. -/
theorem Descriptor.reduce_rowAlone {t : Tensor} {row : Nat} (hrow : row < d.batch)
    (ht : row < t.shape.rows) :
    (d.withBatch 1 one_le_maxKernelInt).reduce (t.rowAlone row) = (d.reduce t).rowAlone row := by
  have hshape : ((d.withBatch 1 one_le_maxKernelInt).reduce (t.rowAlone row)).shape
      = ((d.reduce t).rowAlone row).shape := rfl
  apply Tensor.ext_at? hshape
  intro r hr o ho
  have hzero : r = 0 := Nat.lt_one_iff.1 hr
  subst hzero
  have hwhole : row < (d.reduce t).shape.rows := hrow
  have halone : ((d.withBatch 1 one_le_maxKernelInt).reduce (t.rowAlone row)).at? 0 o
      = some (d.kind.reduceGroups
          (d.kind.paddedGroups d.window d.rowLength (t.rowAlone row) 0 o)) :=
    Tensor.at?_ofFn hr ho
  have hcell : (d.reduce t).at? row o
      = some (d.kind.reduceGroups (d.kind.paddedGroups d.window d.rowLength t row o)) :=
    Tensor.at?_ofFn hrow ho
  rw [halone, Tensor.at?_rowAlone hwhole, hcell,
    Kind.paddedGroups_congr _ _ _ _ fun col => Tensor.at?_rowAlone ht col]

end

/-! ## Chains of passes -/

variable {kind : Kind} {batch threshold n : Nat} {passes : List Descriptor} {p : Plan}
  {input : Tensor} {c : Cache}

/-- The passes for one number of rows are those for another. -/
theorem Planned.withBatch (h : Planned kind batch threshold n passes) {b : Nat}
    (hb : b ≤ maxKernelInt) :
    Planned kind b threshold n (passes.map fun d => d.withBatch b hb) := by
  induction h with
  | last hnew hout => exact .last (Descriptor.new_withBatch hnew hb) hout
  | more hnew hout hrest ih => exact .more (Descriptor.new_withBatch hnew hb) hout ih

/-- Planning whose first pass is accepted goes on with what the pass leaves, if that is more than
one element. -/
theorem Planning.run_of_new {d : Descriptor}
    (h : Descriptor.new kind (passWindow threshold n) batch n = .ok d) :
    run kind batch threshold n
      = if d.geometry.outSize ≤ 1 then ⟨[d], none⟩
        else
          ⟨d :: (run kind batch threshold d.geometry.outSize).passes,
            (run kind batch threshold d.geometry.outSize).refusal?⟩ := by
  fun_cases run kind batch threshold n with
  | case1 f hrefused =>
      rw [h] at hrefused
      cases hrefused
  | case2 d' hnew hout =>
      rw [h] at hnew
      cases hnew
      rw [if_pos hout]
  | case3 d' hnew hout =>
      rw [h] at hnew
      cases hnew
      rw [if_neg hout]

/-- Planning takes a chain wherever there is one. -/
theorem Planned.run_eq (h : Planned kind batch threshold n passes) :
    Planning.run kind batch threshold n = ⟨passes, none⟩ := by
  induction h with
  | last hnew hout => rw [Planning.run_of_new hnew, if_pos hout]
  | more hnew hout hrest ih =>
      rw [Planning.run_of_new hnew, if_neg (Nat.not_le_of_lt hout), ih]

/-- Plans are exactly the chains that planning takes. -/
theorem Plan.new_eq_ok_iff :
    Plan.new kind batch threshold n = .ok p ↔ Planned kind batch threshold n p.passes := by
  constructor
  · exact Plan.planned_of_new
  · intro h
    simp only [Plan.new, h.run_eq]

/-- Running the passes on a row alone gives that row of the result for all rows. -/
theorem Planned.reduceAll_rowAlone (h : Planned kind batch threshold n passes) {row : Nat}
    (hrow : row < batch) (ht : row < input.shape.rows) :
    Plan.reduceAll (passes.map fun d => d.withBatch 1 one_le_maxKernelInt) (input.rowAlone row)
      = (Plan.reduceAll passes input).rowAlone row := by
  induction h generalizing input with
  | @last n d hnew hout =>
      rw [← Descriptor.batch_of_new hnew] at hrow
      exact Descriptor.reduce_rowAlone hrow ht
  | @more n d rest hnew hout hrest ih =>
      have hrow' : row < d.batch := by rwa [Descriptor.batch_of_new hnew]
      have hfirst := Descriptor.reduce_rowAlone hrow' ht
      have hrest := @ih (d.reduce input) hrow'
      rw [← hfirst] at hrest
      exact hrest

/-! ## Plans -/

/-- A plan for rows of `n` elements leads to a plan for one such row, with the same windows, and
treats every row as that plan treats the row alone: the results are the same to the bit, for every
kind, whatever the elements of this and of the other rows are and whatever is in the caches. -/
theorem Plan.execute_rowAlone (hp : Plan.new kind batch threshold n = .ok p) (hc : c.Reachable)
    (hshape : input.shape = ⟨batch, n⟩) :
    ∃ q out, Plan.new kind 1 threshold n = .ok q
      ∧ q.passes.map Descriptor.window = p.passes.map Descriptor.window
      ∧ (p.execute input c).result = .ok out
      ∧ out.shape = ⟨batch, min n 1⟩
      ∧ ∀ row < batch, ∀ c' : Cache, c'.Reachable → ∃ alone,
          (q.execute (input.rowAlone row) c').result = .ok alone
          ∧ alone.shape = ⟨1, min n 1⟩
          ∧ ∀ col, alone.at? 0 col = out.at? row col := by
  have hplanned := Plan.planned_of_new hp
  have hsingle := hplanned.withBatch one_le_maxKernelInt
  have hout := hplanned.shape_reduceAll input
  refine ⟨⟨_⟩, _, Plan.new_eq_ok_iff.2 hsingle, ?_, hplanned.execute_eq_ok hc hshape, hout, ?_⟩
  · rw [List.map_map]
    rfl
  · intro row hrow c' hc'
    have hin : row < input.shape.rows := by rwa [hshape]
    have hwhole : row < (Plan.reduceAll p.passes input).shape.rows := by rwa [hout]
    have halone : (input.rowAlone row).shape = ⟨1, n⟩ :=
      congrArg (fun s : Shape => Shape.mk 1 s.cols) hshape
    refine ⟨_, Planned.execute_eq_ok hsingle hc' halone, hsingle.shape_reduceAll _, ?_⟩
    intro col
    rw [hplanned.reduceAll_rowAlone hrow hin, Tensor.at?_rowAlone hwhole]

/-- Two rows of six numbers, added up in two passes. The rows differ, the first one has a NaN, and
the sums of the second are rounded. -/
theorem Plan.execute_rowAlone_six :
    ∃ p q : Plan, Plan.new .sum 2 2 6 = .ok p ∧ p.passes.map Descriptor.window = [2, 3]
      ∧ Cache.empty.Reachable
      ∧ ∃ input : Tensor, input.shape = ⟨2, 6⟩
        ∧ ∃ out, (p.execute input Cache.empty).result = .ok out
          ∧ Plan.new .sum 1 2 6 = .ok q
          ∧ ∃ alone, (q.execute (input.rowAlone 1) Cache.empty).result = .ok alone
            ∧ alone.at? 0 0 = out.at? 1 0 := by
  let first : Descriptor := ⟨.sum, 2, 2, 6, by decide, by decide, by decide⟩
  let second : Descriptor := ⟨.sum, 3, 2, 3, by decide, by decide, by decide⟩
  have hnew : Plan.new .sum 2 2 6 = .ok ⟨[first, second]⟩ := by decide +kernel
  let rows : List (List Float32) :=
    [[0.0 / 0.0, 1.0, 2.0, 3.0, 4.0, 5.0], [0.1, 0.2, 0.3, 1e8, 0.5, -1e8]]
  let input := Tensor.ofFn ⟨2, 6⟩ fun row col => (rows.getD row []).getD col 0.0
  have hshape : input.shape = ⟨2, 6⟩ := rfl
  rcases Plan.execute_rowAlone hnew .empty hshape with ⟨q, out, hq, -, hrun, -, hrows⟩
  rcases hrows 1 (by decide) Cache.empty .empty with ⟨alone, halone, -, hentry⟩
  exact ⟨_, q, hnew, rfl, .empty, input, hshape, out, hrun, hq, alone, halone, hentry 0⟩

end WindowReduction
