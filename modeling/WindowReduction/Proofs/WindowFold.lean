import WindowReduction.Proofs.CellValue
import WindowReduction.Proofs.Summary

/-!
# Kernels and plain folds

A kernel folds four interleaved lanes over padded groups, and the plain meaning of a reduction folds
one element after the other. Both are results for the same elements, so away from NaN they are
equal, up to the sign of zero.

Main statements: `Kind.summarizes_paddedGroups` (a kernel's cell is a result for the elements of its
window) and `execute_build_beq_foldRange`.
-/

namespace WindowReduction

/-! ## Elements of a row -/

/-- The elements of a row from `first` on and before `last`; past the end of the row, `e`. -/
def Tensor.slice (t : Tensor) (e : Float32) (row first last : Nat) : Set Float32 :=
  {x | ∃ col, (first ≤ col ∧ col < last) ∧ t.elementOr e row col = x}

/-- The elements with the indices from `first` on and before `last`, folded from left to right. An
index past the end of the row contributes the neutral element. -/
def Kind.foldRange (k : Kind) (t : Tensor) (row first last : Nat) : Float32 :=
  ((List.range' first (last - first)).map (t.elementOr k.neutral row)).foldl k.step k.neutral

variable {d : Descriptor} {k : Kind} {t : Tensor} {row first last : Nat}

/-- Outside the matrix there is the default. -/
theorem Tensor.elementOr_of_le {e : Float32} {col : Nat} (h : t.shape.cols ≤ col) :
    t.elementOr e row col = e := by
  have hout : ¬ (row < t.shape.rows ∧ col < t.shape.cols) := by omega
  rw [Tensor.elementOr, Tensor.at?, if_neg hout]
  rfl

/-- A matrix read with the neutral element past its end has elements that the kind accepts if its
cells are. -/
theorem Kind.accepts_elementOr (hcells : ∀ x ∈ t.cells, k.Accepts x) (row col : Nat) :
    k.Accepts (t.elementOr k.neutral row col) := by
  unfold Tensor.elementOr Tensor.at?
  split
  · cases hget : t.cells[row * t.shape.cols + col]? with
    | none => exact Kind.accepts_neutral k
    | some x => exact hcells x (Array.mem_of_getElem? hget)
  · exact Kind.accepts_neutral k

/-! ## Plain folds -/

theorem Kind.summarizes_foldRange (hcells : ∀ x ∈ t.cells, k.Accepts x) :
    k.Summarizes (k.foldRange t row first last) (t.slice k.neutral row first last) := by
  have hset : {x | x ∈ (List.range' first (last - first)).map (t.elementOr k.neutral row)}
      = t.slice k.neutral row first last := by
    ext x
    simp only [Tensor.slice, Set.mem_ofPred_eq, List.mem_map, List.mem_range'_1]
    constructor
    · rintro ⟨col, ⟨hfirst, hlast⟩, rfl⟩
      exact ⟨col, ⟨hfirst, by omega⟩, rfl⟩
    · rintro ⟨col, ⟨hfirst, hlast⟩, rfl⟩
      exact ⟨col, ⟨hfirst, by omega⟩, rfl⟩
  rw [← hset]
  apply Kind.summarizes_foldl_neutral
  intro x hx
  rcases List.mem_map.1 hx with ⟨col, -, rfl⟩
  exact Kind.accepts_elementOr hcells row col

/-! ## Kernels -/

/-- The elements of a padded window are those of the window and the neutral element. -/
theorem Kind.paddedElement_eq {w n : Nat} {o j : Nat} (hcols : t.shape.cols = n) :
    k.paddedElement w n t row o j
      = if j < w then t.elementOr k.neutral row (o * w + j) else k.neutral := by
  unfold Kind.paddedElement
  by_cases hj : j < w
  · rw [if_pos hj]
    by_cases hin : o * w + j < n
    · rw [if_pos ⟨hj, hin⟩]
    · have hpast : ¬ (j < w ∧ o * w + j < n) := fun h => hin h.2
      rw [if_neg hpast, Tensor.elementOr_of_le (hcols ▸ Nat.le_of_not_lt hin)]
  · have hpast : ¬ (j < w ∧ o * w + j < n) := fun h => hj h.1
    rw [if_neg hpast, if_neg hj]

/-- The value of a padded window is a result for the elements of the window. -/
theorem Kind.summarizes_paddedGroups {w n : Nat} (hcols : t.shape.cols = n)
    (hcells : ∀ x ∈ t.cells, k.Accepts x) (o : Nat) :
    k.Summarizes (k.reduceGroups (k.paddedGroups w n t row o))
      (t.slice k.neutral row (o * w) (o * w + w)) := by
  have haccepts : ∀ j, k.Accepts (k.paddedElement w n t row o j) := by
    intro j
    rw [Kind.paddedElement_eq hcols]
    split
    · exact Kind.accepts_elementOr hcells row _
    · exact Kind.accepts_neutral k
  have hgroups : ∀ g ∈ k.paddedGroups w n t row o, ∀ x ∈ g.toList, k.Accepts x := by
    intro g hg x hx
    rcases exists_mem_groupsOfFour.1 ⟨g, hg, hx⟩ with ⟨j, -, rfl⟩
    exact haccepts j
  apply (Kind.summarizes_reduceGroups hgroups).congr
  intro b hb
  constructor
  · rintro hall x ⟨col, ⟨hfirst, hlast⟩, rfl⟩
    refine hall _ (exists_mem_groupsOfFour.2 ⟨col - o * w, by omega, ?_⟩)
    rw [Kind.paddedElement_eq hcols, if_pos (by omega), Nat.add_sub_cancel' hfirst]
  · intro hall x hx
    rcases exists_mem_groupsOfFour.1 hx with ⟨j, -, rfl⟩
    rw [Kind.paddedElement_eq hcols]
    -- Padding passes everywhere, so it makes no difference.
    split
    · exact hall _ ⟨o * w + j, by omega, rfl⟩
    · exact Kind.passes_neutral k hb

/-! ## The plain meaning of a kernel -/

/-- Every window of a descriptor has a range of indices, as long as the window. -/
theorem Descriptor.windowRange_eq_ok {o : Nat} (ho : o < d.geometry.outSize) :
    d.windowRange o = .ok (o * d.window, o * d.window + d.window) := by
  have hbounds := d.index_le_of_lt_outSize ho
  have hsmall : maxKernelInt + 1 < sizeLimit := by decide
  unfold Descriptor.windowRange
  rw [if_neg (by omega), if_neg (by omega)]

/-- Away from NaN, the program of an accepted descriptor computes in each cell what folding the
elements of its window one by one gives, up to the sign of zero. A conjunction does so on all
numbers. -/
theorem execute_build_beq_foldRange {k : Kind} {w b n : Nat} {d : Descriptor} (hk : k ≠ .sum)
    (hd : Descriptor.new k w b n = .ok d) {input : Tensor} (hshape : input.shape = ⟨b, n⟩)
    (hcells : ∀ x ∈ input.cells, k.Accepts x) :
    ∃ out, (Program.build d).execute input = .ok out
      ∧ out.shape = d.outputShape
      ∧ ∀ row < b, ∀ o < d.geometry.outSize, ∃ first last y,
          d.windowRange o = .ok (first, last)
          ∧ out.at? row o = some y
          ∧ (y == k.foldRange input row first last) = true := by
  rcases Descriptor.new_eq_ok_iff.1 hd with ⟨rfl, rfl, rfl, rfl⟩
  refine ⟨d.reduce input, Program.execute_build hshape, rfl, ?_⟩
  intro row hrow o ho
  refine ⟨_, _, _, Descriptor.windowRange_eq_ok ho, Tensor.at?_ofFn hrow ho, ?_⟩
  have hcols : input.shape.cols = d.rowLength := congrArg Shape.cols hshape
  exact (Kind.summarizes_paddedGroups hcols hcells o).beq hk (Kind.summarizes_foldRange hcells)

/-- A window with zeros of both signs, of which a lane keeps the last and a fold the first. -/
theorem execute_build_beq_foldRange_zeros :
    ∃ d, Descriptor.new .min 5 1 7 = .ok d
      ∧ (Tensor.ofRow [0.0, 4.0, 2.0, 7.0, -0.0, -3.0, 1.0]).shape = ⟨1, 7⟩
      ∧ (∀ x ∈ (Tensor.ofRow [0.0, 4.0, 2.0, 7.0, -0.0, -3.0, 1.0]).cells, Kind.min.Accepts x)
      ∧ ∃ out, (Program.build d).execute
          (Tensor.ofRow [0.0, 4.0, 2.0, 7.0, -0.0, -3.0, 1.0]) = .ok out
        ∧ ∃ first last y, d.windowRange 0 = .ok (first, last) ∧ out.at? 0 0 = some y
          ∧ (y == Kind.min.foldRange
              (Tensor.ofRow [0.0, 4.0, 2.0, 7.0, -0.0, -3.0, 1.0]) 0 first last) = true := by
  have hd : Descriptor.new .min 5 1 7
      = .ok ⟨.min, 5, 1, 7, by decide, by decide, by decide⟩ := rfl
  have hshape : (Tensor.ofRow [0.0, 4.0, 2.0, 7.0, -0.0, -3.0, 1.0]).shape = ⟨1, 7⟩ := rfl
  have hcells : ∀ x ∈ (Tensor.ofRow [0.0, 4.0, 2.0, 7.0, -0.0, -3.0, 1.0]).cells,
      Kind.min.Accepts x := by
    decide +kernel
  rcases execute_build_beq_foldRange (by decide) hd hshape hcells with ⟨out, hrun, -, hout⟩
  exact ⟨_, hd, hshape, hcells, out, hrun, hout 0 (by decide) 0 (by decide)⟩

end WindowReduction
