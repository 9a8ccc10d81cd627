import WindowReduction.Proofs.WindowFold

/-!
# Windows of windows

A row is reduced in windows of length `w₁`, and the results again in windows of length `w₂`. Away
from NaN this is one reduction in windows of length `w₁ * w₂`, whatever the length of the row: where
a window ends past its row, the kernels go on with the neutral element, and so do the windows that
would come after it.

Main statements: `Descriptor.summarizes_of_reduce` (a result for some cells of a reduction is one
for the elements of their windows), `Geometry.outSize_outSize` (there are as many windows either
way) and `execute_build_compose`.
-/

namespace WindowReduction

variable {d : Descriptor} {k : Kind} {input : Tensor} {row first last : Nat}

/-- Two matrices of one shape have equal elements, up to the sign of zero. -/
def Tensor.SameValues (t u : Tensor) : Prop :=
  t.shape = u.shape ∧ ∀ row < t.shape.rows, ∀ col < t.shape.cols, ∃ x y,
    t.at? row col = some x ∧ u.at? row col = some y ∧ (x == y) = true

/-! ## Elements of consecutive windows -/

/-- Consecutive windows together contain the elements from the start of the first to the end of the
last. -/
theorem Tensor.slice_windows (t : Tensor) (e : Float32) (row first last : Nat) {w : Nat}
    (hw : 0 < w) :
    {x | ∃ o, (first ≤ o ∧ o < last) ∧ x ∈ t.slice e row (o * w) (o * w + w)}
      = t.slice e row (first * w) (last * w) := by
  ext x
  constructor
  · rintro ⟨o, ⟨hfirst, hlast⟩, col, ⟨hlow, hhigh⟩, rfl⟩
    have hstart : first * w ≤ o * w := Nat.mul_le_mul_right w hfirst
    have hend : (o + 1) * w ≤ last * w := Nat.mul_le_mul_right w hlast
    rw [Nat.succ_mul] at hend
    exact ⟨col, ⟨by omega, by omega⟩, rfl⟩
  · rintro ⟨col, ⟨hlow, hhigh⟩, rfl⟩
    have hdiv := Nat.div_add_mod' col w
    have hmod := Nat.mod_lt col hw
    exact ⟨col / w, ⟨(Nat.le_div_iff_mul_le hw).2 hlow, (Nat.div_lt_iff_lt_mul hw).2 hhigh⟩, col,
      ⟨by omega, by omega⟩, rfl⟩

/-- Past the end of the row there are only neutral elements. -/
theorem Kind.summarizes_slice_of_le (k : Kind) (h : input.shape.cols ≤ first) :
    k.Summarizes k.neutral (input.slice k.neutral row first last) := by
  apply (Kind.summarizes_neutral k).congr
  intro b hb
  refine iff_of_true (fun x hx => absurd hx (Set.notMem_empty x)) ?_
  rintro x ⟨col, ⟨hfirst, -⟩, rfl⟩
  rw [Tensor.elementOr_of_le (Nat.le_trans h hfirst)]
  exact Kind.passes_neutral k hb

/-! ## The results of a reduction -/

theorem Tensor.forall_mem_cells_ofFn {shape : Shape} {cell : Nat → Nat → Float32}
    {P : Float32 → Prop} (h : ∀ row col, P (cell row col)) :
    ∀ x ∈ (Tensor.ofFn shape cell).cells, P x := by
  intro x hx
  rcases Array.mem_ofFn.1 hx with ⟨i, rfl⟩
  exact h _ _

/-- The results of a reduction can be reduced again. -/
theorem Descriptor.accepts_reduce (hk : d.kind ≠ .sum) (hshape : input.shape = d.inputShape)
    (hcells : ∀ x ∈ input.cells, d.kind.Accepts x) :
    ∀ x ∈ (d.reduce input).cells, d.kind.Accepts x := by
  apply Tensor.forall_mem_cells_ofFn
  intro row o
  have hcols : input.shape.cols = d.rowLength := congrArg Shape.cols hshape
  exact (Kind.summarizes_paddedGroups hcols hcells o).settled.accepts hk

/-- A reduction read with the neutral element past its end has in every column a result for the
window of that column, even where that window lies past the row. -/
theorem Descriptor.summarizes_elementOr_reduce (hshape : input.shape = d.inputShape)
    (hcells : ∀ x ∈ input.cells, d.kind.Accepts x) (hrow : row < d.batch) (o : Nat) :
    d.kind.Summarizes ((d.reduce input).elementOr d.kind.neutral row o)
      (input.slice d.kind.neutral row (o * d.window) (o * d.window + d.window)) := by
  have hcols : input.shape.cols = d.rowLength := congrArg Shape.cols hshape
  by_cases ho : o < d.geometry.outSize
  · rw [Descriptor.elementOr_reduce _ hrow ho]
    exact Kind.summarizes_paddedGroups hcols hcells o
  · have hpast : d.rowLength ≤ o * d.window :=
      Nat.le_of_not_lt (mt (Geometry.lt_outSize_iff d.window_pos).2 ho)
    have hout : (d.reduce input).shape.cols ≤ o := Nat.le_of_not_lt ho
    rw [Tensor.elementOr_of_le hout]
    exact Kind.summarizes_slice_of_le d.kind (hcols ▸ hpast)

/-- What is a result for some results of a reduction is one for the elements of their windows. -/
theorem Descriptor.summarizes_of_reduce {y : Float32} (hshape : input.shape = d.inputShape)
    (hcells : ∀ x ∈ input.cells, d.kind.Accepts x) (hrow : row < d.batch)
    (hy : d.kind.Summarizes y ((d.reduce input).slice d.kind.neutral row first last)) :
    d.kind.Summarizes y
      (input.slice d.kind.neutral row (first * d.window) (last * d.window)) := by
  rw [← Tensor.slice_windows _ _ _ _ _ d.window_pos]
  apply Kind.Summarizes.trans hy
  intro o _
  exact Descriptor.summarizes_elementOr_reduce hshape hcells hrow o

/-! ## Two reductions as one -/

/-- Windows of windows are as many as windows of both lengths together. -/
theorem Geometry.outSize_outSize {w₁ w₂ : Nat} (hw₁ : 0 < w₁) (hw₂ : 0 < w₂) (n : Nat) :
    (Geometry.of w₂ (Geometry.of w₁ n).outSize).outSize = (Geometry.of (w₁ * w₂) n).outSize := by
  apply eq_of_forall_lt_iff
  intro o
  rw [Geometry.lt_outSize_iff hw₂, Geometry.lt_outSize_iff hw₁,
    Geometry.lt_outSize_iff (Nat.mul_pos hw₁ hw₂), Nat.mul_assoc, Nat.mul_comm w₂ w₁]

/-- There are no more windows in a row than elements. -/
theorem Geometry.outSize_le {w : Nat} (hw : 0 < w) (n : Nat) : (Geometry.of w n).outSize ≤ n := by
  apply Nat.le_of_not_lt
  intro h
  have hstart := (Geometry.lt_outSize_iff hw).1 h
  have hle : n ≤ n * w := Nat.le_mul_of_pos_right n hw
  omega

/-- If windows of length `w₁ * w₂` are accepted, so are windows of length `w₁` and, for their
results, windows of length `w₂`. -/
theorem Descriptor.exists_new_compose {w₁ w₂ b n : Nat}
    (hd : Descriptor.new k (w₁ * w₂) b n = .ok d) :
    ∃ d₁ d₂, Descriptor.new k w₁ b n = .ok d₁
      ∧ Descriptor.new k w₂ b d₁.geometry.outSize = .ok d₂ := by
  rcases Descriptor.new_eq_ok_iff.1 hd with ⟨-, hwindow, hbatch, hrow⟩
  have hpos : 0 < w₁ * w₂ := hwindow ▸ d.window_pos
  have hw₁ : 0 < w₁ := Nat.pos_of_mul_pos_right hpos
  have hw₂ : 0 < w₂ := Nat.pos_of_mul_pos_left hpos
  have hle₁ : w₁ ≤ w₁ * w₂ := Nat.le_mul_of_pos_right w₁ hw₂
  have hle₂ : w₂ ≤ w₁ * w₂ := Nat.le_mul_of_pos_left w₂ hw₁
  have hout := Geometry.outSize_le hw₁ n
  have hb := d.batch_le
  have hlast := d.lastIndex_le
  rw [hbatch] at hb
  rw [hwindow, hrow] at hlast
  let d₁ : Descriptor := ⟨k, w₁, b, n, hw₁, hb, by omega⟩
  let d₂ : Descriptor := ⟨k, w₂, b, (Geometry.of w₁ n).outSize, hw₂, hb, by omega⟩
  exact ⟨d₁, d₂, Descriptor.new_eq_ok_iff.2 ⟨rfl, rfl, rfl, rfl⟩,
    Descriptor.new_eq_ok_iff.2 ⟨rfl, rfl, rfl, rfl⟩⟩

/-- A reduction whose input are the results of another one leaves what a single reduction in windows
of both lengths together leaves. -/
theorem Descriptor.sameValues_reduce_reduce {d₁ d₂ : Descriptor} (hk : d.kind ≠ .sum)
    (hkind₁ : d₁.kind = d.kind) (hkind₂ : d₂.kind = d.kind)
    (hwindow : d.window = d₁.window * d₂.window) (hfirst : d₁.inputShape = d.inputShape)
    (hsecond : d₂.inputShape = d₁.outputShape) (hshape : input.shape = d.inputShape)
    (hcells : ∀ x ∈ input.cells, d.kind.Accepts x) :
    (d₂.reduce (d₁.reduce input)).SameValues (d.reduce input) := by
  have hbatch₁ : d₁.batch = d.batch := congrArg Shape.rows hfirst
  have hbatch₂ : d₂.batch = d₁.batch := congrArg Shape.rows hsecond
  have hrow₁ : d₁.rowLength = d.rowLength := congrArg Shape.cols hfirst
  have hrow₂ : d₂.rowLength = d₁.geometry.outSize := congrArg Shape.cols hsecond
  have hout : d₂.geometry.outSize = d.geometry.outSize := by
    rw [Descriptor.geometry, Descriptor.geometry, hrow₂, hwindow, ← hrow₁]
    exact Geometry.outSize_outSize d₁.window_pos d₂.window_pos d₁.rowLength
  have hshape₁ : input.shape = d₁.inputShape := hshape.trans hfirst.symm
  have hcells₁ : ∀ x ∈ input.cells, d₁.kind.Accepts x := hkind₁ ▸ hcells
  have hcells₂ : ∀ x ∈ (d₁.reduce input).cells, d₂.kind.Accepts x := by
    rw [hkind₂, ← hkind₁]
    exact Descriptor.accepts_reduce (hkind₁ ▸ hk) hshape₁ hcells₁
  have hresult : (d₂.reduce (d₁.reduce input)).shape = d.outputShape :=
    congrArg₂ Shape.mk (hbatch₂.trans hbatch₁) hout
  refine ⟨hresult, ?_⟩
  intro row hrow o ho
  rw [hresult] at hrow ho
  have hr₁ : row < d₁.batch := hbatch₁ ▸ hrow
  have hr₂ : row < d₂.batch := hbatch₂ ▸ hr₁
  have ho₂ : o < d₂.geometry.outSize := hout ▸ ho
  refine ⟨_, _, Tensor.at?_ofFn hr₂ ho₂, Tensor.at?_ofFn hrow ho, ?_⟩
  -- Both values are results for the elements of the long window.
  have honce : d.kind.Summarizes
      (d.kind.reduceGroups (d.kind.paddedGroups d.window d.rowLength input row o)) _ :=
    Kind.summarizes_paddedGroups (congrArg Shape.cols hshape) hcells o
  have htwice : d₂.kind.Summarizes
      (d₂.kind.reduceGroups
        (d₂.kind.paddedGroups d₂.window d₂.rowLength (d₁.reduce input) row o)) _ :=
    Kind.summarizes_paddedGroups (congrArg Shape.cols hsecond.symm) hcells₂ o
  rw [hkind₂, ← hkind₁] at htwice
  have hlong := Descriptor.summarizes_of_reduce hshape₁ hcells₁ hr₁ htwice
  have hstart : o * d₂.window * d₁.window = o * d.window := by
    rw [hwindow, Nat.mul_assoc, Nat.mul_comm d₂.window]
  rw [Nat.add_mul, hstart, Nat.mul_comm d₂.window, ← hwindow, hkind₁] at hlong
  rw [hkind₂]
  exact hlong.beq hk honce

/-- Away from NaN, reducing in windows of length `w₁` and the results again in windows of length `w₂`
is the same, up to the sign of zero, as reducing in windows of length `w₁ * w₂`, for rows of every
length and whatever windows end past their row. A conjunction is so on all numbers. -/
theorem execute_build_compose {w₁ w₂ b n : Nat} (hk : k ≠ .sum)
    (hd : Descriptor.new k (w₁ * w₂) b n = .ok d) (hshape : input.shape = ⟨b, n⟩)
    (hcells : ∀ x ∈ input.cells, k.Accepts x) :
    ∃ d₁ d₂ mid out whole, Descriptor.new k w₁ b n = .ok d₁
      ∧ Descriptor.new k w₂ b d₁.geometry.outSize = .ok d₂
      ∧ (Program.build d₁).execute input = .ok mid
      ∧ (Program.build d₂).execute mid = .ok out
      ∧ (Program.build d).execute input = .ok whole
      ∧ out.SameValues whole := by
  rcases Descriptor.exists_new_compose hd with ⟨d₁, d₂, hd₁, hd₂⟩
  rcases Descriptor.new_eq_ok_iff.1 hd₁ with ⟨hkind₁, hwindow₁, hbatch₁, hrow₁⟩
  rcases Descriptor.new_eq_ok_iff.1 hd₂ with ⟨hkind₂, hwindow₂, hbatch₂, hrow₂⟩
  rcases Descriptor.new_eq_ok_iff.1 hd with ⟨rfl, hwindow, rfl, rfl⟩
  have hfirst : d₁.inputShape = d.inputShape := congrArg₂ Shape.mk hbatch₁ hrow₁
  have hsecond : d₂.inputShape = d₁.outputShape :=
    congrArg₂ Shape.mk (hbatch₂.trans hbatch₁.symm) hrow₂
  subst hwindow₁ hwindow₂
  exact ⟨d₁, d₂, d₁.reduce input, d₂.reduce (d₁.reduce input), d.reduce input, hd₁, hd₂,
    Program.execute_build (hshape.trans hfirst.symm), Program.execute_build hsecond.symm,
    Program.execute_build hshape,
    Descriptor.sameValues_reduce_reduce hk hkind₁ hkind₂ hwindow hfirst hsecond hshape hcells⟩

/-- Eleven elements in windows of two and then of four, the last of them partial both times, or at
once in windows of eight. -/
theorem execute_build_compose_eleven :
    ∃ d, Descriptor.new .min (2 * 4) 1 11 = .ok d
      ∧ ∃ input : Tensor, input.shape = ⟨1, 11⟩ ∧ (∀ x ∈ input.cells, Kind.min.Accepts x)
        ∧ ∃ d₁ d₂ mid out whole, Descriptor.new .min 2 1 11 = .ok d₁
          ∧ Descriptor.new .min 4 1 6 = .ok d₂
          ∧ (Program.build d₁).execute input = .ok mid
          ∧ (Program.build d₂).execute mid = .ok out
          ∧ (Program.build d).execute input = .ok whole
          ∧ out.SameValues whole := by
  have hd : Descriptor.new .min (2 * 4) 1 11
      = .ok ⟨.min, 8, 1, 11, by decide, by decide, by decide⟩ := rfl
  let input := Tensor.ofRow [3.0, -1.0, 4.0, 1.0, -0.0, 9.0, 0.0, 6.0, 5.0, 8.0, -7.0]
  have hcells : ∀ x ∈ input.cells, Kind.min.Accepts x := by decide +kernel
  rcases execute_build_compose (by decide) hd rfl hcells with ⟨d₁, d₂, mid, out, whole, hd₁, hd₂, h⟩
  have hout : d₁.geometry.outSize = 6 := by
    rw [Descriptor.geometry, Descriptor.window_of_new hd₁, Descriptor.rowLength_of_new hd₁]
    rfl
  rw [hout] at hd₂
  exact ⟨_, hd, input, rfl, hcells, d₁, d₂, mid, out, whole, hd₁, hd₂, h⟩

end WindowReduction
