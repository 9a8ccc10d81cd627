import WindowReduction.Kind
import WindowReduction.Word

/-!
# Reduction descriptors

A descriptor asks for a reduction of every row of a matrix in consecutive windows of one length. It
can only be made when all window indices fit a 32-bit `int`, which is what the kernel computes them
in. `Geometry` holds the quantities derived from it.

Main statements: `Descriptor.new_eq_ok_iff` (which sizes are accepted), `Geometry.lt_outSize_iff`
(which windows there are), `Descriptor.outSize_mul_window` (windows that divide the row).
-/

namespace WindowReduction

/-- The number of lanes that a kernel processes together. -/
def laneCount : Nat := 4

/-! ## Geometry -/

/-- The sizes that a window length and a row length determine. -/
structure Geometry where
  /-- Windows in a row, the last of which may run past its end. -/
  outSize : Nat
  /-- Elements of a window that fill groups of four. -/
  vectorizedCount : Nat
  /-- Elements of a window after the last full group. -/
  remainder : Nat
  /-- Whether the last window of a row runs past its end. -/
  needsGuard : Bool
  deriving DecidableEq, Repr

namespace Geometry

/-- The sizes for windows of length `window` in a row of `rowLength` elements. -/
def of (window rowLength : Nat) : Geometry where
  outSize := rowLength / window + if rowLength % window = 0 then 0 else 1
  vectorizedCount := window / laneCount * laneCount
  remainder := window % laneCount
  needsGuard := 0 < rowLength % window

/-- Each element of a window is in a full group or after the last one. -/
theorem vectorizedCount_add_remainder (window rowLength : Nat) :
    (of window rowLength).vectorizedCount + (of window rowLength).remainder = window :=
  Nat.div_add_mod' window laneCount

/-- There is a window for each multiple of the window length inside the row, and no other. -/
theorem lt_outSize_iff {window rowLength o : Nat} (hw : 0 < window) :
    o < (of window rowLength).outSize ↔ o * window < rowLength := by
  have hrow := Nat.div_add_mod' rowLength window
  have hmod := Nat.mod_lt rowLength hw
  simp only [of]
  constructor
  · intro h
    rcases Nat.lt_or_ge o (rowLength / window) with hfull | hpart
    · have := Nat.mul_le_mul_right window (Nat.succ_le_of_lt hfull)
      rw [Nat.succ_mul] at this
      omega
    · split at h
      · omega
      · have ho : o = rowLength / window := by omega
        subst ho
        omega
  · intro h
    rcases Nat.lt_or_ge o (rowLength / window) with hfull | hpart
    · omega
    · have hmul := Nat.mul_le_mul_right window hpart
      have ho : o = rowLength / window := by
        refine Nat.le_antisymm ?_ hpart
        rw [Nat.le_div_iff_mul_le hw]
        omega
      split <;> omega

/-- The form of a geometry in diagnostics. -/
def debug (g : Geometry) : String :=
  "ReduceGeometry \x7b out_size: " ++ toString g.outSize
    ++ ", vectorized_count: " ++ toString g.vectorizedCount
    ++ ", remainder: " ++ toString g.remainder
    ++ ", needs_bounds_guard: " ++ toString g.needsGuard ++ " \x7d"

end Geometry

/-! ## Descriptors -/

/-- A reduction of kind `kind` over `batch` rows of `rowLength` elements in windows of `window`
elements. -/
structure Descriptor where
  kind : Kind
  window : Nat
  batch : Nat
  rowLength : Nat
  window_pos : 0 < window
  batch_le : batch ≤ maxKernelInt
  lastIndex_le : rowLength + (window - 1) ≤ maxKernelInt
  deriving DecidableEq, Hashable, Repr

namespace Descriptor

/-- The descriptor of the given sizes, refused when there is no window or when a size leaves the
range of a kernel `int`. The last index of a window is summed up as a size. -/
def new (kind : Kind) (window batch rowLength : Nat) : Except Fault Descriptor :=
  if hw : 0 < window then
    if h : (addSizes? rowLength (window - 1)).any fitsKernelInt ∧ fitsKernelInt batch then
      .ok ⟨kind, window, batch, rowLength, hw, fitsKernelInt_iff.1 h.2,
        any_fitsKernelInt_addSizes?.1 h.1⟩
    else .error (.oversize window batch rowLength)
  else .error .zeroWindow

/-- Exactly the sizes whose window indices are kernel `int`s are accepted, and they are kept. -/
theorem new_eq_ok_iff {kind : Kind} {window batch rowLength : Nat} {d : Descriptor} :
    new kind window batch rowLength = .ok d ↔
      d.kind = kind ∧ d.window = window ∧ d.batch = batch ∧ d.rowLength = rowLength := by
  constructor
  · intro h
    unfold new at h
    split at h
    · split at h
      · cases h; exact ⟨rfl, rfl, rfl, rfl⟩
      · simp at h
    · simp at h
  · rintro ⟨rfl, rfl, rfl, rfl⟩
    have hindex := any_fitsKernelInt_addSizes?.2 d.lastIndex_le
    have hbatch := fitsKernelInt_iff.2 d.batch_le
    rw [new, dif_pos d.window_pos, dif_pos ⟨hindex, hbatch⟩]

theorem kind_of_new {kind : Kind} {window batch rowLength : Nat} {d : Descriptor}
    (h : new kind window batch rowLength = .ok d) : d.kind = kind :=
  (new_eq_ok_iff.1 h).1

theorem window_of_new {kind : Kind} {window batch rowLength : Nat} {d : Descriptor}
    (h : new kind window batch rowLength = .ok d) : d.window = window :=
  (new_eq_ok_iff.1 h).2.1

theorem batch_of_new {kind : Kind} {window batch rowLength : Nat} {d : Descriptor}
    (h : new kind window batch rowLength = .ok d) : d.batch = batch :=
  (new_eq_ok_iff.1 h).2.2.1

theorem rowLength_of_new {kind : Kind} {window batch rowLength : Nat} {d : Descriptor}
    (h : new kind window batch rowLength = .ok d) : d.rowLength = rowLength :=
  (new_eq_ok_iff.1 h).2.2.2

/-- The sizes derived from a descriptor. -/
def geometry (d : Descriptor) : Geometry :=
  Geometry.of d.window d.rowLength

/-- Windows whose length divides the row are as many as fit into it. -/
theorem outSize_mul_window {d : Descriptor} (h : d.window ∣ d.rowLength) :
    d.geometry.outSize * d.window = d.rowLength := by
  have hmod := Nat.mod_eq_zero_of_dvd h
  have hsize : d.geometry.outSize = d.rowLength / d.window := by
    simp only [geometry, Geometry.of]
    rw [if_pos hmod, Nat.add_zero]
  rw [hsize, Nat.div_mul_cancel h]

/-- The shape of the matrices that a descriptor reduces. -/
def inputShape (d : Descriptor) : Shape :=
  ⟨d.batch, d.rowLength⟩

/-- The shape of the results. -/
def outputShape (d : Descriptor) : Shape :=
  ⟨d.batch, d.geometry.outSize⟩

/-- The indices of a row that a window covers, as first index and end. The end may lie past the
row. The product and then the sum must stay below the limit of sizes. -/
def windowRange (d : Descriptor) (o : Nat) : Except Overflow (Nat × Nat) :=
  let first := o * d.window
  if sizeLimit ≤ first then .error .mul
  else if sizeLimit ≤ first + d.window then .error .add
  else .ok (first, first + d.window)

/-- The form of a descriptor in diagnostics. -/
def debug (d : Descriptor) : String :=
  "ReduceDescriptor \x7b kind: " ++ d.kind.debugName
    ++ ", window_size: " ++ toString d.window
    ++ ", batch_size: " ++ toString d.batch
    ++ ", in_size: " ++ toString d.rowLength ++ " \x7d"

end Descriptor

end WindowReduction
