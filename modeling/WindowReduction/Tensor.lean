/-!
# Tensors

Matrices of single-precision numbers, stored row by row. `Tensor.at?` is the view through which
they are read, and `Tensor.tabulate` computes one cell after the other in row-major order and stops
at the first failure.

Main statements: `Tensor.at?_tabulate` and `Tensor.exists_tabulate_eq_ok` (what a computed matrix
holds, and when there is one), `Tensor.ext_at?` (a matrix is determined by its elements).
-/

namespace WindowReduction

/-! ## Shapes -/

/-- The number of rows and columns of a matrix. -/
structure Shape where
  rows : Nat
  cols : Nat
  deriving DecidableEq, Repr

namespace Shape

/-- The number of cells of a matrix. -/
def size (s : Shape) : Nat :=
  s.rows * s.cols

/-- A shape as a pair in parentheses. -/
def text (s : Shape) : String :=
  "(" ++ toString s.rows ++ ", " ++ toString s.cols ++ ")"

/-- In row-major order a cell of the matrix comes before its end. -/
theorem index_lt {s : Shape} {row col : Nat} (hr : row < s.rows) (hc : col < s.cols) :
    row * s.cols + col < s.size := by
  have h : (row + 1) * s.cols ≤ s.rows * s.cols := Nat.mul_le_mul_right s.cols hr
  rw [Nat.succ_mul] at h
  unfold size
  omega

/-- The row is read back from a row-major index. -/
theorem index_div {s : Shape} {col : Nat} (row : Nat) (hc : col < s.cols) :
    (row * s.cols + col) / s.cols = row := by
  rw [Nat.mul_comm, Nat.mul_add_div (Nat.zero_lt_of_lt hc), Nat.div_eq_of_lt hc, Nat.add_zero]

/-- The column is read back from a row-major index. -/
theorem index_mod {s : Shape} {col : Nat} (row : Nat) (hc : col < s.cols) :
    (row * s.cols + col) % s.cols = col := by
  rw [Nat.mul_comm, Nat.mul_add_mod, Nat.mod_eq_of_lt hc]

/-- Every row-major index before the end is the index of a cell. -/
theorem div_lt_mod_lt {s : Shape} {k : Nat} (hk : k < s.size) :
    k / s.cols < s.rows ∧ k % s.cols < s.cols := by
  have hcols : 0 < s.cols := Nat.pos_of_mul_pos_left (Nat.zero_lt_of_lt hk)
  exact ⟨(Nat.div_lt_iff_lt_mul hcols).2 hk, Nat.mod_lt k hcols⟩

end Shape

/-! ## Filling an array in order -/

/-- Appends `n` values to `filled`, the value at an index being computed from the index. Indices
are visited in order, and the first failure ends the run. -/
def fill {ε α : Type} (cell : Nat → Except ε α) : Nat → Array α → Except ε (Array α)
  | 0, filled => .ok filled
  | n + 1, filled =>
    match cell filled.size with
    | .error e => .error e
    | .ok x => fill cell n (filled.push x)

/-- A run without failure appends exactly the requested number of values. -/
theorem fill_size {ε α : Type} {cell : Nat → Except ε α} {n : Nat} {filled out : Array α}
    (h : fill cell n filled = .ok out) : out.size = filled.size + n := by
  induction n generalizing filled with
  | zero => simp [fill] at h; simp [h]
  | succ n ih =>
    rw [fill] at h
    split at h
    · simp at h
    · have := ih h
      simp at this
      omega

/-- A run without failure keeps the values that were there. -/
theorem getElem?_fill_of_lt {ε α : Type} {cell : Nat → Except ε α} {n k : Nat}
    {filled out : Array α} (h : fill cell n filled = .ok out) (hk : k < filled.size) :
    out[k]? = filled[k]? := by
  induction n generalizing filled with
  | zero => simp [fill] at h; simp [h]
  | succ n ih =>
    rw [fill] at h
    split at h
    · simp at h
    · rw [ih h (by simp; omega), Array.getElem?_push_lt hk, Array.getElem?_eq_getElem hk]

/-- A run without failure has computed each value that it appends. -/
theorem getElem?_fill {ε α : Type} {cell : Nat → Except ε α} {n k : Nat} {filled out : Array α}
    (h : fill cell n filled = .ok out) (hlow : filled.size ≤ k) (hhigh : k < filled.size + n) :
    ∃ x, cell k = .ok x ∧ out[k]? = some x := by
  induction n generalizing filled with
  | zero => omega
  | succ n ih =>
    rw [fill] at h
    split at h
    · simp at h
    · rename_i x hx
      rcases Nat.eq_or_lt_of_le hlow with rfl | hlt
      · refine ⟨x, hx, ?_⟩
        rw [getElem?_fill_of_lt h (by simp)]
        simp
      · exact ih h (by simp; omega) (by simp; omega)

/-- A run succeeds when every value that it appends can be computed. -/
theorem exists_fill_eq_ok {ε α : Type} {cell : Nat → Except ε α} {n : Nat} {filled : Array α}
    (h : ∀ k, filled.size ≤ k → k < filled.size + n → ∃ x, cell k = .ok x) :
    ∃ out, fill cell n filled = .ok out := by
  induction n generalizing filled with
  | zero => exact ⟨filled, rfl⟩
  | succ n ih =>
    rcases h filled.size (Nat.le_refl _) (by omega) with ⟨x, hx⟩
    rw [fill, hx]
    apply ih
    intro k hlow hhigh
    rw [Array.size_push] at hlow hhigh
    exact h k (by omega) (by omega)

/-! ## Tensors -/

/-- A matrix of single-precision numbers in row-major order. -/
structure Tensor where
  shape : Shape
  cells : Array Float32
  size_cells : cells.size = shape.size
  deriving DecidableEq

namespace Tensor

/-- The element in a row and column, `none` outside the matrix. -/
def at? (t : Tensor) (row col : Nat) : Option Float32 :=
  if row < t.shape.rows ∧ col < t.shape.cols then t.cells[row * t.shape.cols + col]? else none

/-- The element at signed coordinates, `none` outside the matrix. -/
def atInt? (t : Tensor) (row col : Int) : Option Float32 :=
  if 0 ≤ row ∧ 0 ≤ col then t.at? row.toNat col.toNat else none

/-- The matrix of a shape whose cells are computed in row-major order; the first failure ends the
computation. -/
def tabulate {ε : Type} (shape : Shape) (cell : Nat → Nat → Except ε Float32) : Except ε Tensor :=
  match h : fill (fun k => cell (k / shape.cols) (k % shape.cols)) shape.size #[] with
  | .error e => .error e
  | .ok cells => .ok ⟨shape, cells, by simpa using fill_size h⟩

/-- The matrix of a shape whose cells are given by a function. -/
def ofFn (shape : Shape) (cell : Nat → Nat → Float32) : Tensor where
  shape := shape
  cells := Array.ofFn fun k : Fin shape.size => cell (k / shape.cols) (k % shape.cols)
  size_cells := by simp

/-- The matrix of a shape with the given cells, if their number is right. -/
def ofCells? (shape : Shape) (cells : Array Float32) : Option Tensor :=
  if h : cells.size = shape.size then some ⟨shape, cells, h⟩ else none

/-! ### Elements -/

/-- There is an element in every row and column of a matrix. -/
theorem exists_at?_eq_some {t : Tensor} {row col : Nat} (hr : row < t.shape.rows)
    (hc : col < t.shape.cols) : ∃ x, t.at? row col = some x := by
  have hk : row * t.shape.cols + col < t.cells.size := t.size_cells ▸ Shape.index_lt hr hc
  exact ⟨t.cells[row * t.shape.cols + col], by simp [at?, hr, hc, hk]⟩

/-- Two matrices of one shape with the same elements are the same. -/
theorem ext_at? {t u : Tensor} (hshape : t.shape = u.shape)
    (h : ∀ row < t.shape.rows, ∀ col < t.shape.cols, t.at? row col = u.at? row col) : t = u := by
  rcases t with ⟨shape, cells, hsize⟩
  rcases u with ⟨shape', cells', hsize'⟩
  cases hshape
  have hcells : cells = cells' := by
    apply Array.ext (hsize.trans hsize'.symm)
    intro k hk hk'
    rcases Shape.div_lt_mod_lt (hsize ▸ hk) with ⟨hr, hc⟩
    have hkk := h _ hr _ hc
    simpa [at?, hr, hc, Nat.div_add_mod', hk, hk'] using hkk
  cases hcells
  rfl

/-- An element of a matrix given by a function is the function's value. -/
theorem at?_ofFn {shape : Shape} {cell : Nat → Nat → Float32} {row col : Nat}
    (hr : row < shape.rows) (hc : col < shape.cols) :
    (ofFn shape cell).at? row col = some (cell row col) := by
  simp [at?, ofFn, hr, hc, Shape.index_lt hr hc, Shape.index_div row hc, Shape.index_mod row hc]

/-- A computed matrix has the requested shape. -/
theorem shape_of_tabulate {ε : Type} {shape : Shape} {cell : Nat → Nat → Except ε Float32}
    {t : Tensor} (h : tabulate shape cell = .ok t) : t.shape = shape := by
  unfold tabulate at h
  split at h
  · simp at h
  · simp at h; simp [← h]

/-- An element of a computed matrix is the value of its cell. -/
theorem at?_tabulate {ε : Type} {shape : Shape} {cell : Nat → Nat → Except ε Float32} {t : Tensor}
    (h : tabulate shape cell = .ok t) {row col : Nat} (hr : row < shape.rows)
    (hc : col < shape.cols) : ∃ x, cell row col = .ok x ∧ t.at? row col = some x := by
  unfold tabulate at h
  split at h
  · simp at h
  · rename_i cells hcells
    rcases getElem?_fill hcells (Nat.zero_le _) (by simpa using Shape.index_lt hr hc) with
      ⟨x, hx, hget⟩
    rw [Shape.index_div row hc, Shape.index_mod row hc] at hx
    cases h
    exact ⟨x, hx, by simp [at?, hr, hc, hget]⟩

/-- A matrix can be computed when each of its cells can. -/
theorem exists_tabulate_eq_ok {ε : Type} {shape : Shape} {cell : Nat → Nat → Except ε Float32}
    (h : ∀ row < shape.rows, ∀ col < shape.cols, ∃ x, cell row col = .ok x) :
    ∃ t, tabulate shape cell = .ok t := by
  have hfill : ∃ out, fill (fun k => cell (k / shape.cols) (k % shape.cols)) shape.size #[]
      = .ok out := by
    apply exists_fill_eq_ok
    intro k _ hk
    rcases Shape.div_lt_mod_lt (s := shape) (k := k) (by simpa using hk) with ⟨hr, hc⟩
    exact h _ hr _ hc
  rcases hfill with ⟨out, hout⟩
  unfold tabulate
  split
  · rename_i e he
    rw [hout] at he
    cases he
  · exact ⟨_, rfl⟩

end Tensor

end WindowReduction
