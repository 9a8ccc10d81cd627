import WindowReduction.Kernel.Value
import WindowReduction.Word

/-!
# Running kernels

A kernel body is run for one output cell. Its variables live in one store for the whole body, so a
variable declared in a block keeps its value after it; reading a variable that was never written is
a fault. The integer unit is a parameter, so that the same body can be run with the integers of a
shader.

Main statements: `Store.get?_set` (a write changes one variable), `lt_tripCount_iff` (the values of a
loop's counter), `Stmt.execAll_append` (statements run in order).
-/

namespace WindowReduction

/-! ## Stores -/

/-- The values of the variables that have been written. -/
structure Store where
  slots : Vector (Option Value) 8
  deriving DecidableEq

namespace Store

/-- The store in which no variable has a value. -/
def empty : Store :=
  ⟨Vector.replicate 8 none⟩

/-- The value of a variable. -/
def get? (s : Store) (v : Var) : Option Value :=
  s.slots[v.slot]

/-- Gives a variable a value. -/
def set (s : Store) (v : Var) (x : Value) : Store :=
  ⟨s.slots.set v.slot (some x)⟩

/-- In the empty store no variable has a value. -/
@[simp] theorem get?_empty (v : Var) : empty.get? v = none := by
  simp [get?, empty]

/-- A write changes the variable that it names and no other. -/
theorem get?_set (s : Store) (v w : Var) (x : Value) :
    (s.set v x).get? w = if w = v then some x else s.get? w := by
  by_cases h : w = v
  · subst h; simp [get?, set]
  · have hslot : (v.slot : Nat) ≠ w.slot := fun he => h (Var.slot_inj.1 (Fin.ext he)).symm
    simp [get?, set, h, hslot]

/-- The value of a variable that must have been written. -/
def read (s : Store) (v : Var) : Except Halt Value :=
  match s.get? v with
  | some x => .ok x
  | none => .error (.fault (.unbound v))

end Store

/-! ## Expressions -/

/-- What a kernel body is run for: one output cell of one kernel on one input. -/
structure Invocation where
  unit : IntUnit
  kernel : Kernel
  input : Tensor
  row : Nat
  col : Nat

namespace Invocation

/-- Whether the guard of the fetch helper turns an index away. A guard past the 64-bit signed range
counts as the end of that range. -/
def rejects (c : Invocation) (index : Int) : Bool :=
  match c.kernel.guard? with
  | none => false
  | some rowLength => index < 0 || (min rowLength maxInt64 : Nat) ≤ index

/-- Reads an input element: the neutral element where the guard turns the index away, a fault
outside the input otherwise. -/
def fetch (c : Invocation) (row index : Int) : Except Halt Float32 :=
  if c.rejects index then .ok c.kernel.neutral
  else match c.input.atInt? row index with
    | some x => .ok x
    | none => .error (.fault (.fetchOutOfRange row index c.input.shape))

/-- A coordinate of the output cell. -/
def coord (c : Invocation) : Nat → Except Halt Nat
  | 0 => .ok c.row
  | 1 => .ok c.col
  | _ => .error (.fault .coordinateAxis)

end Invocation

/-- The value of an expression. Operands are evaluated from left to right. -/
def Expr.eval (c : Invocation) (vars : Store) : Expr → Except Halt Value
  | .int n => .ok (.int (c.unit.wrap n))
  | .float x => .ok (.float x)
  | .neutral => .ok (.float c.kernel.neutral)
  | .var v => vars.read v
  | .coord axis => do
    let n ← c.coord axis
    return .int (c.unit.wrap n)
  | .fetch row index => do
    let r ← (← row.eval c vars).asInt
    let k ← (← index.eval c vars).asInt
    let x ← c.fetch r k
    return .float x
  | .binary op a b => do
    let x ← a.eval c vars
    op.admit x
    let y ← b.eval c vars
    op.apply c.unit x y
  | .builtin fn a b => do
    let x ← a.eval c vars
    let y ← b.eval c vars
    fn.apply x y
  | .lane vector k => do
    let v ← vector.eval c vars
    v.lane k
  | .pack ty e₀ e₁ e₂ e₃ => do
    let x₀ ← e₀.eval c vars
    let x₁ ← e₁.eval c vars
    let x₂ ← e₂.eval c vars
    let x₃ ← e₃.eval c vars
    Value.pack ty ⟨x₀, x₁, x₂, x₃⟩
  | .splat ty e => do
    let x ← e.eval c vars
    Value.splat ty x
  | .allLanes vector => do
    let lanes ← (← vector.eval c vars).asBoolVector
    return .bool (lanes.toList.all id)
  | .toFloat e => do
    let x ← (← e.eval c vars).toFloat
    return .float x

/-! ## Statements -/

/-- What statements change: the variables and the value of the output cell. -/
structure CellState where
  vars : Store
  output? : Option Float32
  deriving DecidableEq

namespace CellState

/-- Nothing is written yet. -/
def initial : CellState :=
  ⟨.empty, none⟩

/-- Gives a variable a value. -/
def set (s : CellState) (v : Var) (x : Value) : CellState :=
  { s with vars := s.vars.set v x }

end CellState

/-- Runs `body` with the `n` iteration numbers from `first` on, each time on the result of the time
before; the first failure ends the run. -/
def iterateFrom {ε σ : Type} (body : Nat → σ → Except ε σ) (first : Nat) :
    Nat → σ → Except ε σ
  | 0, s => .ok s
  | n + 1, s =>
    match body first s with
    | .error e => .error e
    | .ok s => iterateFrom body (first + 1) n s

/-- Iterations run in two stages run as at once. -/
theorem iterateFrom_add {ε σ : Type} (body : Nat → σ → Except ε σ) (first m n : Nat) (s : σ) :
    iterateFrom body first (m + n) s
      = (iterateFrom body first m s >>= iterateFrom body (first + m) n) := by
  induction m generalizing first s with
  | zero => rw [Nat.zero_add]; rfl
  | succ m ih =>
    rw [Nat.succ_add, iterateFrom, iterateFrom]
    cases body first s with
    | error e => rfl
    | ok s' =>
      simp only
      rw [ih, Nat.add_assoc, Nat.add_comm 1 m]

/-- How often a loop runs that counts from zero below `count` in positive steps. -/
def tripCount (count step : Nat) : Nat :=
  (count + (step - 1)) / step

/-- The counter stays below the bound in each iteration of a loop, and no iteration is missing. -/
theorem lt_tripCount_iff {count step k : Nat} (h : 0 < step) :
    k < tripCount count step ↔ k * step < count := by
  unfold tripCount
  rw [← Nat.succ_le_iff, Nat.le_div_iff_mul_le h, Nat.succ_mul]
  omega
mutual

/-- Runs a statement. -/
def Stmt.exec (c : Invocation) : Stmt → CellState → Except Halt CellState
  | .declare v ty e, s => do
    let x ← e.eval c s.vars
    if x.ty = ty then return s.set v x else mismatch
  | .assign v e, s => do
    -- A variable without a value is a fault before any fault of the new value.
    let old ← s.vars.read v
    let x ← e.eval c s.vars
    if x.ty = old.ty then return s.set v x else mismatch
  | .loop v count step body, s =>
    if step = 0 then mismatch
    else
      -- The counter is set anew for each iteration, whatever the body has assigned to it.
      iterateFrom
        (fun k s => Stmt.execAll c body (s.set v (.int (c.unit.wrap (k * step : Nat)))))
        0 (tripCount count step) s
  -- Variables that a block declares stay in the store; only the nesting of the source differs.
  | .block body, s => Stmt.execAll c body s
  | .output e, s => do
    let x ← (← e.eval c s.vars).asFloat
    return { s with output? := some x }

/-- Runs statements in order. -/
def Stmt.execAll (c : Invocation) : List Stmt → CellState → Except Halt CellState
  | [], s => .ok s
  | stmt :: rest, s => do
    let s ← stmt.exec c s
    Stmt.execAll c rest s

end

-- One equation for each construct, by which runs are followed.
attribute [grind =] Expr.eval Stmt.exec Stmt.execAll

/-- Statements run in order. -/
theorem Stmt.execAll_append (c : Invocation) (first rest : List Stmt) (s : CellState) :
    Stmt.execAll c (first ++ rest) s = (Stmt.execAll c first s >>= Stmt.execAll c rest) := by
  induction first generalizing s with
  | nil => rw [List.nil_append, Stmt.execAll]; rfl
  | cons stmt first ih =>
    rw [List.cons_append, Stmt.execAll, Stmt.execAll]
    cases stmt.exec c s with
    | error e => rfl
    | ok s' => exact ih s'

/-! ## Kernels -/

/-- Runs the kernel's body and gives the value that it writes to the output cell. -/
def Invocation.run (c : Invocation) : Except Halt Float32 := do
  let s ← Stmt.execAll c c.kernel.body .initial
  match s.output? with
  | some x => return x
  | none => .error (.fault .missingOutput)

/-- Runs a kernel for every cell of an output matrix. -/
def Kernel.run (unit : IntUnit) (k : Kernel) (input : Tensor) (outputShape : Shape) :
    Except Halt Tensor :=
  Tensor.tabulate outputShape fun row col => Invocation.run ⟨unit, k, input, row, col⟩

end WindowReduction
