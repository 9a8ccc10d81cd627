/-!
# Kernel syntax

The statement tree of a reduction kernel. A kernel body is run once for each output cell; the tree
does not depend on a target, so that it can be printed as shader source and executed directly.

Main definitions: `Expr`, `Stmt` and `Kernel`, the list of all sub-expressions in printing order
(`Expr.subterms`, `Kernel.exprs`) and the counts read off it (`Kernel.fetchCount`,
`Kernel.binaryCount`).
Main statements: `Expr.forall_mem_subterms_iff` (what holds of all parts, by operands).
-/

namespace WindowReduction

/-! ## Types and variables -/

/-- The types of kernel values. -/
inductive Ty where
  | int
  | float
  | bool
  | vec4
  | bvec4
  deriving DecidableEq, Repr

/-- The name of a type in shader source. -/
def Ty.name : Ty → String
  | .int => "int"
  | .float => "float"
  | .bool => "bool"
  | .vec4 => "vec4"
  | .bvec4 => "bvec4"

/-- The local variables that a kernel body may use. -/
inductive Var where
  | batch
  | outIdx
  | inOffset
  | i
  | inIdx
  | accumulator
  | values
  | groupAll
  deriving DecidableEq, Repr

/-- The name of a variable in shader source. -/
def Var.name : Var → String
  | .batch => "batch"
  | .outIdx => "outIdx"
  | .inOffset => "inOffset"
  | .i => "i"
  | .inIdx => "inIdx"
  | .accumulator => "accumulator"
  | .values => "values"
  | .groupAll => "groupAll"

/-- The slot that a variable takes in a store. -/
def Var.slot : Var → Fin 8
  | .batch => 0
  | .outIdx => 1
  | .inOffset => 2
  | .i => 3
  | .inIdx => 4
  | .accumulator => 5
  | .values => 6
  | .groupAll => 7

/-- Distinct variables have distinct slots. -/
theorem Var.slot_inj {v w : Var} : v.slot = w.slot ↔ v = w := by
  cases v <;> cases w <;> decide

/-! ## Expressions -/

/-- The operators that are written between their operands. -/
inductive BinaryOp where
  | add
  | mul
  | atLeast
  | and
  deriving DecidableEq, Repr

/-- The two-argument functions that are written as calls. -/
inductive Builtin where
  | dot
  | min
  | max
  deriving DecidableEq, Repr

/-- Kernel expressions. -/
inductive Expr where
  | int (value : Int)
  | float (value : Float32)
  /-- The kernel's neutral element. -/
  | neutral
  | var (v : Var)
  /-- A coordinate of the output cell: axis 0 is the row, axis 1 the window. -/
  | coord (axis : Nat)
  /-- One input element, read through the kernel's fetch helper. -/
  | fetch (row index : Expr)
  | binary (op : BinaryOp) (a b : Expr)
  | builtin (fn : Builtin) (a b : Expr)
  | lane (vector : Expr) (k : Nat)
  | pack (ty : Ty) (a b c d : Expr)
  | splat (ty : Ty) (value : Expr)
  /-- Whether every lane of a Boolean vector is true. -/
  | allLanes (vector : Expr)
  | toFloat (value : Expr)
  deriving DecidableEq, Repr

/-- Whether the outermost constructor is an operator written between its operands. -/
def Expr.isBinary : Expr → Bool
  | .binary .. => true
  | _ => false

/-- Whether the outermost constructor reads an input element. -/
def Expr.isFetch : Expr → Bool
  | .fetch .. => true
  | _ => false

/-- The expression and all its parts, parents first and operands from left to right. -/
def Expr.subterms : Expr → List Expr
  | .int n => [.int n]
  | .float x => [.float x]
  | .neutral => [.neutral]
  | .var v => [.var v]
  | .coord axis => [.coord axis]
  | .fetch r k => .fetch r k :: (r.subterms ++ k.subterms)
  | .binary op a b => .binary op a b :: (a.subterms ++ b.subterms)
  | .builtin fn a b => .builtin fn a b :: (a.subterms ++ b.subterms)
  | .lane v k => .lane v k :: v.subterms
  | .pack ty a b c d =>
    .pack ty a b c d :: (a.subterms ++ b.subterms ++ c.subterms ++ d.subterms)
  | .splat ty e => .splat ty e :: e.subterms
  | .allLanes v => .allLanes v :: v.subterms
  | .toFloat e => .toFloat e :: e.subterms

/-- The parts that an expression is directly made of, from left to right. -/
def Expr.operands : Expr → List Expr
  | .int _ | .float _ | .neutral | .var _ | .coord _ => []
  | .fetch a b | .binary _ a b | .builtin _ a b => [a, b]
  | .lane e _ | .splat _ e | .allLanes e | .toFloat e => [e]
  | .pack _ a b c d => [a, b, c, d]

theorem Expr.subterms_eq (e : Expr) : e.subterms = e :: e.operands.flatMap Expr.subterms := by
  cases e <;> simp [Expr.subterms, Expr.operands]

/-- The parts of an expression are the expression itself and the parts of its operands. -/
theorem Expr.forall_mem_subterms_iff {P : Expr → Prop} {e : Expr} :
    (∀ part ∈ e.subterms, P part) ↔ P e ∧ ∀ a ∈ e.operands, ∀ part ∈ a.subterms, P part := by
  rw [Expr.subterms_eq, List.forall_mem_cons]
  constructor
  · rintro ⟨hself, hparts⟩
    exact ⟨hself, fun a ha part hpart => hparts part (List.mem_flatMap.2 ⟨a, ha, hpart⟩)⟩
  · rintro ⟨hself, hparts⟩
    refine ⟨hself, ?_⟩
    intro part hpart
    rcases List.mem_flatMap.1 hpart with ⟨a, ha, hpart⟩
    exact hparts a ha part hpart

/-! ## Statements and kernels -/

/-- Kernel statements. -/
inductive Stmt where
  | declare (v : Var) (ty : Ty) (value : Expr)
  | assign (v : Var) (value : Expr)
  /-- Runs `body` with `counter` at `0`, `step`, `2 * step`, … below `count`. -/
  | loop (counter : Var) (count step : Nat) (body : List Stmt)
  | block (body : List Stmt)
  /-- Writes the value of the output cell. -/
  | output (value : Expr)
  deriving Repr

mutual

/-- All expressions of a statement, those of nested statements included, in order. -/
def Stmt.exprs : Stmt → List Expr
  | .declare _ _ e => e.subterms
  | .assign _ e => e.subterms
  | .loop _ _ _ body => Stmt.exprsAll body
  | .block body => Stmt.exprsAll body
  | .output e => e.subterms

/-- All expressions of a list of statements, in order. -/
def Stmt.exprsAll : List Stmt → List Expr
  | [] => []
  | s :: rest => s.exprs ++ Stmt.exprsAll rest

end

/-- A kernel: what its fetch helper returns outside the row, the row length that the helper checks
indices against (no check without one), and the body. -/
structure Kernel where
  neutral : Float32
  guard? : Option Nat
  body : List Stmt
  deriving Repr

namespace Kernel

/-- All expressions of a kernel's body, in order. -/
def exprs (k : Kernel) : List Expr :=
  Stmt.exprsAll k.body

/-- The number of places of the body that read an input element. -/
def fetchCount (k : Kernel) : Nat :=
  k.exprs.countP Expr.isFetch

/-- The number of operators in the body that are written between their operands. -/
def binaryCount (k : Kernel) : Nat :=
  k.exprs.countP Expr.isBinary

end Kernel

end WindowReduction
