import WindowReduction.Event
import WindowReduction.Scheme
import WindowReduction.Kernel.Equality
import WindowReduction.Kernel.Glsl
import WindowReduction.Kernel.Run

/-!
# Kernel programs

The kernel of a descriptor, with its source and the shape of its output. The kernel walks a window
in groups of four, pads the elements left over to one more group with the neutral element, and
checks indices only when the last window of a row runs past its end.

Main definitions: `Program.build` and `Building.of` (the program with what is reported of it).
Main statements: `Program.build_descriptor`, `Program.build_guard?` (when the built kernel checks
indices).
-/

namespace WindowReduction

/-! ## Emission -/

namespace Kernel

/-- A size as an integer constant; the largest 64-bit integer stands for anything beyond it. -/
def sizeConstant (n : Nat) : Expr :=
  .int (min n maxInt64 : Nat)

/-- The statements that declare the coordinates of the output cell, the first index of its window
and the accumulator. -/
def prologue (d : Descriptor) (s : Scheme) : List Stmt :=
  [.declare .batch .int (.coord 0),
    .declare .outIdx .int (.coord 1),
    .declare .inOffset .int (.binary .mul (.var .outIdx) (sizeConstant d.window)),
    .declare .accumulator s.accumulatorTy s.initExpr]

/-- Lane `k` of a group of `live` elements that starts at `inIdx`: an element of the input, or
padding from lane `live` on. -/
def groupLane (live k : Nat) : Expr :=
  -- The first lane needs no offset to its index.
  if live ≤ k then .neutral
  else if k = 0 then .fetch (.var .batch) (.var .inIdx)
  else .fetch (.var .batch) (.binary .add (.var .inIdx) (sizeConstant k))

/-- The statements that read the group of `live` elements at `first` and fold it in. -/
def groupStmts (s : Scheme) (first : Expr) (live : Nat) : List Stmt :=
  [.declare .inIdx .int first,
    .declare .values s.groupTy
      (.pack s.groupTy (groupLane live 0) (groupLane live 1) (groupLane live 2)
        (groupLane live 3))]
  ++ s.updateStmts

/-- The loop over the full groups of a window, if there are any. -/
def vectorLoop (g : Geometry) (s : Scheme) : List Stmt :=
  if g.vectorizedCount = 0 then []
  else
    [.loop .i g.vectorizedCount laneCount
      (groupStmts s (.binary .add (.var .inOffset) (.var .i)) laneCount)]

/-- The padded group of the elements after the full groups, if there are any. -/
def tailBlock (g : Geometry) (s : Scheme) : List Stmt :=
  if g.remainder = 0 then []
  else
    [.block
      (groupStmts s (.binary .add (.var .inOffset) (sizeConstant g.vectorizedCount))
        g.remainder)]

/-- The kernel that reduces windows of the given geometry by the given scheme. -/
def emit (d : Descriptor) (g : Geometry) (s : Scheme) : Kernel where
  neutral := s.neutral
  guard? := if g.needsGuard then some d.rowLength else none
  body := prologue d s ++ vectorLoop g s ++ tailBlock g s ++ [.output s.combineExpr]

end Kernel

/-! ## Programs -/

/-- A kernel ready to be run: the names of its inputs, the shape of its output, its source, and the
descriptor that it was made for. -/
structure Program where
  bindings : List String
  outputShape : Shape
  source : String
  kernel : Kernel
  descriptor : Descriptor

namespace Program

/-- The name of the one input of a kernel. -/
def inputBinding : String := "x"

/-- The program of a descriptor. -/
def build (d : Descriptor) : Program :=
  let kernel := Kernel.emit d d.geometry (Scheme.ofKind d.kind)
  { bindings := [inputBinding]
    outputShape := d.outputShape
    source := kernel.source inputBinding
    kernel := kernel
    descriptor := d }

/-- A program keeps the descriptor that it was built for. -/
@[simp] theorem build_descriptor (d : Descriptor) : (build d).descriptor = d := rfl

/-- A built kernel checks indices exactly when windows do not tile the row. -/
theorem build_guard? (d : Descriptor) :
    (build d).kernel.guard? = if d.rowLength % d.window = 0 then none else some d.rowLength := by
  by_cases h : d.rowLength % d.window = 0 <;>
    simp [build, Kernel.emit, Descriptor.geometry, Geometry.of, h]

/-- Whether two programs agree in all their parts. -/
def agrees (p q : Program) : Bool :=
  p.bindings == q.bindings && p.outputShape == q.outputShape && p.source == q.source
    && p.kernel.agrees q.kernel && p.descriptor == q.descriptor

/-- Runs a program on a matrix, which must have the shape that its descriptor asks for. -/
def executeOn (unit : IntUnit) (p : Program) (input : Tensor) : Except Halt Tensor :=
  if input.shape = p.descriptor.inputShape then p.kernel.run unit input p.outputShape
  else .error (.fault (.wrongShape input.shape p.descriptor.inputShape))

/-- Runs a program with 64-bit integers. -/
def execute (p : Program) (input : Tensor) : Except Halt Tensor :=
  p.executeOn .trapping64 input

end Program

/-! ## Building -/

/-- The building of a program: the program, and what was reported on the way. -/
structure Building where
  program : Program
  events : List Event

/-- Builds the program of a descriptor and reports that it does. -/
def Building.of (d : Descriptor) : Building where
  program := Program.build d
  events := [.building d]

end WindowReduction
