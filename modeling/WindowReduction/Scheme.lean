import WindowReduction.Kind

/-!
# Accumulation schemes

A scheme says how a kernel accumulates a window group by group: what it starts from, how a group of
four elements is folded in and how the result is read out. Each kind has its scheme; the parts can
be combined freely.

Main statement: `Scheme.ofKind_neutral` (padding is neutral for the kind).
-/

namespace WindowReduction

/-- What an accumulator is. -/
inductive Accumulator where
  /-- One number, into which each group is folded at once. -/
  | scalar
  /-- Four numbers that are only brought together at the end. -/
  | lanes
  deriving DecidableEq, Repr

/-- How a group is folded into the accumulator. -/
inductive UpdateRule where
  /-- Adds the dot product of the group with ones. -/
  | dotOnes
  /-- Keeps the lesser number of each lane. -/
  | laneMin
  /-- Keeps the greater number of each lane. -/
  | laneMax
  /-- Keeps a truth value, which is true from `1.0` on. -/
  | logicalAnd
  deriving DecidableEq, Repr

/-- How the result is read out of the accumulator. -/
inductive CombineRule where
  | identity
  | horizontalMin
  | horizontalMax
  deriving DecidableEq, Repr

/-- A way of accumulating the groups of a window. -/
structure Scheme where
  kind : Kind
  neutral : Float32
  accumulator : Accumulator
  groupTy : Ty
  update : UpdateRule
  combine : CombineRule
  deriving DecidableEq, Repr

namespace Scheme

/-- The scheme of a kind. -/
def ofKind : Kind → Scheme
  | .sum => ⟨.sum, Kind.sum.neutral, .scalar, .vec4, .dotOnes, .identity⟩
  | .min => ⟨.min, Kind.min.neutral, .lanes, .vec4, .laneMin, .horizontalMin⟩
  | .max => ⟨.max, Kind.max.neutral, .lanes, .vec4, .laneMax, .horizontalMax⟩
  | .all => ⟨.all, Kind.all.neutral, .scalar, .bvec4, .logicalAnd, .identity⟩

/-- The padding of a kind's scheme is the neutral element of its fold. -/
@[simp] theorem ofKind_neutral (k : Kind) : (ofKind k).neutral = k.neutral := by
  cases k <;> rfl

/-- The type of the accumulator. -/
def accumulatorTy (s : Scheme) : Ty :=
  match s.accumulator with
  | .scalar => .float
  | .lanes => .vec4

/-- What the accumulator starts from. -/
def initExpr (s : Scheme) : Expr :=
  match s.accumulator with
  | .scalar => .neutral
  | .lanes => .splat .vec4 .neutral

/-- The statements that fold the group in `values` into the accumulator. They serve full groups and
the padded last group alike. -/
def updateStmts (s : Scheme) : List Stmt :=
  match s.update with
  | .dotOnes =>
    [.assign .accumulator
      (.binary .add (.var .accumulator)
        (.builtin .dot (.var .values) (.splat .vec4 (.float 1.0))))]
  | .laneMin => [.assign .accumulator (.builtin .min (.var .values) (.var .accumulator))]
  | .laneMax => [.assign .accumulator (.builtin .max (.var .values) (.var .accumulator))]
  | .logicalAnd =>
    [.declare .groupAll .bool (.allLanes (.var .values)),
      .assign .accumulator
        (.toFloat (.binary .and
          (.binary .atLeast (.var .accumulator) (.float 1.0))
          (.binary .atLeast (.toFloat (.var .groupAll)) (.float 1.0))))]

/-- Brings the four lanes of the accumulator together from left to right. -/
def foldLanes (fn : Builtin) : Expr :=
  [1, 2, 3].foldl (fun e k => .builtin fn e (.lane (.var .accumulator) k))
    (.lane (.var .accumulator) 0)

/-- The result, read out of the final accumulator. -/
def combineExpr (s : Scheme) : Expr :=
  match s.combine with
  | .identity => .var .accumulator
  | .horizontalMin => foldLanes .min
  | .horizontalMax => foldLanes .max

end Scheme

end WindowReduction
