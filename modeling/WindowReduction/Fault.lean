import WindowReduction.Kernel.Syntax
import WindowReduction.Tensor

/-!
# Faults

Everything that a request can fail with. A `Fault` names a cause and carries what its report has to
say; `Fault.report` gives the code and the wording. An `Overflow` is integer arithmetic that leaves
the 64-bit range; it ends a computation without a report.
-/

namespace WindowReduction

/-! ## Reports -/

/-- The classes of faults that a caller can tell apart. -/
inductive ErrorCode where
  | invalidWindowSize
  | sizeOutOfRange
  | shapeMismatch
  | indexOutOfBounds
  | typeMismatch
  | unboundVariable
  | missingOutput
  | unknownKind
  | invalidArgument
  deriving DecidableEq, Repr

namespace ErrorCode

/-- All codes. -/
def all : List ErrorCode :=
  [.invalidWindowSize, .sizeOutOfRange, .shapeMismatch, .indexOutOfBounds, .typeMismatch,
    .unboundVariable, .missingOutput, .unknownKind, .invalidArgument]

/-- The name under which a code is reported. -/
def name : ErrorCode → String
  | .invalidWindowSize => "InvalidWindowSize"
  | .sizeOutOfRange => "SizeOutOfRange"
  | .shapeMismatch => "ShapeMismatch"
  | .indexOutOfBounds => "IndexOutOfBounds"
  | .typeMismatch => "TypeMismatch"
  | .unboundVariable => "UnboundVariable"
  | .missingOutput => "MissingOutput"
  | .unknownKind => "UnknownKind"
  | .invalidArgument => "InvalidArgument"

end ErrorCode

/-- A code with an optional explanation. -/
structure Report where
  code : ErrorCode
  message? : Option String
  deriving DecidableEq, Repr

/-- The one-line form of a report. An empty explanation is left out like a missing one. -/
def Report.display (r : Report) : String :=
  let explanation := match r.message? with
    | none | some "" => ""
    | some message => ", message=" ++ message
  "(ErrPack: code=" ++ r.code.name ++ explanation ++ ")"

/-! ## Causes -/

/-- Why a request cannot be served. -/
inductive Fault where
  | zeroWindow
  /-- A row with its last window, or the number of rows, leaves the range of a kernel `int`. -/
  | oversize (window batch rowLength : Nat)
  | wrongShape (actual expected : Shape)
  /-- A kernel asks for a coordinate that output cells do not have. -/
  | coordinateAxis
  | fetchOutOfRange (row index : Int) (shape : Shape)
  | typeMismatch
  | unbound (v : Var)
  | missingOutput
  | unknownKind (text : String)
  | notASize (text : String)
  deriving DecidableEq, Repr

namespace Fault

/-- The class of a fault. -/
def code : Fault → ErrorCode
  | zeroWindow => .invalidWindowSize
  | oversize .. => .sizeOutOfRange
  | wrongShape .. => .shapeMismatch
  | coordinateAxis => .shapeMismatch
  | fetchOutOfRange .. => .indexOutOfBounds
  | typeMismatch => .typeMismatch
  | unbound _ => .unboundVariable
  | missingOutput => .missingOutput
  | unknownKind _ => .unknownKind
  | notASize _ => .invalidArgument

/-- The wording of a fault, for those that explain themselves. -/
def message? : Fault → Option String
  | zeroWindow => some "window size must be positive"
  | oversize w b n =>
    some ("sizes don't fit a kernel int: window=" ++ toString w ++ " batch=" ++ toString b
      ++ " in=" ++ toString n)
  | wrongShape actual expected =>
    some ("input shape " ++ actual.text ++ " doesn't match " ++ expected.text)
  | coordinateAxis => none
  | fetchOutOfRange .. => none
  | typeMismatch => none
  | unbound v => some ("variable `" ++ v.name ++ "` read before assignment")
  | missingOutput => some "kernel finished without setOutput"
  | unknownKind text =>
    some ("unknown reduce kind `" ++ text ++ "`, expected one of sum, min, max, all")
  | notASize text => some ("not a size: `" ++ text ++ "`")

/-- What a fault reports. -/
def report (f : Fault) : Report :=
  ⟨f.code, f.message?⟩

end Fault

/-! ## Overflow -/

/-- Integer arithmetic whose result leaves the 64-bit range. -/
inductive Overflow where
  | add
  | mul
  deriving DecidableEq, Repr

/-- The wording of an overflow. -/
def Overflow.message : Overflow → String
  | .add => "attempt to add with overflow"
  | .mul => "attempt to multiply with overflow"

/-- What ends a kernel early. -/
inductive Halt where
  | fault (f : Fault)
  | overflow (o : Overflow)
  deriving DecidableEq, Repr

end WindowReduction
