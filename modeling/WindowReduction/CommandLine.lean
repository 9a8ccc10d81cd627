import WindowReduction.Cache
import WindowReduction.Text.Matrix
import WindowReduction.Text.Size

/-!
# The command line

The command prints the program of a descriptor, a sample input and the program's output for it. Its
arguments are a kind, a window length, a number of rows and a row length, each with a default;
further arguments are ignored.
-/

namespace WindowReduction.CommandLine

/-- How to call the command. -/
def usage : String :=
  "usage: x17reduce [sum|min|max|all] [window_size] [batch_size] [in_size]"

/-- The environment variable that holds the verbosity. -/
def verbosityVariable : String := "X17REDUCE_LOG"

/-- What a run of the command leaves behind. -/
structure Outcome where
  exitCode : UInt32
  stdout : String
  stderr : String
  deriving DecidableEq, Repr

/-! ## Arguments -/

/-- A size argument, or its default where the argument is missing. -/
def sizeArgument (default : Nat) : Option String → Except Fault Nat
  | none => .ok default
  | some text =>
    match Text.parseSize? text with
    | some n => .ok n
    | none => .error (.notASize text)

/-- The descriptor that the arguments ask for. The first argument that cannot be read decides the
fault, and sizes are only looked at together when all arguments have been read. -/
def parse (args : List String) : Except Fault Descriptor := do
  let kind ← match args[0]? with
    | none => .ok .sum
    | some text => Kind.parse text
  let window ← sizeArgument 4 args[1]?
  let batch ← sizeArgument 1 args[2]?
  let rowLength ← sizeArgument 8 args[3]?
  Descriptor.new kind window batch rowLength

/-- The verbosity that a value of the environment variable asks for; one without a value that is a
size. -/
def verbosity (value? : Option String) : Nat :=
  (value?.bind Text.parseSize?).getD 1

/-! ## Output -/

/-- The lines for the events that are shown at a verbosity. -/
def logText (verbosity : Nat) (events : List Event) : String :=
  String.join <| (events.filter (·.level.verbosity ≤ verbosity)).map fun e =>
    e.level.name ++ " " ++ e.message ++ "\n"

/-- The sample input: the numbers from one on, row by row. -/
def sampleInput (d : Descriptor) : Tensor :=
  Tensor.ofFn d.inputShape fun row col => Float32.ofNat (row * d.rowLength + col + 1)

/-- The description of a program. -/
def programText (p : Program) : String :=
  "// bindings: " ++ Text.bracketed ", " (p.bindings.map fun b => "\"" ++ b ++ "\"") ++ "\n"
    ++ "// output shape: "
    ++ Text.bracketed ", " [toString p.outputShape.rows, toString p.outputShape.cols] ++ "\n"
    ++ p.source ++ "\n"

/-- The outcome of a request that ends with a report. -/
def failure (verbosity : Nat) (stdout : String) (events : List Event) (f : Fault) : Outcome where
  exitCode := 1
  stdout := stdout
  stderr := logText verbosity (events ++ [.failed f.report]) ++ usage ++ "\n"

/-- The exit code of a run that an overflow ends. It is told apart from that of a report. -/
def overflowExitCode : UInt32 := 101

/-- Runs the command with its arguments and the value of the environment variable. -/
def run (args : List String) (verbosityValue? : Option String) : Outcome :=
  let shown := verbosity verbosityValue?
  match parse args with
  | .error f => failure shown "" [] f
  | .ok d =>
    -- The program is described before it is run, so a failing run leaves its description behind.
    let served := Cache.empty.request d
    let program := served.entry.program
    let input := sampleInput d
    match program.execute input with
    | .ok output =>
      { exitCode := 0
        stdout := programText program ++ "// input:\n" ++ Text.matrix input ++ "\n"
          ++ "// output:\n" ++ Text.matrix output ++ "\n"
        stderr := logText shown served.events }
    | .error (.fault f) =>
      failure shown (programText program) (served.events ++ (Halt.fault f).events) f
    | .error (.overflow o) =>
      { exitCode := overflowExitCode
        stdout := programText program
        stderr := logText shown served.events ++ o.message ++ "\n" }

end WindowReduction.CommandLine
