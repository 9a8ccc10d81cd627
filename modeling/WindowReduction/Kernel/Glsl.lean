import WindowReduction.Kernel.Syntax
import WindowReduction.Text.Shortest
import WindowReduction.Text.Uppercase

/-!
# Shader source of a kernel

A kernel is printed as GLSL: the neutral element as a constant, the fetch helper with its bounds
check if there is one, and the body as `main`. An operator is put in parentheses exactly where it is
an operand of another operator or of a lane selection, so the text determines the tree. The engine
that runs the source provides `getOutputCoords()`, `setOutput(float)` and one accessor for each
input.
-/

namespace WindowReduction

/-! ## Literals and names -/

/-- A decimal is written positionally from `1e-4` up to below `1e16`, with at least one digit on
either side of the point, and with a power of ten otherwise. -/
def decimalLiteral (d : Text.Decimal) : String :=
  if -4 ≤ d.magnitude ∧ d.magnitude < 16 then d.positional ".0" else d.scientific

/-- The expression for a floating-point constant. There are no literals for infinities and NaN, so
these are written as divisions by zero. -/
def floatLiteral (x : Float32) : String :=
  match Text.Binary32.ofFloat x with
  | .nan => "0.0 / 0.0"
  | .infinite false => "1.0 / 0.0"
  | .infinite true => "-1.0 / 0.0"
  | .finite false m e => decimalLiteral (Text.shortest m e)
  | .finite true m e => "-" ++ decimalLiteral (Text.shortest m e)

/-- The accessor that reads an input: `get` and the input's name with its first character in
uppercase. -/
def accessorName (binding : String) : String :=
  match binding.toList with
  | [] => "get"
  -- The uppercase form may have several characters.
  | c :: rest => "get" ++ String.ofList (Text.uppercase c ++ rest)

/-- The name of the neutral element in shader source. -/
def neutralName : String := "initializationValue"

/-- The name of the fetch helper in shader source. -/
def fetchName : String := "getValue"

/-- How an operator is written. -/
def BinaryOp.symbol : BinaryOp → String
  | .add => "+"
  | .mul => "*"
  | .atLeast => ">="
  | .and => "&&"

/-- The name of a function in shader source. -/
def Builtin.name : Builtin → String
  | .dot => "dot"
  | .min => "min"
  | .max => "max"

/-! ## Expressions -/

/-- A call of a function on arguments already printed. -/
def callText (fn : String) (args : List String) : String :=
  fn ++ "(" ++ String.intercalate ", " args ++ ")"

/-- The text of an operand, given the operand and its text. -/
def operandText (e : Expr) (text : String) : String :=
  if e.isBinary then "(" ++ text ++ ")" else text

/-- The text of an expression. A division that stands for a constant is put in parentheses. -/
def Expr.glsl : Expr → String
  | .int n => toString n
  | .float x => if x.isFinite then floatLiteral x else "(" ++ floatLiteral x ++ ")"
  | .neutral => neutralName
  | .var v => v.name
  | .coord axis => "getOutputCoords()[" ++ toString axis ++ "]"
  | .fetch r k => callText fetchName [r.glsl, k.glsl]
  | .binary op a b => operandText a a.glsl ++ " " ++ op.symbol ++ " " ++ operandText b b.glsl
  | .builtin fn a b => callText fn.name [a.glsl, b.glsl]
  | .lane v k => operandText v v.glsl ++ "[" ++ toString k ++ "]"
  | .pack ty a b c d => callText ty.name [a.glsl, b.glsl, c.glsl, d.glsl]
  | .splat ty e => callText ty.name [e.glsl]
  | .allLanes v => callText "all" [v.glsl]
  | .toFloat e => callText "float" [e.glsl]

/-! ## Lines -/

/-- A line of source: how deep it is nested and what it says. -/
structure SourceLine where
  depth : Nat
  text : String
  deriving DecidableEq, Repr

/-- A line with its indentation, two blanks for each level, and its end. -/
def SourceLine.render (l : SourceLine) : String :=
  String.ofList (List.replicate (2 * l.depth) ' ') ++ l.text ++ "\n"

mutual

/-- The lines of a statement that is nested `depth` levels deep. -/
def Stmt.lines (depth : Nat) : Stmt → List SourceLine
  | .declare v ty e => [⟨depth, ty.name ++ " " ++ v.name ++ " = " ++ e.glsl ++ ";"⟩]
  | .assign v e => [⟨depth, v.name ++ " = " ++ e.glsl ++ ";"⟩]
  | .loop v count step body =>
    ⟨depth, "for (int " ++ v.name ++ " = 0; " ++ v.name ++ " < " ++ toString count ++ "; "
        ++ v.name ++ " += " ++ toString step ++ ") \x7b"⟩
      :: (Stmt.linesAll (depth + 1) body ++ [⟨depth, "\x7d"⟩])
  | .block body => ⟨depth, "\x7b"⟩ :: (Stmt.linesAll (depth + 1) body ++ [⟨depth, "\x7d"⟩])
  | .output e => [⟨depth, "setOutput(" ++ e.glsl ++ ");"⟩]

/-- The lines of a list of statements. -/
def Stmt.linesAll (depth : Nat) : List Stmt → List SourceLine
  | [] => []
  | s :: rest => s.lines depth ++ Stmt.linesAll depth rest

end

namespace Kernel

/-- The lines of the fetch helper's bounds check. -/
def guardLines (k : Kernel) : List SourceLine :=
  match k.guard? with
  | none => []
  | some rowLength =>
    [⟨1, "if (inIdx < 0 || inIdx >= " ++ toString rowLength ++ ") \x7b"⟩,
      ⟨2, "return " ++ neutralName ++ ";"⟩,
      ⟨1, "\x7d"⟩]

/-- The lines before `main`: the neutral element and the fetch helper. -/
def headerLines (k : Kernel) (binding : String) : List SourceLine :=
  [⟨0, "const float " ++ neutralName ++ " = " ++ floatLiteral k.neutral ++ ";"⟩,
    ⟨0, ""⟩,
    ⟨0, "float " ++ fetchName ++ "(int batch, int inIdx) \x7b"⟩]
  ++ k.guardLines
  ++ [⟨1, "return " ++ accessorName binding ++ "(batch, inIdx);"⟩,
    ⟨0, "\x7d"⟩,
    ⟨0, ""⟩]

/-- The lines of `main`. -/
def mainLines (k : Kernel) : List SourceLine :=
  ⟨0, "void main() \x7b"⟩ :: (Stmt.linesAll 1 k.body ++ [⟨0, "\x7d"⟩])

/-- The source of a kernel that reads the input `binding`. -/
def source (k : Kernel) (binding : String) : String :=
  String.join ((k.headerLines binding ++ k.mainLines).map SourceLine.render)

end Kernel

end WindowReduction
