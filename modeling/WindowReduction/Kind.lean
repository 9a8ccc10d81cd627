import WindowReduction.Fault

/-!
# Kinds of reduction

The four ways of bringing many numbers down to one, each with its neutral element and the step that
folds one more number into a running value. Folding the numbers of a window one by one with
`Kind.step` is the plain meaning of a reduction.
-/

namespace WindowReduction

/-- What a reduction computes. -/
inductive Kind where
  | sum
  | min
  | max
  /-- Conjunction: a nonzero number counts as true, and the result is `1.0` or `0.0`. -/
  | all
  deriving DecidableEq, Hashable, Repr

namespace Kind

/-- The name by which a kind is asked for. -/
def name : Kind → String
  | .sum => "sum"
  | .min => "min"
  | .max => "max"
  | .all => "all"

/-- The capitalised name of a kind in diagnostics. -/
def debugName : Kind → String
  | .sum => "Sum"
  | .min => "Min"
  | .max => "Max"
  | .all => "All"

/-- The kind of a name. Names are matched exactly. -/
def parse (text : String) : Except Fault Kind :=
  match text with
  | "sum" => .ok .sum
  | "min" => .ok .min
  | "max" => .ok .max
  | "all" => .ok .all
  | _ => .error (.unknownKind text)

/-- A kind is read back from its name. -/
theorem parse_name (k : Kind) : parse k.name = .ok k := by
  cases k <;> rfl

/-- The value that a fold starts from and that padding contributes. -/
def neutral : Kind → Float32
  | .sum => 0.0
  | .min => 1.0 / 0.0
  | .max => -1.0 / 0.0
  | .all => 1.0

/-- Folds one number into a running value. -/
def step : Kind → Float32 → Float32 → Float32
  | .sum, acc, x => acc + x
  | .min, acc, x => if x < acc then x else acc
  | .max, acc, x => if acc < x then x else acc
  | .all, acc, x => if 1.0 ≤ acc ∧ x != 0.0 then 1.0 else 0.0

/-- The running values of a fold, the starting value left out. -/
def runningFold (k : Kind) (acc : Float32) : List Float32 → List Float32
  | [] => []
  | x :: xs => k.step acc x :: k.runningFold (k.step acc x) xs

/-- The last running value is the left fold. -/
theorem getLastD_runningFold (k : Kind) (acc : Float32) (xs : List Float32) :
    (k.runningFold acc xs).getLastD acc = xs.foldl k.step acc := by
  induction xs generalizing acc with
  | nil => rfl
  | cons x xs ih => rw [runningFold, List.getLastD_cons, ih, List.foldl_cons]

end Kind

end WindowReduction
