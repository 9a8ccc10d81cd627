import WindowReduction.Tensor
import WindowReduction.Text.Shortest

/-!
# Matrices in text

A matrix is written as rows in brackets, one on a line. Of a matrix with many cells, long rows and
long columns are only shown with their ends.
-/

namespace WindowReduction.Text

/-- A number with its decimal point in place, and without one if it is whole. -/
def plainNumber (x : Float32) : String :=
  match Binary32.ofFloat x with
  | .nan => "NaN"
  | .infinite false => "inf"
  | .infinite true => "-inf"
  | .finite false m e => (shortest m e).positional ""
  | .finite true m e => "-" ++ (shortest m e).positional ""

/-- The number of cells from which on a matrix is abridged. -/
def abridgedSize : Nat := 500

/-- The number of entries up to which an abridged matrix shows all of an axis. -/
def abridgedAxis : Nat := 11

/-- The number of entries that are shown at either end of an abridged axis. -/
def axisEnd : Nat := 5

/-- The entries that are shown of an axis of `n` entries. -/
def axisEntries (abridge : Bool) (n : Nat) (entry : Nat → String) : List String :=
  if abridge ∧ abridgedAxis < n then
    (List.range axisEnd).map entry ++ ["..."]
      ++ (List.range axisEnd).map fun k => entry (n - axisEnd + k)
  else (List.range n).map entry

/-- Entries in brackets. -/
def bracketed (separator : String) (entries : List String) : String :=
  "[" ++ String.intercalate separator entries ++ "]"

/-- The text of a matrix. A matrix without cells is written as one empty row. -/
def matrix (t : Tensor) : String :=
  let abridge : Bool := abridgedSize ≤ t.shape.size
  if t.shape.size = 0 then "[[]]"
  else
    bracketed ",\n " <| axisEntries abridge t.shape.rows fun row =>
      bracketed ", " <| axisEntries abridge t.shape.cols fun col =>
        ((t.at? row col).map plainNumber).getD ""

end WindowReduction.Text
