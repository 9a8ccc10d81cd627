import WindowReduction.Cache
import WindowReduction.Divisor

/-!
# Reduction plans

A plan is a chain of reductions that brings every row down to one number, the output of each pass
being the input of the next. Every pass chooses its window length by `optimalWindow`.

Main statements: `Descriptor.outSize_lt` (a pass with windows of two or more shortens the row, which
is why planning ends).
-/

namespace WindowReduction

/-! ## Planning -/

/-- A pass with windows of two or more elements leaves fewer elements than there were, unless at
most one is left. -/
theorem Descriptor.outSize_lt (d : Descriptor) (hw : 2 ≤ d.window)
    (h : 1 < d.geometry.outSize) : d.geometry.outSize < d.rowLength := by
  simp only [Descriptor.geometry, Geometry.of] at h ⊢
  have hdiv := Nat.div_add_mod d.rowLength d.window
  have hmul : 2 * (d.rowLength / d.window) ≤ d.window * (d.rowLength / d.window) :=
    Nat.mul_le_mul_right _ hw
  split at h <;> split <;> omega

/-- How far planning gets: the passes taken, in order, and why it stopped early if it did. -/
structure Planning where
  passes : List Descriptor
  refusal? : Option Fault
  deriving Repr

namespace Planning

/-- The window length of a pass over rows of `rowLength` elements. -/
def passWindow (threshold rowLength : Nat) : Nat :=
  max 1 (optimalWindow threshold rowLength)

/-- A pass that leaves more than one element has windows of two or more. -/
theorem two_le_passWindow {threshold : Nat} {kind : Kind} {batch rowLength : Nat} {d : Descriptor}
    (h : Descriptor.new kind (passWindow threshold rowLength) batch rowLength = .ok d)
    (hout : 1 < d.geometry.outSize) : 2 ≤ d.window := by
  rcases Descriptor.new_eq_ok_iff.1 h with ⟨-, hwindow, -, hrow⟩
  have hlong : 2 ≤ rowLength := by
    simp only [Descriptor.geometry, Geometry.of] at hout
    have hsum := Nat.div_add_mod d.rowLength d.window
    have hle : d.rowLength / d.window ≤ d.window * (d.rowLength / d.window) :=
      Nat.le_mul_of_pos_left _ d.window_pos
    split at hout <;> omega
  rw [hwindow]
  exact Nat.le_trans (two_le_optimalWindow threshold hlong) (Nat.le_max_right _ _)

/-- A pass that leaves more than one element leaves fewer than there were. -/
theorem outSize_lt_of_new {threshold : Nat} {kind : Kind} {batch rowLength : Nat} {d : Descriptor}
    (h : Descriptor.new kind (passWindow threshold rowLength) batch rowLength = .ok d)
    (hout : 1 < d.geometry.outSize) : d.geometry.outSize < rowLength := by
  rw [← Descriptor.rowLength_of_new h]
  exact d.outSize_lt (two_le_passWindow h hout) hout

/-- Takes passes until at most one element is left in a row or a pass is refused. -/
def run (kind : Kind) (batch threshold rowLength : Nat) : Planning :=
  match h : Descriptor.new kind (passWindow threshold rowLength) batch rowLength with
  | .error f => ⟨[], some f⟩
  | .ok d =>
    if hout : d.geometry.outSize ≤ 1 then ⟨[d], none⟩
    else
      have : d.geometry.outSize < rowLength := outSize_lt_of_new h (Nat.lt_of_not_le hout)
      let rest := run kind batch threshold d.geometry.outSize
      { rest with passes := d :: rest.passes }
termination_by rowLength

/-- What planning reports: one event for every pass taken. -/
def events (p : Planning) : List Event :=
  p.passes.mapIdx fun i d => .passPlanned i d

end Planning

/-! ## Plans -/

/-- A chain of reductions. -/
structure Plan where
  passes : List Descriptor
  deriving DecidableEq, Repr

/-- How a plan ends when it is run: its result, the cache afterwards and what was reported. -/
structure PlanRun where
  result : Except Halt Tensor
  cache : Cache
  events : List Event

namespace Plan

/-- The plan for reducing `batch` rows of `rowLength` elements, refused when one of its passes is
refused. -/
def new (kind : Kind) (batch threshold rowLength : Nat) : Except Fault Plan :=
  let planning := Planning.run kind batch threshold rowLength
  match planning.refusal? with
  | some f => .error f
  | none => .ok ⟨planning.passes⟩

/-- The shape of a plan's results. -/
def outputShape (p : Plan) : Shape :=
  match p.passes.getLast? with
  | some d => d.outputShape
  | none => ⟨0, 0⟩

/-- Runs passes one after the other, each with its program out of the cache and on the result of the
pass before. The first failure ends the run. -/
def runPasses : List Descriptor → Tensor → Cache → PlanRun
  | [], input, cache => ⟨.ok input, cache, []⟩
  | d :: rest, input, cache =>
    let served := cache.request d
    -- The program stays in the cache even if its run fails.
    match served.entry.program.execute input with
    | .error halt => ⟨.error halt, served.cache, served.events ++ halt.events⟩
    | .ok output =>
      let later := runPasses rest output served.cache
      { later with events := served.events ++ later.events }

/-- Runs a plan on a matrix with the programs of a cache. -/
def execute (p : Plan) (input : Tensor) (cache : Cache) : PlanRun :=
  runPasses p.passes input cache

end Plan

end WindowReduction
