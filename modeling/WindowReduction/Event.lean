import WindowReduction.Descriptor

/-!
# Events

What the library reports while it works. An event carries what happened; its level and wording are
read off it, and a reader chooses by level which events to see.
-/

namespace WindowReduction

/-- How important an event is, from the most important level to the least. -/
inductive Level where
  | error
  | warn
  | info
  | debug
  | trace
  deriving DecidableEq, Repr

namespace Level

/-- The name of a level. -/
def name : Level → String
  | .error => "ERROR"
  | .warn => "WARN"
  | .info => "INFO"
  | .debug => "DEBUG"
  | .trace => "TRACE"

/-- The least verbosity at which events of a level are shown. -/
def verbosity : Level → Nat
  | .error => 0
  | .warn => 1
  | .info => 2
  | .debug => 3
  | .trace => 4

end Level

/-- Something that happened. -/
inductive Event where
  /-- A program is built. -/
  | building (d : Descriptor)
  /-- A cache has no program for a descriptor. -/
  | cacheMiss (d : Descriptor)
  /-- A plan takes a pass. -/
  | passPlanned (position : Nat) (d : Descriptor)
  /-- A kernel reads outside its input without a guard. -/
  | strayFetch (row index : Int) (shape : Shape)
  /-- A request ends with a report. -/
  | failed (r : Report)
  deriving DecidableEq, Repr

namespace Event

/-- The level of an event. -/
def level : Event → Level
  | building _ => .trace
  | cacheMiss _ => .debug
  | passPlanned .. => .debug
  | strayFetch .. => .warn
  | failed _ => .error

/-- The wording of an event. -/
def message : Event → String
  | building d =>
    "building " ++ d.kind.name ++ " kernel: window=" ++ toString d.window ++ " batch="
      ++ toString d.batch ++ " in=" ++ toString d.rowLength ++ " -> " ++ d.geometry.debug
  | cacheMiss d => "program cache miss: " ++ d.debug
  | passPlanned position d =>
    "reduce pass " ++ toString position ++ ": " ++ d.kind.name ++ " window=" ++ toString d.window
      ++ " in=" ++ toString d.rowLength ++ " out=" ++ toString d.geometry.outSize
  | strayFetch row index shape =>
    "unguarded fetch out of range: batch=" ++ toString row ++ " index=" ++ toString index
      ++ " shape=" ++ shape.text
  | failed r => r.display

end Event

/-- The events that a computation reports because of the way it ends. -/
def Halt.events : Halt → List Event
  | .fault (.fetchOutOfRange row index shape) => [.strayFetch row index shape]
  | _ => []

/-- The events that a computation reports through its result alone. -/
def outcomeEvents {α : Type} : Except Halt α → List Event
  | .ok _ => []
  | .error h => h.events

end WindowReduction
