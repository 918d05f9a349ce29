import ThrustBench.Board
import ThrustBench.Sheet.Datasheet
import ThrustBench.Sheet.Table

/-!
Recording points: each goes into the sheet and into the table on the screen.
-/

namespace ThrustBench

structure Recorder where
  sheet : Sheet.Datasheet
  table : Sheet.Table
  recording : Bool := false

namespace Recorder

def columns : List String := ["Time", "Throttle", "Thrust", "Torque", "Voltage", "Current"]

def empty : Recorder := { sheet := .empty columns, table := .empty columns }

/-- The time between two points that are recorded by the clock, in milliseconds. -/
def interval : Int := 250

def row (time throttle : Datum) (values : Channels Number) : List (String × Datum) :=
  [("Time", time), ("Throttle", throttle), ("Thrust", .ofNumber values.cell1),
    ("Torque", .ofNumber values.cell2), ("Voltage", .ofNumber values.voltage),
    ("Current", .ofNumber values.current)]

def add (r : Recorder) (row : List (String × Datum)) : Recorder × Option Fault :=
  match r.sheet.addPoint row with
  | .error fault => (r, some fault)
  | .ok sheet =>
    match r.table.append row with
    | .error fault => ({ r with sheet }, some fault)
    | .ok table => ({ r with sheet, table }, none)

/-- Why a row is refused, if it is.  That depends on the row alone, and not on earlier ones. -/
def refusal? (row : List (String × Datum)) : Option Fault := (empty.add row).2

def clear (r : Recorder) : Recorder := { empty with recording := r.recording }

def toggle (r : Recorder) : Recorder := { r with recording := !r.recording }

def buttonText (r : Recorder) : String := if r.recording then "Stop Recording" else "Record Data"

end Recorder

end ThrustBench
