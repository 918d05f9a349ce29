import ThrustBench.Board
import ThrustBench.Trace

/-!
What is shown of the announced values: a graph and a text for each channel.
-/

namespace ThrustBench

def graphSize : Nat := 200

structure Display where
  traces : Channels Trace := .const (.ofSize graphSize)
  readings : Channels String := .const ""

namespace Display

def unit : Channel → String
  | .cell1 | .cell2 => "g"
  | .current => "A"
  | .voltage => "V"

/-- Shows an announced value.  A value that cannot be drawn is reported, and its text is shown all
the same. -/
def announce (d : Display) (a : Announcement) : Display × List Fault :=
  let d := { d with readings := d.readings.set a.channel (a.value.text ++ unit a.channel) }
  let (trace, fault) := (d.traces.get a.channel).add (Datum.ofNumber a.value)
  ({ d with traces := d.traces.set a.channel trace }, fault.toList)

end Display

end ThrustBench
