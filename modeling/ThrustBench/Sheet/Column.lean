import ThrustBench.Sheet.Joint

/-!
Columns that stand by themselves.  The first value decides the form, and each later one may widen
it.
-/

namespace ThrustBench.Sheet

structure Column where
  form : Form := .mixed
  cells : List Datum := []
  deriving DecidableEq

namespace Column

def push (c : Column) (d : Datum) : Column :=
  if c.cells.isEmpty then ⟨.own d, [d]⟩
  else
    let joint := Joint.ofSides (.ofColumns c.form [c.cells]) (.ofColumns (.own d) [[d]])
    ⟨joint.form, c.cells.map joint.upper ++ [joint.lower d]⟩

end Column

end ThrustBench.Sheet
