import ThrustBench.Datum

/-!
The trace of a graph: the latest samples in a circular store of fixed size, which starts out with
zeros, and the curve that is drawn of it.
-/

namespace ThrustBench

/-- The store, the place of the next sample, the curve and the labels.  The curve is plotted when
the trace is made, and drawn anew with each sample. -/
structure Trace where
  data : List Binary64
  /-- Can the place be moved on?  It cannot if the size was given as a list. -/
  moves : Bool := true
  pointer : Nat := 0
  plotted : List Binary64 := data
  shown : Option (List Binary64) := none
  left : Datum := .text "y"
  bottom : Datum := .text "x"
  title : Datum := .nothing

namespace Trace

def ofSize (size : Nat) : Trace := { data := List.replicate size (.zero false) }

def room : Nat := Nat.pow 2 28

def axisSize : Datum → Except Fault Int
  | .whole n => if -(Int.pow 2 63) ≤ n ∧ n < Int.pow 2 63 then .ok n else .error .sizeTooLarge
  | .flag _ => .error .integerRequired
  | d => .error (.notIndex d.kind)

def ofAxis (size : Int) (moves : Bool) : Except Fault Trace :=
  if size < 0 then .error .negativeSize
  else if Int.pow 2 63 ≤ 8 * size then .error .storeTooLarge
  else if room ≤ size then .error (.noRoom size.toNat)
  else .ok { ofSize size.toNat with moves }

/-- A trace of a size that is still to be checked.  There is none if the size makes no row of
places, and then nothing can be put there. -/
def ofSize? : Datum → Except Fault (Option Trace)
  | .nothing => .ok none
  | .whole n => do return some (← ofAxis (← axisSize (.whole n)) true)
  | .list sizes => do
    match ← sizes.mapM axisSize with
    | [size] => return some (← ofAxis size false)
    | sizes => if sizes.any (· < 0) then .error .negativeSize else return none
  | .text s => if s.isEmpty then .ok none else .error (.notIndex .text)
  | d => .error (.notSize (String.ofList (d.shownInside.toList.take 100)))

def sample : Datum → Except Fault Binary64
  | .nothing => .ok .nan
  | .list _ => .error .sequenceInPlace
  | d => d.toReal

def visible (t : Trace) : List Binary64 := t.shown.getD t.plotted

def curve (t : Trace) : List Binary64 := t.data.drop t.pointer ++ t.data.take t.pointer

def store (t : Trace) (x : Binary64) : Trace := { t with data := t.data.set t.pointer x }

def next (t : Trace) : Trace :=
  let t := { t with pointer := (t.pointer + 1) % t.data.length }
  { t with shown := some t.curve }

def put (t : Trace) (x : Binary64) : Trace := (t.store x).next

/-- Adds a sample; one that is no double leaves the trace as it is. -/
def add (t : Trace) (d : Datum) : Trace × Option Fault :=
  if t.pointer < t.data.length then
    match sample d with
    | .error fault => (t, some fault)
    | .ok x =>
      if t.moves then (t.put x, none) else (t.store x, some (.operands "%" .whole .list))
  else (t, some (.outOfBounds t.pointer t.data.length))

end Trace

end ThrustBench
