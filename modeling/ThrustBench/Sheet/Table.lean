import ThrustBench.Sheet.Column
import ThrustBench.Sheet.Shape

/-!
The table on the screen: the recorded points as texts, with headers.
-/

namespace ThrustBench.Sheet

structure Table where
  columns : List (String × Column)
  height : Nat := 0
  deriving DecidableEq

inductive Orientation where
  | horizontal
  | vertical
  deriving DecidableEq

namespace Table

def empty (names : List String) : Table :=
  ⟨names.map fun name => (name, {}), 0⟩

def valueOf (row : List (String × Datum)) (name : String) : Datum :=
  (row.lookup name).getD missing

/-- Why a value cannot be put into a table: a whole number beyond the doubles cannot. -/
def refusal? : Datum → Option Fault
  | .whole n => if (Binary64.ofInt n).isInfinite then some .wholeTooLarge else none
  | _ => none

/-- Are all values of the table of one form that is not free?  A row is then looked at as a whole
before it is taken apart. -/
def isUniform (t : Table) : Bool :=
  match t.columns with
  | [column] => decide (0 < t.height) && column.2.form != .mixed
  | _ => false

/-- Appends a row.  A name that is no column's is ignored. -/
def append (t : Table) (row : List (String × Datum)) : Except Fault Table := do
  if t.columns.isEmpty then .error .noColumns
  if t.isUniform then Shape.check (row.map Prod.snd)
  match t.columns.findSome? fun column => refusal? (valueOf row column.1) with
  | some fault => .error fault
  | none =>
    .ok ⟨t.columns.map fun column => (column.1, column.2.push (valueOf row column.1)),
      t.height + 1⟩

def placeWithin (index : Int) (size : Nat) : Except Fault Nat :=
  if 0 ≤ index ∧ index < size then .ok index.toNat
  else if index < 0 ∧ 0 ≤ index + size then .ok (index + size).toNat
  else .error (.outOfBounds index size)

def place (index : Int) (size : Nat) : Except Fault Nat :=
  if -(Int.pow 2 63) ≤ index ∧ index < Int.pow 2 63 then placeWithin index size
  else if 0 ≤ index ∧ index < Int.pow 2 64 then .error .indexTooLarge
  else .error .notSubscript

def cell (t : Table) (row column : Int) : Except Fault String := do
  let c ← place column t.columns.length
  let r ← place row t.height
  return (((t.columns[c]?).bind fun column => column.2.cells[r]?).getD missing).shown

def isPart (d : Datum) : Except Fault Bool :=
  match d.number? with
  | some n => .ok ((Number.whole 0).lt n || n.eq (.whole 0))
  | none => .error (.unordered ">=" d.kind .whole)

def isPlace (row column : Datum) : Except Fault Bool := do
  if ← isPart row then isPart column else return false

def text (t : Table) (row column : Datum) : Except Fault (Option String) := do
  if !(← isPlace row column) then return none
  match row, column with
  | .whole r, .whole c => return some (← t.cell r c)
  | _, _ => .error .notWholePlace

/-- The place of a header, which only a whole number can be.  Rows are numbered from the first row
on, and before that there is nothing to look at. -/
def headerPlace (numbered : Bool) (size : Nat) : Datum → Except Fault Nat
  | .whole n => if numbered then place n size else placeWithin n size
  | .real _ => .error (if numbered then .realIndex else .notSubscript)
  | .flag _ | .nothing => .error (if numbered then .severalDimensions else .notSubscript)
  | _ => .error .notSubscript

def header (t : Table) (orientation : Orientation) (index : Datum) : Except Fault String :=
  match orientation with
  | .horizontal => do
    let i ← headerPlace true t.columns.length index
    return ((t.columns[i]?).map Prod.fst).getD ""
  | .vertical => do
    let i ← headerPlace (0 < t.height) t.height index
    return toString i

def cells (t : Table) : List (List String) :=
  (List.range t.height).map fun row =>
    t.columns.map fun column => (column.2.cells[row]?.getD missing).shown

end Table

end ThrustBench.Sheet
