import ThrustBench.Sheet.Csv
import ThrustBench.Sheet.Joint

/-!
The sheet of recorded points, and the file it is exported to.  Neighbouring columns of one form are
kept together in bands, and a band takes a wider form as a whole.
-/

namespace ThrustBench.Sheet

structure Band where
  form : Form
  columns : List (String × List Datum)
  deriving DecidableEq

structure Datasheet where
  bands : List Band
  height : Nat := 0
  deriving DecidableEq

/-- A column as a row meets it. -/
structure Slot where
  name : String
  /-- The number of its band; a column that the row brings has the next number. -/
  band : Nat
  form : Form
  cells : List Datum
  value : Option Datum

namespace Slot

def valueForm (s : Slot) : Form := (s.value.map Form.own).getD .absent

def join : List Slot → Band
  | [] => ⟨.absent, []⟩
  | s :: ss =>
    let slots := s :: ss
    let joint := Joint.ofSides (.ofColumns s.form (slots.map Slot.cells))
      (.ofColumns s.valueForm (slots.map fun t => [t.value.getD missing]))
    ⟨joint.form, slots.map fun t =>
      (t.name, t.cells.map joint.upper ++ [joint.lower (t.value.getD missing)])⟩

end Slot

def isEven : List Int → Bool
  | a :: b :: c :: rest => b - a == c - b && isEven (b :: c :: rest)
  | _ => true

/-- The place of a value among the values of its own form in a row. -/
def placeIn (row : List (String × Datum)) (s : Slot) : Int :=
  ((row.takeWhile fun value => value.1 != s.name).filter
    fun value => Form.own value.2 == s.valueForm).length

/-- Neighbouring slots whose values have one form.  They stay together if the row has the values
in even distances, and otherwise each is by itself. -/
def loosen (row : List (String × Datum)) (slots : List Slot) : List (List Slot) :=
  let gone := slots.all fun s => s.value.isNone
  if gone || isEven (slots.map (placeIn row)) then [slots] else slots.map fun s => [s]

def groups (row : List (String × Datum)) (slots : List Slot) : List (List Slot) :=
  ((slots.splitBy fun s t => s.valueForm == t.valueForm).flatMap (loosen row)).flatMap
    fun stretch => stretch.splitBy fun s t => s.band == t.band

namespace Datasheet

def empty (names : List String) : Datasheet :=
  ⟨if names.isEmpty then [] else [⟨.mixed, names.map fun name => (name, [])⟩], 0⟩

def columns (s : Datasheet) : List (String × List Datum) := s.bands.flatMap Band.columns

def names (s : Datasheet) : List String := s.columns.map Prod.fst

def slots (s : Datasheet) (row : List (String × Datum)) : List Slot :=
  let known := (s.bands.zipIdx).flatMap fun (band, index) =>
    band.columns.map fun (name, cells) => ⟨name, index, band.form, cells, row.lookup name⟩
  let new := row.filter fun value => !s.names.contains value.1
  known ++ new.map fun (name, d) =>
    ⟨name, s.bands.length, .absent, List.replicate s.height missing, some d⟩

def ofRow (row : List (String × Datum)) : Datasheet :=
  let bandOf (run : List (String × Datum)) : Band :=
    ⟨((run.head?.map Prod.snd).map Form.own).getD .mixed, run.map fun (name, d) => (name, [d])⟩
  ⟨(row.splitBy fun a b => Form.own a.2 == Form.own b.2).map bandOf, 1⟩

def isPlain (s : Datasheet) (row : List (String × Datum)) : Bool :=
  s.bands.map Band.form == [.real] && !row.isEmpty
    && row.all fun value => Form.own value.2 == .real

/-- Adds a row of single values.  The first row of a sheet without columns stands by itself, and
reals below a band of reals stay one band. -/
def addRow (s : Datasheet) (row : List (String × Datum)) : Datasheet :=
  let slots := s.slots row
  if s.bands.isEmpty && s.height == 0 then ofRow row
  else if s.isPlain row then
    ⟨[⟨.real, slots.map fun t => (t.name, t.cells ++ [t.value.getD missing])⟩], s.height + 1⟩
  else ⟨(groups row slots).map Slot.join, s.height + 1⟩

/-- The single value of an entry.  A list has to have exactly one, and named values have none for
a row. -/
def single : Datum → Except Fault Datum
  | .list [.whole n] => do
    let _ ← (Number.whole n).toReal
    return .whole n
  | .list [d] => .ok d
  | .list ds => .error (.lengthMismatch ds.length)
  | .record _ => .ok missing
  | d => .ok d

def hasTwins : List String → Bool
  | [] => false
  | name :: names => names.contains name || hasTwins names

def addPoint (s : Datasheet) (point : List (String × Datum)) : Except Fault Datasheet := do
  let row ← point.mapM fun entry => do return (entry.1, ← single entry.2)
  if !row.isEmpty && hasTwins s.names then .error .namesNotUnique else .ok (s.addRow row)

def row (s : Datasheet) (index : Nat) : List Datum :=
  s.columns.map fun column => column.2[index]?.getD missing

def header (s : Datasheet) : List Char := Csv.line (s.names.map String.toList)

def rowLine (s : Datasheet) (index : Nat) : List Char := Csv.line ((s.row index).map Csv.cellText)

def csv (s : Datasheet) : String :=
  String.ofList (s.header ++ (List.range s.height).flatMap s.rowLine)

end Datasheet

end ThrustBench.Sheet
