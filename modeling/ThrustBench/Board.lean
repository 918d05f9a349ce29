import ThrustBench.Channel
import ThrustBench.Reading

/-!
The board's readings.  Each channel has a raw reading, an offset that zeroing takes from it, and
the value last announced: the reading less the offset.
-/

namespace ThrustBench

structure Announcement where
  channel : Channel
  value : Number
  deriving DecidableEq

structure Board where
  raw : Channels (Option Number) := .const (some (.whole 0))
  offset : Channels Datum := .const (.whole 0)
  value : Channels Number := .const (.whole 0)
  deriving DecidableEq

namespace Board

def reading (c : Channel) (line : String) : Except Fault (Option Number) :=
  match c with
  | .cell1 | .cell2 => (Reading.whole line).map (Option.map Number.whole)
  | .current | .voltage => .ok ((Reading.real line).map Number.real)

def announced (c : Channel) (reading : Number) (offset : Datum) : Except Fault Number := do
  let difference ← (Datum.ofNumber reading).sub offset
  match c, difference with
  | .current, .real x | .voltage, .real x => return .real (x.roundPlaces 2)
  | _, _ => return difference

def line? : Datum → Except Fault String
  | .text line => .ok line
  | d => .error (.lacks d.kind "startswith")

/-- Takes in a line.  The raw reading is replaced before the offset is subtracted. -/
def decode (b : Board) (line : String) : Board × Except Fault (Option Announcement) :=
  match Channel.ofLine? line.toList with
  | none => (b, .ok none)
  | some c =>
    match reading c line with
    | .error fault => (b, .error fault)
    | .ok none => ({ b with raw := b.raw.set c none }, .ok none)
    | .ok (some n) =>
      let b := { b with raw := b.raw.set c (some n) }
      match announced c n (b.offset.get c) with
      | .error fault => (b, .error fault)
      | .ok v => ({ b with value := b.value.set c v }, .ok (some ⟨c, v⟩))

def zero (b : Board) (c : Channel) : Board :=
  { b with offset := b.offset.set c (Datum.ofNumber? (b.raw.get c)) }

def zeroAll (b : Board) : Board := Channel.all.foldl zero b

end Board

end ThrustBench
