import ThrustBench.Clock
import ThrustBench.Datum

/-!
The recent history of a reading: values with the times when they were added, as far back as a
greatest age allows.
-/

namespace ThrustBench

structure Sample where
  time : Binary64
  value : Datum
  deriving DecidableEq

structure History where
  maxAge : Datum
  samples : List Sample := []

namespace History

def pruneAt (h : History) (now : Datum) : Except Fault History := do
  let cutoff ← now.sub h.maxAge
  return { h with samples := h.samples.dropWhile fun s => (Number.real s.time).lt cutoff }

def prune (h : History) (clock : Clock) : Except Fault History × Clock :=
  let (now, clock) := clock.look
  (h.pruneAt (.real now), clock)

/-- Adds a value, and drops what is too old.  The value stays even if that fails. -/
def add (h : History) (clock : Clock) (value : Datum) : History × Clock × Except Fault Unit :=
  let (now, clock) := clock.look
  let sample : Sample := ⟨now, value⟩
  let h := { h with samples := h.samples ++ [sample] }
  match h.pruneAt (.real now) with
  | .ok h => (h, clock, .ok ())
  | .error fault => (h, clock, .error fault)

def times (h : History) : List Binary64 := h.samples.map Sample.time

def values (h : History) : List Datum := h.samples.map Sample.value

def clear (h : History) : History := { h with samples := [] }

def ageBetween (older younger : Datum) (age : Binary64) : Except Fault Bool := do
  if ← older.lt (.real age) then (Datum.real age).lt younger else return false

def selectByAge (older younger : Datum) (now : Binary64) :
    List Sample → Except Fault (List Sample)
  | [] => .ok []
  | s :: ss => do
    let kept ← ageBetween older younger (now.sub s.time)
    let rest ← selectByAge older younger now ss
    return if kept then s :: rest else rest

def byAge (h : History) (clock : Clock) (older younger : Datum) :
    Except Fault (List Sample) × Clock :=
  let (now, clock) := clock.look
  (selectByAge older younger now h.samples, clock)

end History

end ThrustBench
