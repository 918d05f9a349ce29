import ThrustBench.Board
import ThrustBench.History

/-!
A history that is fed by the announcements of a channel.
-/

namespace ThrustBench

structure Watch where
  channel : Option Channel := none
  board : Board := {}
  clock : Clock := {}
  history : History

namespace Watch

def add (w : Watch) (value : Datum) : Watch × Except Fault Unit :=
  let (history, clock, outcome) := w.history.add w.clock value
  ({ w with history, clock }, outcome)

def prune (w : Watch) : Option Datum → Watch × Except Fault Unit
  | some now =>
    match w.history.pruneAt now with
    | .ok history => ({ w with history }, .ok ())
    | .error fault => (w, .error fault)
  | none =>
    let (outcome, clock) := w.history.prune w.clock
    match outcome with
    | .ok history => ({ w with history, clock }, .ok ())
    | .error fault => ({ w with clock }, .error fault)

def byAge (w : Watch) (older younger : Datum) : Watch × Except Fault (List Sample) :=
  let (outcome, clock) := w.history.byAge w.clock older younger
  ({ w with clock }, outcome)

/-- Takes in a line.  An announcement of the channel is added; if that fails, the failure is
reported and goes no further. -/
def hear (w : Watch) (line : String) : Watch × Except Fault (List Fault) :=
  let (board, outcome) := w.board.decode line
  let w := { w with board }
  match outcome with
  | .error fault => (w, .error fault)
  | .ok none => (w, .ok [])
  | .ok (some a) =>
    if w.channel = some a.channel then
      match w.add (.ofNumber a.value) with
      | (w, .ok _) => (w, .ok [])
      | (w, .error fault) => (w, .ok [fault])
    else (w, .ok [])

end Watch

end ThrustBench
