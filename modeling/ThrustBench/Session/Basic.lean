import ThrustBench.Console
import ThrustBench.Display
import ThrustBench.Recorder
import ThrustBench.Stopwatch
import ThrustBench.Script.Panel
import ThrustBench.Theme.Basic

/-!
A session at the bench: the state behind the windows, and what is done to it.
-/

namespace ThrustBench

inductive Screen where
  | connect
  | test
  | board
  | settings
  deriving DecidableEq

namespace Screen

def all : List Screen := [connect, test, board, settings]

def name : Screen → String
  | connect => "Connect"
  | test => "Test"
  | board => "Board"
  | settings => "Settings"

end Screen

structure Link where
  port : String
  running : Bool := true
  deriving DecidableEq

structure Session where
  stand : Stand := {}
  clock : Clock := {}
  /-- All texts that were written to ports. -/
  sent : List String := []
  console : Console := {}
  link : Option Link := none
  connected : Bool := false
  input : String := ""
  offered : List String
  /-- The ports that were offered when they were listed last. -/
  listed : List String
  display : Display := {}
  throttle : Int := 0
  stopwatch : Stopwatch
  recorder : Recorder := .empty
  panel : Script.Panel := {}
  theme : Theme := .dark
  screen : Screen := .connect

namespace Session

def start (ports : List String) (clock : Clock) : Session :=
  { clock, offered := ports, listed := ports, stopwatch := { origin := clock.now } }

def selectedPort (s : Session) : String := s.listed.headD ""

def status (s : Session) : String × String :=
  if s.connected then ("CONNECTED", "green") else ("NOT CONNECTED", "red")

def written (before after : Stand) : List String :=
  ((after.port.map Port.written).getD []).drop ((before.port.map Port.written).getD []).length

def tell (s : Session) (text : String) : Session := { s with console := s.console.append text }

def announce (s : Session) : Option Announcement → Session × List Fault
  | none => (s, [])
  | some a =>
    let (display, faults) := s.display.announce a
    ({ s with display }, faults)

/-- Does a value stand for no time?  Zero does too. -/
def isNoTime (timer : Datum) : Bool :=
  match timer.number? with
  | some n => n.eq (.whole 0)
  | none => timer == .nothing

/-- The row of a point.  Without a time the stopwatch gives it, and without a throttle the
slider. -/
def pointRow (s : Session) (clock : Clock) (values : Channels Number) (timer throttle : Datum) :
    List (String × Datum) :=
  let counted := Datum.ofNumber? ((s.stopwatch.value clock).map Number.whole)
  let time := if isNoTime timer then counted else timer
  let throttle := if throttle = .nothing then .whole s.throttle else throttle
  Recorder.row time throttle values

def record (s : Session) (row : List (String × Datum)) : Session × Option Fault :=
  let (recorder, refused) := s.recorder.add row
  ({ s with recorder }, refused)

def addPoint (s : Session) (timer throttle : Datum) : Session × Option Fault :=
  s.record (s.pointRow s.clock s.stand.board.value timer throttle)

end Session

structure Effect where
  session : Session
  /-- Failures that were reported and went no further. -/
  reported : List Fault := []
  raised : Option Fault := none

def Session.savePoint (s : Session) : Effect :=
  let (s, refused) := s.addPoint .nothing .nothing
  { session := s, reported := refused.toList }

end ThrustBench
