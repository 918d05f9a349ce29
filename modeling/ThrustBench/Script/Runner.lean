import ThrustBench.Clock
import ThrustBench.Port
import ThrustBench.Script.Reader

/-!
Carrying out the commands of a script.  A run acts on the stand and the clock, and keeps a list of
what could be seen of it from outside.  A plan says what happens from outside meanwhile: lines that
arrive and a cancellation, while a wait lasts or when a point is added.
-/

namespace ThrustBench.Script

structure Point where
  /-- The time since the run began, in milliseconds. -/
  timer : Int
  throttle : Int
  values : Channels Number
  moment : Int
  deriving DecidableEq

inductive Event where
  | sent (text : String)
  | waited (moment : Int)
  | heard (announcement : Option Announcement)
  | printed (line : String)
  | point (p : Point)
  deriving DecidableEq

/-- What happens from outside during a run.  Waits and points are counted from 0. -/
structure Plan where
  feed : List (List String) := []
  cancelAtWait : Option Nat := none
  cancelAtPoint : Option Nat := none
  refuse : Nat → Point → Option Fault := fun _ _ => none

def refuseAt (number : Option Nat) (index : Nat) (_ : Point) : Option Fault :=
  if number = some index then some .pointRefused else none

structure Run where
  stand : Stand
  clock : Clock
  /-- The time in milliseconds when the run began. -/
  start : Binary64
  throttle : Int := 0
  useRaw : Bool := false
  abort : Bool := false
  waits : Nat := 0
  points : Nat := 0
  events : List Event := []

namespace Run

def milliseconds (c : Clock) : Binary64 × Clock :=
  let (seconds, c) := c.look
  (seconds.mul (Binary64.ofInt 1000), c)

def begin (stand : Stand) (clock : Clock) : Run :=
  let (start, clock) := milliseconds clock
  { stand, clock, start }

def note (r : Run) (e : Event) : Run := { r with events := r.events ++ [e] }

def hear (r : Run) (line : String) : Run × Except Fault Unit :=
  let (board, outcome) := r.stand.board.decode line
  let r := { r with stand := { r.stand with board } }
  match outcome with
  | .ok announcement => (r.note (.heard announcement), .ok ())
  | .error fault => (r, .error fault)

def hearAll (r : Run) : List String → Run × Except Fault Unit
  | [] => (r, .ok ())
  | line :: lines =>
    match r.hear line with
    | (r, .ok _) => hearAll r lines
    | (r, .error fault) => (r, .error fault)

end Run

def Command.data (c : Command) : List Datum :=
  c.arguments.map fun text => .text (String.ofList text)

def unpackOne : List Datum → Except Fault Datum
  | [a] => .ok a
  | [] => .error (.tooFewValues 1 0)
  | _ => .error (.tooManyValues 1)

def unpackThree : List Datum → Except Fault (Datum × Datum × Datum)
  | [a, b, c] => .ok (a, b, c)
  | _ :: _ :: _ :: _ => .error (.tooManyValues 3)
  | few => .error (.tooFewValues 3 few.length)

namespace Run

/-- Sets the throttle.  A value outside 0 to 100 is not sent but remembered all the same. -/
def setThrottle (r : Run) (args : List Datum) : Run × Except Fault Datum :=
  match unpackOne args >>= Datum.toWhole with
  | .error fault => (r, .error fault)
  | .ok throttle =>
    if 0 ≤ throttle ∧ throttle ≤ 100 then
      match r.stand.setThrottle (.whole throttle) with
      | .error fault => (r, .error fault)
      | .ok stand =>
        let before := (r.stand.port.map Port.written).getD []
        let after := (stand.port.map Port.written).getD []
        let r := (after.drop before.length).foldl (fun r text => r.note (.sent text)) r
        ({ r with stand, throttle }, .ok .nothing)
    else ({ r with throttle }, .ok .nothing)

def read (r : Run) (c : Channel) : Datum :=
  if r.useRaw then Datum.ofNumber? (r.stand.board.raw.get c)
  else Datum.ofNumber (r.stand.board.value.get c)

/-- Longer waits are refused: `2 ^ 63` nanoseconds, in seconds and rounded up to a whole number. -/
def longestWait : Number := .whole 9223372037

def waitLength (args : List Datum) : Except Fault Binary64 :=
  match unpackOne args >>= Datum.toWhole with
  | .error fault => .error fault
  | .ok milliseconds => (Number.whole milliseconds).div (.whole 1000)

/-- Begins a wait: lines arrive.  A line that fails ends the wait before it counts. -/
def beginWait (plan : Plan) (r : Run) : Run × Except Fault Unit :=
  match (r.note (.waited r.clock.now)).hearAll (plan.feed[r.waits]?.getD []) with
  | (r, .error fault) => (r, .error fault)
  | (r, .ok _) => ({ r with waits := r.waits + 1 }, .ok ())

def waitSeconds (plan : Plan) (r : Run) (seconds : Binary64) : Run × Except Fault Datum :=
  let index := r.waits
  match r.beginWait plan with
  | (r, .error fault) => (r, .error fault)
  | (r, .ok _) =>
    if plan.cancelAtWait = some index then ({ r with abort := true }, .ok .nothing)
    else ({ r with clock := r.clock.wait seconds }, .ok .nothing)

def wait (plan : Plan) (r : Run) (args : List Datum) : Run × Except Fault Datum :=
  match waitLength args with
  | .error fault => (r, .error fault)
  | .ok seconds =>
    if longestWait.lt (.real seconds) then (r, .error .waitTooLong)
    else r.waitSeconds plan seconds

def isTrue (s : String) : Bool := String.ofList (s.toList.map Char.toLower) == "true"

def chooseRaw (r : Run) : List Datum → Run × Except Fault Datum
  | [] => (r, .error .noSuchItem)
  | .text s :: _ => ({ r with useRaw := isTrue s }, .ok .nothing)
  | d :: _ => (r, .error (.lacks d.kind "lower"))

def print (r : Run) (text : String) : Run :=
  (text.splitOn "\n").foldl (fun r line => r.note (.printed line)) r

def writeSheetCell (r : Run) (args : List Datum) : Run × Except Fault Datum :=
  match unpackThree args with
  | .error fault => (r, .error fault)
  | .ok (value, x, y) =>
    (r.print ("Writing " ++ value.shown ++ " to sheet cell " ++ x.shown ++ " and " ++ y.shown),
      .ok .nothing)

def handPoint (r : Run) : Run × Point :=
  let (now, clock) := milliseconds r.clock
  let point : Point :=
    ⟨(now.sub r.start).truncate, r.throttle, r.stand.board.value, clock.now⟩
  ({ r with clock, points := r.points + 1 }.note (.point point), point)

/-- Adds a point.  The plan may cancel the script at a point that is not refused. -/
def addPoint (plan : Plan) (r : Run) : Run × Except Fault Datum :=
  let index := r.points
  let (r, point) := r.handPoint
  match plan.refuse index point with
  | some fault => (r, .error fault)
  | none =>
    ({ r with abort := r.abort || decide (plan.cancelAtPoint = some index) }, .ok .nothing)

def act (plan : Plan) (r : Run) (verb : Verb) (args : List Datum) : Run × Except Fault Datum :=
  match verb with
  | .setThrottle => r.setThrottle args
  | .read c => (r, .ok (r.read c))
  | .wait => r.wait plan args
  | .useSpreadsheet => (r.print "Using spreadsheet", .ok .nothing)
  | .useRaw => r.chooseRaw args
  | .writeSheetCell => r.writeSheetCell args
  | .addPoint => r.addPoint plan

def perform (plan : Plan) (r : Run) (verb : Verb) (args : List Datum) : Run × Except Fault Datum :=
  if r.abort then (r, .error .aborted) else r.act plan verb args

def performAll (plan : Plan) : Run → List Command → Run × Except Fault (List Datum)
  | r, [] => (r, .ok [])
  | r, c :: cs =>
    match r.perform plan c.verb c.data with
    | (r, .error .aborted) => (r, .error .aborted)
    | (r, .error fault) => (r, .error (.command c.verb.rule fault))
    | (r, .ok value) =>
      match performAll plan r cs with
      | (r, .ok values) => (r, .ok (value :: values))
      | (r, .error fault) => (r, .error fault)

end Run

end ThrustBench.Script
