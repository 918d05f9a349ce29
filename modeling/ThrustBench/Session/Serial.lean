import ThrustBench.Session.Basic

/-!
The serial side of a session: connecting, the thread that reads, and commands.
-/

namespace ThrustBench.Session

def refresh (s : Session) : Session := { s with listed := s.offered }

def connect (s : Session) : Session :=
  match s.link with
  | none =>
    let link : Link := { port := s.selectedPort }
    { s with link := some link, connected := true }
  | some _ => s.tell "(i) Serial already connected"

def attach (s : Session) : Session := { s with stand := (s.stand.connect true).1 }

def stopReading (s : Session) (link : Link) : Session × Option Fault :=
  let s := { s with link := some { link with running := false } }
  match s.stand.disconnect with
  | .error fault => (s, some fault)
  | .ok (stand, wasOpen) =>
    let text :=
      if wasOpen then "(i) Disconnected from serial port " ++ link.port
      else "(i) Failed to disconnect serial port"
    ({ s with stand }.tell text, none)

/-- Reads lines until the device is gone, which is when nothing is waiting any more, or until a
line fails; at most `bound` lines. -/
def readLines (link : Link) : Nat → Session → Effect
  | 0, s => { session := s }
  | bound + 1, s =>
    match s.stand.readLine with
    | .error .deviceGone | .ok (_, none) =>
      let (s, fault) := s.stopReading link
      { session := s, raised := fault }
    | .error fault => { session := s, raised := some fault }
    | .ok (stand, some read) =>
      match read.outcome with
      | .error fault => { session := { s with stand }, raised := some fault }
      | .ok announcement =>
        let (s, faults) := { s with stand }.announce announcement
        let rest := readLines link bound (s.tell read.line)
        { rest with reported := faults ++ rest.reported }

def waiting (s : Session) : Nat := ((s.stand.port.map Port.pending).getD []).length

/-- The body of the thread: it opens the port, reads what arrives until the device is gone, and is
done.  If the port cannot be opened it goes on with the one before. -/
def serve (s : Session) (works : Bool) (bytes : List UInt8) : Effect :=
  match s.link with
  | none => { session := s }
  | some link =>
    let (stand, opened) := s.stand.connect works
    let s := { s with stand := if opened then stand.deliver bytes else stand }
    let text :=
      if opened then "(i) Connected to serial port " else "(i) Error opening serial port "
    let s := s.tell (text ++ link.port)
    let effect := if link.running then readLines link (s.waiting + 1) s else { session := s }
    { effect with session := { effect.session with link := none, connected := false } }

def closeMonitor (s : Session) : Effect :=
  match s.link with
  | none => { session := s, raised := some (.lacks .nothing "stop") }
  | some link =>
    let (s, fault) := s.stopReading link
    { session := s, raised := fault }

def hear (s : Session) (line : String) : Effect :=
  let (board, outcome) := s.stand.board.decode line
  let s := { s with stand := { s.stand with board } }
  match outcome with
  | .error fault => { session := s, raised := some fault }
  | .ok announcement =>
    let (s, faults) := s.announce announcement
    { session := s, reported := faults }

def submit (s : Session) : Effect :=
  let command := Text.trim s.input
  match s.stand.send (.text command) with
  | .error fault => { session := s, reported := [fault] }
  | .ok stand =>
    let s := { s with stand, sent := s.sent ++ written s.stand stand }
    { session := { s.tell ("> " ++ command) with input := "" } }

/-- Moves the throttle slider, which stops at 0 and at 100.  Its new position is sent, and kept
even if that fails. -/
def slide (s : Session) (position : Int) : Effect :=
  let position := max 0 (min 100 position)
  if position = s.throttle then { session := s }
  else
    match s.stand.setThrottle (.whole position) with
    | .error fault => { session := { s with throttle := position }, reported := [fault] }
    | .ok stand =>
      { session :=
          { s with stand, sent := s.sent ++ written s.stand stand, throttle := position } }

end ThrustBench.Session
