import ThrustBench.Board

/-!
The serial port: bytes that wait to be read, texts that have been written, and the stand at the
other end of it.
-/

namespace ThrustBench

structure Port where
  isOpen : Bool := true
  failing : Bool := false
  pending : List UInt8 := []
  written : List String := []
  deriving DecidableEq

inductive Outgoing where
  | text (s : String)
  /-- A text by its code points, not all of which are characters, so that it has no encoding. -/
  | unencodable (points : List Nat)
  | other (value : Datum)

def Outgoing.ofDatum : Datum → Outgoing
  | .text s => .text s
  | value => .other value

instance : Coe Datum Outgoing := ⟨Outgoing.ofDatum⟩

namespace Port

def cutLine : List UInt8 → List UInt8 × List UInt8
  | [] => ([], [])
  | b :: bs =>
    if b = 10 then ([b], bs)
    else
      let cut := cutLine bs
      (b :: cut.1, cut.2)

def receive (p : Port) (bytes : List UInt8) : Port := { p with pending := p.pending ++ bytes }

/-- Writes a command and its line feed, and says whether that worked.  Only texts that have an
encoding can be written. -/
def write (p : Port) (command : Outgoing) : Port × Bool :=
  match command with
  | .text s =>
    if p.isOpen && !p.failing then ({ p with written := p.written ++ [s ++ "\n"] }, true)
    else (p, false)
  | .unencodable _ | .other _ => (p, false)

def close (p : Port) : Port × Bool := ({ p with isOpen := false }, p.isOpen)

end Port

structure Stand where
  board : Board := {}
  port : Option Port := none
  deriving DecidableEq

namespace Stand

def connect (s : Stand) (works : Bool) : Stand × Bool :=
  if works then ({ s with port := some {} }, true) else (s, false)

/-- Bytes arrive, which are lost without a port. -/
def deliver (s : Stand) (bytes : List UInt8) : Stand :=
  { s with port := s.port.map fun p => p.receive bytes }

def receive (s : Stand) (bytes : List UInt8) : Except Fault Stand :=
  if s.port.isNone then .error (.lacks .nothing "rx") else .ok (s.deliver bytes)

def setFailing (s : Stand) (failing : Bool) : Except Fault Stand :=
  match s.port with
  | none => .error (.lacks .nothing "fail_write")
  | some p => .ok { s with port := some { p with failing } }

def write (s : Stand) (command : Outgoing) : Except Fault (Stand × Bool) :=
  match s.port with
  | none => .error (.lacks .nothing "writeThrottle")
  | some p =>
    let (p, worked) := p.write command
    .ok ({ s with port := some p }, worked)

def send (s : Stand) (command : Outgoing) : Except Fault Stand :=
  match s.port with
  | none => .error (.lacks .nothing "sendCommandSignal")
  | some p => .ok { s with port := some (p.write command).1 }

def throttleCommand (throttle : Datum) : String := "thr(" ++ throttle.shown ++ ")"

def outsideThrottle (throttle : Datum) : Except Fault Bool := do
  if ← throttle.lt (.whole 0) then return true
  (Datum.whole 100).lt throttle

def setThrottle (s : Stand) (throttle : Datum) : Except Fault Stand := do
  if ← outsideThrottle throttle then .error .throttleRange
  else s.send (.text (throttleCommand throttle))

def disconnect (s : Stand) : Except Fault (Stand × Bool) :=
  match s.port with
  | none => .error (.lacks .nothing "is_open")
  | some p =>
    let (p, wasOpen) := p.close
    .ok ({ s with port := some p }, wasOpen)

structure LineRead where
  line : String
  outcome : Except Fault (Option Announcement)

def readLine (s : Stand) : Except Fault (Stand × Option LineRead) :=
  match s.port with
  | none => .error (.lacks .nothing "in_waiting")
  | some p =>
    if !p.isOpen then .error .deviceGone
    else if p.pending.isEmpty then .ok (s, none)
    else
      let (bytes, pending) := Port.cutLine p.pending
      let line := Text.decodeLossy bytes
      let (board, outcome) := s.board.decode line
      .ok (⟨board, some { p with pending }⟩, some ⟨line, outcome⟩)

def zero (s : Stand) (c : Channel) : Stand := { s with board := s.board.zero c }

end Stand

end ThrustBench
