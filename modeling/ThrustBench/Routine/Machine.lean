import ThrustBench.Clock
import ThrustBench.Routine.Value

/-!
The machine that routines act on: variables, a clock, a log, and someone who may ask it to stop.
A failed act leaves the machine as it was when it failed.
-/

namespace ThrustBench.Routine

inductive Stop where
  | never
  | early
  /-- As the log line of a number, counted from 0, is written. -/
  | atLine (line : Nat)
  /-- After the machine has looked a number of times whether it should stop. -/
  | afterChecks (checks : Nat)
  deriving DecidableEq

structure Machine where
  clock : Clock := {}
  memory : List (Value × Datum) := []
  log : List String := []
  checks : Nat := 0
  stop : Stop := .never

def Machine.stopped (m : Machine) : Bool :=
  match m.stop with
  | .never => false
  | .early => true
  | .atLine line => decide (line < m.log.length)
  | .afterChecks checks => decide (checks < m.checks)

def assignIn (name : Value) (value : Datum) : List (Value × Datum) → List (Value × Datum)
  | [] => [(name, value)]
  | v :: vs => if v.1.sameName name then (v.1, value) :: vs else v :: assignIn name value vs

def lookUpIn (name : Value) (memory : List (Value × Datum)) : Option Datum :=
  (memory.find? fun v => v.1.sameName name).map Prod.snd

abbrev Act (α : Type) : Type := ExceptT Fault (StateM Machine) α

namespace Act

def perform {α : Type} (act : Act α) (m : Machine) : Except Fault α × Machine := act m

def ofExcept {α : Type} : Except Fault α → Act α
  | .ok a => pure a
  | .error fault => throw fault

def log (line : String) : Act Unit := modify fun m => { m with log := m.log ++ [line] }

def stopAsked : Act Bool := do
  modify fun m => { m with checks := m.checks + 1 }
  return (← get).stopped

def unlessStopped : Act Unit := do
  if ← stopAsked then throw (.interrupted "")

def time : Act Binary64 := modifyGet fun m =>
  let (seconds, clock) := m.clock.look
  (seconds, { m with clock })

def sleep (seconds : Binary64) : Act Unit := do
  if seconds.lt (.zero false) then throw .negativeSleep
  modify fun m => { m with clock := m.clock.wait seconds }

def stretch : Binary64 := .ofQuotient 1 20

def sleepUntil (finish : Binary64) : Nat → Act Unit
  | 0 => throw .neverEnds
  | bound + 1 => do
    if (← time).lt finish then
      if ← stopAsked then throw (.interrupted "Execution stopped")
      sleep (stretch.min (finish.sub (← time)))
      sleepUntil finish bound

/-- How many stretches a sleep up to a time may take.  Each takes a microsecond at least; a sleep
without end lasts until a stop is asked for. -/
def stretches (m : Machine) : Binary64 → Nat
  | .finite _ steps => 2 * (steps * 1000000 / Binary64.unit + 1) + m.clock.now.natAbs + 1
  | _ =>
    match m.stop with
    | .afterChecks checks => checks + 2
    | _ => 2

def pause (seconds : Binary64) : Act Unit := do
  let finish := (← time).add seconds
  sleepUntil finish (stretches (← get) finish)

def setPwm (channel : Value) (value : Binary64) : Act Unit :=
  log ("[SET_PWM] channel=" ++ channel.shown ++ " value=" ++ value.text)

def wait (seconds : Binary64) : Act Unit := do
  log ("[WAIT] " ++ seconds.text ++ " s")
  pause seconds

def codePoint : Value → Except Fault Nat
  | .datum (.text s) =>
    match s.toList with
    | [c] => .ok c.toNat
    | cs => .error (.notOneCharacter cs.length)
  | v => .error (.notCharacter v.kind)

def codePoints : Value → Except Fault (List Nat)
  | .datum (.text s) => .ok (s.toList.map Char.toNat)
  | .list items => items.mapM codePoint
  | .datum (.list items) => items.mapM fun item => codePoint (.datum item)
  | .datum (.record fields) => fields.mapM fun field => codePoint (.text field.1)
  | .named name => [.text "VAR", name].mapM codePoint
  | v => .error (.notIterable v.kind)

def readSensor (name : Value) : Act Binary64 := do
  let points ← ofExcept (codePoints name)
  let base := Binary64.ofInt (points.foldl Nat.add 0 % 50 : Nat)
  let value := base.add ((← time).mod (.ofInt 10))
  log ("[READ_SENSOR] " ++ name.shown ++ " = " ++ value.fixedText 2 0)
  return value

def fetch (name : Value) : Act Binary64 := do
  ofExcept name.checkName
  match lookUpIn name (← get).memory with
  | some value => ofExcept value.toReal
  | none => return .zero false

def store (target : Value) (value : Binary64) : Act Unit := do
  ofExcept target.checkName
  modify fun m => { m with memory := assignIn target (.real value) m.memory }
  log ("[VAR] " ++ target.shown ++ " = " ++ value.text)

def operand : Value → Act Binary64
  | .named name => fetch name
  | v => ofExcept v.toReal

end Act

end ThrustBench.Routine
