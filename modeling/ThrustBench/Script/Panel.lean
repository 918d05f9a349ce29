import ThrustBench.Script.Job
import ThrustBench.Script.Library

/-!
The panel that starts and cancels scripts.  A script is run by a thread, which is made when the
button is pressed.  A script that fails leaves the panel as it was while the script ran.
-/

namespace ThrustBench.Script

structure Thread where
  script : Choice
  begun : Bool := false
  deriving DecidableEq

structure Panel where
  selected : Choice := .named "Test"
  otherText : String := ""
  running : Bool := false
  buttonText : String := "Start"
  selectorEnabled : Bool := true
  thread : Option Thread := none

namespace Panel

def choose (p : Panel) (name : String) : Panel := { p with selected := .named name }

def chooseOther (p : Panel) (text : String) : Panel :=
  { p with selected := .other, otherText := text }

def start (p : Panel) : Panel :=
  let thread : Thread := { script := p.selected }
  { p with
    running := true
    buttonText := "Cancel"
    selectorEnabled := false
    thread := some thread }

def cancel (p : Panel) : Except Fault Unit :=
  match p.thread with
  | none => .error (.lacks .nothing "stop")
  | some t => if t.begun then .ok () else .error (.lacks .nothing "abortFlag")

def press (p : Panel) : Panel × List Fault :=
  if p.running then
    match p.cancel with
    | .ok _ => (p, [])
    | .error fault => (p, [fault])
  else (p.start, [])

def complete (p : Panel) : Panel :=
  { p with running := false, buttonText := "Start", selectorEnabled := true }

/-- The plan for a run during which the button is pressed as a wait begins.  It cancels the script
only if the panel takes one to be running. -/
def plan (p : Panel) (feed : List (List String)) (pressAtWait : Option Nat) : Plan :=
  { feed, cancelAtWait := if p.running then pressAtWait else none }

def reached (run : Option Run) (wait : Option Nat) : Bool :=
  match run, wait with
  | some r, some k => decide (k < r.waits)
  | _, _ => false

/-- The panel after the body of its thread.  A press of the button during the run started the
selected script anew if the panel did not take one to be running. -/
def afterBody (p : Panel) (t : Thread) (out : Outcome) (pressAtWait : Option Nat) : Panel :=
  let p :=
    if !p.running && reached out.run pressAtWait then p.start
    else { p with thread := some { t with begun := t.begun || out.run.isSome } }
  if out.raised.isNone then p.complete else p

end Panel

end ThrustBench.Script
