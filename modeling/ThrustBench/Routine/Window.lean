import ThrustBench.Routine.Runner

/-!
The window in which a routine is edited, run and stopped.
-/

namespace ThrustBench.Routine

def exampleText : String :=
  "# spin motor, wait, read temp, branch, and repeat\nSET_PWM motor1 1200\nWAIT 1\n"
    ++ "TEMP = READ_SENSOR temp\nIF TEMP > 40 THEN \x7b\n    SET_PWM fan 2000\n\x7d ELSE \x7b\n"
    ++ "    SET_PWM fan 1200\n\x7d\n\nREPEAT 3 \x7b\n    SET_PWM servo 1500\n    WAIT 0.2\n"
    ++ "    SET_PWM servo 1200\n    WAIT 0.2\n\x7d\n"

structure Thread where
  text : String
  running : Bool := true
  stopAsked : Bool := false

structure Window where
  editor : String := exampleText
  log : List String := []
  runEnabled : Bool := true
  stopEnabled : Bool := false
  thread : Option Thread := none
  clock : Clock := {}

namespace Window

def running (w : Window) : Bool := (w.thread.map Thread.running).getD false

def setEditor (w : Window) (text : String) : Window := { w with editor := text }

def busy : String × String := ("Busy", "A script is already running.")

def pressRun (w : Window) : Window × Option (String × String) :=
  if w.running then (w, some busy)
  else
    let thread : Thread := { text := w.editor }
    ({ w with log := [], thread := some thread, runEnabled := false, stopEnabled := true }, none)

def pressStop (w : Window) : Window :=
  match w.thread with
  | some t => if t.running then { w with thread := some { t with stopAsked := true } } else w
  | none => w

def pressExample (w : Window) : Window := { w with editor := exampleText, log := [] }

def endingLine : Ending → String
  | .done => "\n[DONE]"
  | .error message => "\n[ERROR] " ++ message

end Window

end ThrustBench.Routine
