import ThrustBench.Script.Runner

/-!
A script as a job: it is started, its body reads the script and carries it out, and at the end it
tells that it is complete.  A cancelled script ends in the usual way; any other failure leaves the
job before its end.
-/

namespace ThrustBench.Script

structure Job where
  scriptRunning : Bool := true
  bodyRunning : Bool := false
  completions : Nat := 0

/-- Cancelling a job whose body has not begun its run fails. -/
def Job.cancelBeforeRun (_ : Job) : Fault := .lacks .nothing "abortFlag"

structure Outcome where
  job : Job
  stand : Stand
  clock : Clock
  run : Option Run := none
  values : Option (List Datum) := none
  raised : Option Fault := none

def Job.finish (j : Job) : Job :=
  ⟨false, false, j.completions + 1⟩

/-- What a job comes to when its run has ended.  A cancelled run ends in the usual way. -/
def Job.conclude (j : Job) (run : Run) (result : Except Fault (List Datum)) : Outcome :=
  let j := if run.abort then { j with bodyRunning := false } else j
  let outcome : Outcome := { job := j, stand := run.stand, clock := run.clock, run := some run }
  match result with
  | .ok values => { outcome with job := j.finish, values := some values }
  | .error .aborted => { outcome with job := j.finish }
  | .error fault => { outcome with raised := some fault }

def Job.body (j : Job) (script : Except Fault (List Command)) (plan : Plan) (stand : Stand)
    (clock : Clock) : Outcome :=
  let j := { j with bodyRunning := true }
  match script with
  | .error fault => { job := j, stand, clock, raised := some fault }
  | .ok commands =>
    let (run, result) := Run.performAll plan (Run.begin stand clock) commands
    j.conclude run result

end ThrustBench.Script
