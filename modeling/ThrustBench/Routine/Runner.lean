import ThrustBench.Routine.Reader
import ThrustBench.Routine.Action
import ThrustBench.Routine.Program

/-!
Running the text of a routine: it is read, built and carried out, and the end is told once.
-/

namespace ThrustBench.Routine

inductive Ending where
  | done
  | error (message : String)
  deriving DecidableEq

def runTop : List Value → Act Unit
  | [] => return
  | v :: vs => do
    if (← get).stopped then throw (.interrupted "Stopped")
    let _ ← v.run
    runTop vs

def runBuilt : Value → Act Unit
  | .list items => runTop items
  | v => throw (.notIterable v.kind)

def runText (text : String) : Act Unit := do
  let program ← Act.ofExcept (parse text)
  runBuilt (← Act.ofExcept (build program))

def report : Fault → String
  | .mismatch m =>
    "Parse/Exec error at line " ++ toString m.line ++ ", column " ++ toString m.column ++ ": "
      ++ m.message
  | fault => fault.message

def stoppedLine : String := "\n[STOPPED] Execution interrupted by user."

def run (text : String) (m : Machine) : Ending × Machine :=
  match (runText text).perform m with
  | (.ok _, m) => (.done, m)
  | (.error (.interrupted _), m) => (.done, { m with log := m.log ++ [stoppedLine] })
  | (.error fault, m) => (.error (report fault), m)

end ThrustBench.Routine
