import ThrustBench.Session.Basic

/-!
The script side of a session.  A run of a script is carried out first, and then what could be seen
of it is shown, in order.
-/

namespace ThrustBench.Session

def scriptRow (s : Session) (p : Script.Point) : List (String × Datum) :=
  s.pointRow { s.clock with now := p.moment } p.values (.whole p.timer) (.whole p.throttle)

/-- Shows one thing that could be seen of a run.  A point that is refused has ended the run. -/
def replay (s : Session) : Script.Event → Session × List Fault
  | .sent text => ({ s with sent := s.sent ++ [text] }, [])
  | .heard announcement => s.announce announcement
  | .point p => ((s.record (s.scriptRow p)).1, [])
  | .waited _ => (s, [])
  | .printed _ => (s, [])

def replayAll (s : Session) : List Script.Event → Session × List Fault
  | [] => (s, [])
  | e :: es =>
    let (s, faults) := s.replay e
    let (s, rest) := replayAll s es
    (s, faults ++ rest)

def pressScript (s : Session) : Effect :=
  let (panel, faults) := s.panel.press
  { session := { s with panel }, reported := faults }

def runScript (s : Session) (feed : List (List String)) (pressAtWait : Option Nat) : Effect :=
  match s.panel.thread with
  | none => { session := s }
  | some thread =>
    let job : Script.Job := { scriptRunning := s.panel.running }
    let plan : Script.Plan :=
      { s.panel.plan feed pressAtWait with
        refuse := fun _ p => Recorder.refusal? (s.scriptRow p) }
    let out := job.body (thread.script.read s.panel.otherText) plan s.stand s.clock
    let (s, faults) := s.replayAll ((out.run.map Script.Run.events).getD [])
    { session :=
        { s with
          stand := out.stand
          clock := out.clock
          panel := s.panel.afterBody thread out pressAtWait }
      reported := faults
      raised := out.raised }

end ThrustBench.Session
