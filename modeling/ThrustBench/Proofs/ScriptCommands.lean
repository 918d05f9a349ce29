import ThrustBench.Session.Scripting
import ThrustBench.Proofs.Running

/-!
The commands of a script one by one in a session, so that other things can happen between them.  A
script that nothing happens beside does what its commands do in turn.
-/

namespace ThrustBench

namespace Script.Run

def behind (earlier : List Event) (r : Run) : Run := { r with events := earlier ++ r.events }

def laterThan {α : Type} (earlier : List Event) (done : Run × α) : Run × α :=
  (done.1.behind earlier, done.2)

theorem begin_fresh (stand : Stand) (clock : Clock) :
    { begin stand clock with events := [] } = begin stand clock := by
  unfold begin
  generalize milliseconds clock = look
  rfl

theorem note_behind (earlier : List Event) (r : Run) (e : Event) :
    (r.behind earlier).note e = (r.note e).behind earlier := by
  simp [note, behind]

theorem hear_behind (earlier : List Event) (r : Run) (line : String) :
    (r.behind earlier).hear line = laterThan earlier (r.hear line) := by
  cases outcome : (r.stand.board.decode line).2 with
  | error fault => simp [hear, behind, laterThan, outcome]
  | ok announcement => simp [hear, behind, laterThan, outcome, note]

theorem hearAll_behind (earlier : List Event) (lines : List String) : ∀ r : Run,
    (r.behind earlier).hearAll lines = laterThan earlier (r.hearAll lines) := by
  induction lines with
  | nil => intro r; rfl
  | cons line lines ih =>
      intro r
      simp only [hearAll, hear_behind]
      generalize r.hear line = heard
      obtain ⟨r', outcome⟩ := heard
      cases outcome with
      | error fault => rfl
      | ok _ => exact ih r'

theorem beginWait_behind (plan : Plan) (earlier : List Event) (r : Run) :
    (r.behind earlier).beginWait plan = laterThan earlier (r.beginWait plan) := by
  have heard := hearAll_behind earlier (plan.feed[r.waits]?.getD []) (r.note (.waited r.clock.now))
  rw [← note_behind] at heard
  generalize alone : (r.note (.waited r.clock.now)).hearAll (plan.feed[r.waits]?.getD []) = done
    at heard
  obtain ⟨r', outcome⟩ := done
  have together : ((r.behind earlier).note (.waited (r.behind earlier).clock.now)).hearAll
      (plan.feed[(r.behind earlier).waits]?.getD []) = (r'.behind earlier, outcome) := heard
  cases outcome with
  | error fault => simp only [beginWait, alone, together, laterThan]
  | ok _ =>
      simp only [beginWait, alone, together, laterThan]
      rfl

theorem waitSeconds_behind (plan : Plan) (earlier : List Event) (r : Run) (seconds : Binary64) :
    (r.behind earlier).waitSeconds plan seconds =
      laterThan earlier (r.waitSeconds plan seconds) := by
  have begun := beginWait_behind plan earlier r
  generalize alone : r.beginWait plan = done at begun
  obtain ⟨r', outcome⟩ := done
  cases outcome with
  | error fault => simp only [waitSeconds, begun, alone, laterThan]
  | ok _ =>
      simp only [waitSeconds, begun, alone, laterThan]
      by_cases cancelled : plan.cancelAtWait = some r.waits
      · have elsewhere : plan.cancelAtWait = some (r.behind earlier).waits := cancelled
        rw [if_pos cancelled, if_pos elsewhere]
        rfl
      · have elsewhere : plan.cancelAtWait ≠ some (r.behind earlier).waits := cancelled
        rw [if_neg cancelled, if_neg elsewhere]
        rfl

theorem wait_behind (plan : Plan) (earlier : List Event) (r : Run) (args : List Datum) :
    (r.behind earlier).wait plan args = laterThan earlier (r.wait plan args) := by
  cases length : waitLength args with
  | error fault => simp only [wait, length, laterThan]
  | ok seconds =>
      simp only [wait, length]
      split
      · rfl
      · exact waitSeconds_behind plan earlier r seconds

theorem setThrottle_behind (earlier : List Event) (r : Run) (args : List Datum) :
    (r.behind earlier).setThrottle args = laterThan earlier (r.setThrottle args) := by
  cases value : unpackOne args >>= Datum.toWhole with
  | error fault => rw [setThrottle_unread value, setThrottle_unread value, laterThan]
  | ok k =>
      by_cases inside : 0 ≤ k ∧ k ≤ 100
      · cases connected : r.stand.port with
        | none =>
            rw [setThrottle_unconnected value inside connected,
              setThrottle_unconnected value inside (r := r.behind earlier) connected, laterThan]
        | some p =>
            rw [setThrottle_inside value inside connected,
              setThrottle_inside value inside (r := r.behind earlier) connected]
            simp [laterThan, behind]
      · rw [setThrottle_outside value inside, setThrottle_outside value inside]
        rfl

theorem print_behind (earlier : List Event) (r : Run) (text : String) :
    (r.behind earlier).print text = (r.print text).behind earlier := by
  simp [print_eq, behind]

theorem addPoint_behind (plan : Plan) (earlier : List Event) (r : Run) :
    (r.behind earlier).addPoint plan = laterThan earlier (r.addPoint plan) := by
  have handed : (r.behind earlier).handPoint = laterThan earlier r.handPoint := by
    simp [handPoint, laterThan, behind, note]
  cases refusal : plan.refuse r.points r.handPoint.2 with
  | some fault =>
      have elsewhere : plan.refuse (r.behind earlier).points (r.handPoint).2 = some fault := refusal
      simp only [addPoint, handed, laterThan, refusal, elsewhere]
  | none =>
      have elsewhere : plan.refuse (r.behind earlier).points (r.handPoint).2 = none := refusal
      simp only [addPoint, handed, laterThan, refusal, elsewhere]
      rfl

theorem act_behind (plan : Plan) (earlier : List Event) (r : Run) (verb : Verb)
    (args : List Datum) :
    (r.behind earlier).act plan verb args = laterThan earlier (r.act plan verb args) := by
  cases verb with
  | setThrottle => exact setThrottle_behind earlier r args
  | read c => rfl
  | wait => exact wait_behind plan earlier r args
  | useSpreadsheet => simp only [act, print_behind, laterThan]
  | useRaw =>
      cases args with
      | nil => rfl
      | cons first others => cases first <;> rfl
  | writeSheetCell =>
      cases values : unpackThree args with
      | error fault => simp only [act, writeSheetCell, values, laterThan]
      | ok triple => simp only [act, writeSheetCell, values, print_behind, laterThan]
  | addPoint => exact addPoint_behind plan earlier r

theorem perform_behind (plan : Plan) (earlier : List Event) (r : Run) (verb : Verb)
    (args : List Datum) :
    (r.behind earlier).perform plan verb args = laterThan earlier (r.perform plan verb args) := by
  cases running : r.abort with
  | true =>
      have elsewhere : (r.behind earlier).abort = true := running
      rw [perform_of_cancelled running, perform_of_cancelled elsewhere, laterThan]
  | false =>
      have elsewhere : (r.behind earlier).abort = false := running
      rw [perform_of_running running, perform_of_running elsewhere, act_behind]

theorem performAll_behind (plan : Plan) (earlier : List Event) (script : List Command) :
    ∀ r : Run, performAll plan (r.behind earlier) script =
      laterThan earlier (performAll plan r script) := by
  induction script with
  | nil => intro r; rfl
  | cons c cs ih =>
      intro r
      have step := perform_behind plan earlier r c.verb c.data
      generalize alone : r.perform plan c.verb c.data = done at step
      obtain ⟨r', outcome⟩ := done
      cases outcome with
      | error fault =>
          rw [performAll_cons_error alone, performAll_cons_error step]
          rfl
      | ok value =>
          rw [performAll_cons_ok alone, performAll_cons_ok step, ih r']
          rfl

end Script.Run

namespace Session

def attempt (s : Session) (plan : Script.Plan) (run : Script.Run) (c : Script.Command) :
    Script.Run × Except Fault Datum :=
  { run with stand := s.stand, clock := s.clock, events := [] }.perform plan c.verb c.data

def handedBack (s : Session) (run : Script.Run) : Session :=
  { s with stand := run.stand, clock := run.clock }

def obey (s : Session) (plan : Script.Plan) (run : Script.Run) (c : Script.Command) : Session :=
  let done := (s.attempt plan run c).1
  (s.replayAll done.events).1.handedBack done

def obeyAll (plan : Script.Plan) : Session → Script.Run → List Script.Command → Session
  | s, _, [] => s
  | s, run, c :: cs =>
    match s.attempt plan run c with
    | (_, .error _) => s.obey plan run c
    | (done, .ok _) => obeyAll plan (s.obey plan run c) done cs

theorem replayAll_append (first second : List Script.Event) : ∀ s : Session,
    (s.replayAll (first ++ second)).1 = ((s.replayAll first).1.replayAll second).1 := by
  induction first with
  | nil => intro s; rfl
  | cons e first ih => intro s; exact ih (s.replay e).1

theorem replayAll_handedBack (events : List Script.Event) (run : Script.Run) : ∀ s : Session,
    ((s.handedBack run).replayAll events).1 = (s.replayAll events).1.handedBack run := by
  induction events with
  | nil => intro s; rfl
  | cons e events ih =>
      intro s
      have first : ((s.handedBack run).replay e).1 = (s.replay e).1.handedBack run := by
        cases e with
        | heard announcement => cases announcement <;> rfl
        | _ => rfl
      simp only [replayAll, first]
      exact ih (s.replay e).1

theorem obeyAll_eq (plan : Script.Plan) (script : List Script.Command) : ∀ (s : Session)
    (run : Script.Run), run.stand = s.stand → run.clock = s.clock →
    let done := (Script.Run.performAll plan { run with events := [] } script).1
    obeyAll plan s run script = (s.replayAll done.events).1.handedBack done := by
  induction script with
  | nil =>
      intro s run stand clock
      simp only [obeyAll, Script.Run.performAll, replayAll, handedBack, stand, clock]
  | cons c cs ih =>
      intro s run stand clock
      have begun : s.attempt plan run c =
          { run with events := [] }.perform plan c.verb c.data := by
        simp only [attempt, ← stand, ← clock]
      generalize step : s.attempt plan run c = done at begun
      obtain ⟨r, outcome⟩ := done
      have first : s.obey plan run c = (s.replayAll r.events).1.handedBack r := by
        simp only [obey, step]
      cases outcome with
      | error fault =>
          simp only [obeyAll, step, Script.Run.performAll_cons_error begun.symm, first]
      | ok value =>
          -- what the later commands show comes behind what this one showed
          have behind : r = Script.Run.behind r.events { r with events := [] } := by
            simp [Script.Run.behind]
          have later := Script.Run.performAll_behind plan r.events cs { r with events := [] }
          rw [← behind] at later
          simp only [obeyAll, step, Script.Run.performAll_cons_ok begun.symm, later, first]
          rw [ih _ r rfl rfl, replayAll_handedBack]
          simp only [Script.Run.laterThan, Script.Run.behind, replayAll_append]
          rfl

def scriptPlan (s : Session) (feed : List (List String)) (pressAtWait : Option Nat) :
    Script.Plan :=
  { s.panel.plan feed pressAtWait with
    refuse := fun _ p => Recorder.refusal? (s.scriptRow p) }

/-- A script that nothing happens beside does what its commands do in turn, but for the panel. -/
theorem runScript_eq_obeyAll (s : Session) {thread : Script.Thread} {script : List Script.Command}
    (started : s.panel.thread = some thread)
    (accepted : thread.script.read s.panel.otherText = .ok script) (feed : List (List String))
    (pressAtWait : Option Nat) :
    let run := Script.Run.begin s.stand s.clock
    let after := (s.runScript feed pressAtWait).session
    after = { obeyAll (s.scriptPlan feed pressAtWait) (s.handedBack run) run script with
      panel := after.panel } := by
  intro run after
  have fresh := Script.Run.begin_fresh s.stand s.clock
  have carried :=
    obeyAll_eq (s.scriptPlan feed pressAtWait) script (s.handedBack run) run rfl rfl
  simp only [replayAll_handedBack, run, fresh] at carried
  rw [carried]
  simp only [after, runScript, started, accepted, Script.Job.body_ok, Script.Job.conclude_run,
    Script.Job.conclude_stand, Script.Job.conclude_clock, Option.map_some, Option.getD_some,
    handedBack, scriptPlan]

end Session

end ThrustBench
