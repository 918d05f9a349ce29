import ThrustBench.Proofs.Completion
import ThrustBench.Proofs.Latest
import ThrustBench.Proofs.SessionFrames

/-!
The button that starts and cancels scripts agrees with the flag that tells that a script is under
way, and with the list the scripts are selected from, whatever happens in a session.  While threads
are left to do their work once, at most one of them is unfinished.
-/

namespace ThrustBench

namespace Script

theorem Job.body_ends (j : Job) (script : Except Fault (List Command)) (plan : Plan)
    (stand : Stand) (clock : Clock) :
    let out := j.body script plan stand clock
    (out.raised = none ∧ out.job.scriptRunning = false ∧
        out.job.completions = j.completions + 1) ∨
      (out.raised.isSome = true ∧ out.job.scriptRunning = j.scriptRunning ∧
        out.job.completions = j.completions) := by
  cases script with
  | error fault => exact .inr ⟨rfl, rfl, rfl⟩
  | ok commands =>
      simp only [body]
      generalize Run.performAll plan (Run.begin stand clock) commands = done
      obtain ⟨run, result⟩ := done
      cases abort : run.abort <;> cases result with
      | ok values => exact .inl (by simp [conclude, finish, abort])
      | error fault =>
          by_cases aborted : fault = .aborted
          · exact .inl (by simp [conclude, finish, aborted, abort])
          · exact .inr (by simp [conclude, abort])

namespace Panel

structure InStep (p : Panel) : Prop where
  button : p.buttonText = if p.running then "Cancel" else "Start"
  selector : p.selectorEnabled = !p.running

theorem inStep_start (p : Panel) : p.start.InStep := ⟨rfl, rfl⟩

theorem inStep_complete (p : Panel) : p.complete.InStep := ⟨rfl, rfl⟩

theorem press_of_running {p : Panel} (running : p.running = true) : p.press.1 = p := by
  simp only [press, running, if_true]
  split <;> rfl

theorem press_of_idle {p : Panel} (idle : p.running = false) : p.press.1 = p.start := by
  simp [press, idle]

theorem InStep.press {p : Panel} (inStep : p.InStep) : p.press.1.InStep := by
  cases running : p.running with
  | true => rw [press_of_running running]; exact inStep
  | false => rw [press_of_idle running]; exact p.inStep_start

theorem InStep.afterBody {p : Panel} (inStep : p.InStep) (t : Thread) (out : Outcome)
    (pressAtWait : Option Nat) : (p.afterBody t out pressAtWait).InStep := by
  simp only [Panel.afterBody]
  split
  · exact inStep_complete _
  · split
    · exact p.inStep_start
    · exact ⟨inStep.button, inStep.selector⟩

theorem InStep.running_iff_button {p : Panel} (inStep : p.InStep) :
    p.running = true ↔ p.buttonText = "Cancel" := by
  rw [inStep.button]
  cases p.running <;> simp

theorem InStep.running_iff_selector {p : Panel} (inStep : p.InStep) :
    p.running = true ↔ p.selectorEnabled = false := by
  rw [inStep.selector, Bool.not_eq_false']

theorem afterBody_running {p : Panel} (running : p.running = true) (t : Thread) {out : Outcome}
    (ended : (out.raised = none ∧ out.job.scriptRunning = false) ∨
      (out.raised.isSome = true ∧ out.job.scriptRunning = true)) (pressAtWait : Option Nat) :
    (p.afterBody t out pressAtWait).running = out.job.scriptRunning := by
  rcases ended with ⟨calm, lowered⟩ | ⟨failed, kept⟩
  · simp [Panel.afterBody, calm, complete, lowered]
  · rw [← Option.not_isNone, Bool.not_eq_true'] at failed
    simp [Panel.afterBody, failed, kept, running]

end Panel

/-- The threads that were started and have not come to an end: those another was started after, and
the one that was started last. -/
structure Threads where
  passedOver : Nat := 0
  fresh : Bool := false

namespace Threads

def start (t : Threads) : Threads := ⟨t.passedOver + t.fresh.toNat, true⟩

def finish (t : Threads) : Threads := { t with fresh := false }

def unfinished (t : Threads) : Nat := t.passedOver + t.fresh.toNat

end Threads

end Script

namespace Session

def bodyOf (s : Session) (thread : Script.Thread) (feed : List (List String))
    (pressAtWait : Option Nat) : Script.Outcome :=
  let job : Script.Job := { scriptRunning := s.panel.running }
  job.body (thread.script.read s.panel.otherText)
    { s.panel.plan feed pressAtWait with refuse := fun _ p => Recorder.refusal? (s.scriptRow p) }
    s.stand s.clock

theorem runScript_of_thread {s : Session} {thread : Script.Thread}
    (started : s.panel.thread = some thread) (feed : List (List String))
    (pressAtWait : Option Nat) :
    (s.runScript feed pressAtWait).session.panel =
      s.panel.afterBody thread (s.bodyOf thread feed pressAtWait) pressAtWait := by
  simp only [runScript, started, replayAll_panel]
  rfl

theorem runScript_of_none {s : Session} (none_ : s.panel.thread = none)
    (feed : List (List String)) (pressAtWait : Option Nat) :
    (s.runScript feed pressAtWait).session = s := by
  simp only [runScript, none_]

theorem bodyOf_ends (s : Session) (thread : Script.Thread) (feed : List (List String))
    (pressAtWait : Option Nat) :
    let out := s.bodyOf thread feed pressAtWait
    (out.raised = none ∧ out.job.scriptRunning = false ∧ out.job.completions = 1) ∨
      (out.raised.isSome = true ∧ out.job.scriptRunning = s.panel.running ∧
        out.job.completions = 0) :=
  Script.Job.body_ends { scriptRunning := s.panel.running } _ _ s.stand s.clock

def reachesPanel : Action → Bool
  | .chooseScript _ | .chooseOtherScript _ | .pressScript | .runScript _ _ => true
  | _ => false

theorem act_panel_of_elsewhere (s : Session) {a : Action} (elsewhere : reachesPanel a = false) :
    (s.act a).session.panel = s.panel := by
  cases a with
  | connect => exact s.connect_only.panel
  | serve works bytes => exact (s.serve_only works bytes).panel
  | closeMonitor => exact s.closeMonitor_only.panel
  | hear line => exact (s.hear_only line).panel
  | submit =>
      simp only [act, submit]
      split <;> rfl
  | slide position =>
      simp only [act, slide]
      split
      · rfl
      · split <;> rfl
  | tickStopwatch =>
      simp only [act, tickStopwatch]
      split <;> rfl
  | tickRecording =>
      simp only [act]
      split <;> rfl
  | chooseScript name => cases elsewhere
  | chooseOtherScript text => cases elsewhere
  | pressScript => cases elsewhere
  | runScript feed pressAtWait => cases elsewhere
  | _ => rfl

theorem act_inStep {s : Session} (inStep : s.panel.InStep) (a : Action) :
    (s.act a).session.panel.InStep := by
  by_cases reaches : reachesPanel a = true
  · cases a with
    | chooseScript name => exact ⟨inStep.button, inStep.selector⟩
    | chooseOtherScript text => exact ⟨inStep.button, inStep.selector⟩
    | pressScript => exact inStep.press
    | runScript feed pressAtWait =>
        cases started : s.panel.thread with
        | none =>
            simp only [act, runScript_of_none started]
            exact inStep
        | some thread =>
            simp only [act, runScript_of_thread started]
            exact inStep.afterBody thread _ pressAtWait
    | _ => cases reaches
  · rw [act_panel_of_elsewhere s (Bool.eq_false_iff.mpr reaches)]
    exact inStep

theorem runScript_agrees {s : Session} (inStep : s.panel.InStep) {thread : Script.Thread}
    (started : s.panel.thread = some thread) (running : s.panel.running = true)
    (feed : List (List String)) (pressAtWait : Option Nat) :
    let job := (s.bodyOf thread feed pressAtWait).job
    let panel := (s.runScript feed pressAtWait).session.panel
    panel.running = job.scriptRunning ∧ (panel.buttonText = "Start" ↔ job.completions = 1) := by
  intro job panel
  have kept : panel.InStep := act_inStep inStep (.runScript feed pressAtWait)
  have ended := s.bodyOf_ends thread feed pressAtWait
  have flag : panel.running = job.scriptRunning := by
    rw [show panel = _ from runScript_of_thread started feed pressAtWait]
    rw [running] at ended
    exact Script.Panel.afterBody_running running thread
      (ended.imp (fun e => ⟨e.1, e.2.1⟩) (fun e => ⟨e.1, e.2.1⟩)) pressAtWait
  refine ⟨flag, ?_⟩
  rw [kept.button, flag]
  rcases ended with ⟨_, lowered, told⟩ | ⟨_, untouched, untold⟩
  · simp [job, lowered, told]
  · simp [job, untouched, untold, running]

/-- The threads after an action.  A press of the button during a body starts a thread, too, if the
flag is down at that time. -/
def threadsAfter (s : Session) (t : Script.Threads) : Action → Script.Threads
  | .pressScript => if s.panel.running then t else t.start
  | .runScript feed pressAtWait =>
    match s.panel.thread with
    | none => t
    | some thread =>
      let run := (s.bodyOf thread feed pressAtWait).run
      if !s.panel.running && Script.Panel.reached run pressAtWait then t.finish.start
      else t.finish
  | _ => t

end Session

structure Attended where
  session : Session
  threads : Script.Threads := {}

namespace Attended

def act (w : Attended) (a : Action) : Attended :=
  ⟨(w.session.act a).session, w.session.threadsAfter w.threads a⟩

def after (w : Attended) (history : List Action) : Attended := history.foldl act w

theorem after_snoc (w : Attended) (history : List Action) (a : Action) :
    w.after (history ++ [a]) = (w.after history).act a := by
  simp [after]

theorem after_session (history : List Action) : ∀ w : Attended,
    (w.after history).session = w.session.actAll history := by
  induction history with
  | nil => intro w; rfl
  | cons a history ih => intro w; exact ih (w.act a)

/-- The button is pressed during a body only when that body is carried out for the first time. -/
def ClicksOnce (w : Attended) (history : List Action) : Prop :=
  ∀ before feed wait later, history = before ++ .runScript feed (some wait) :: later →
    (w.after before).threads.fresh = true

theorem ClicksOnce.earlier {w : Attended} {history : List Action} {a : Action}
    (once : w.ClicksOnce (history ++ [a])) : w.ClicksOnce history := by
  rintro before feed wait later rfl
  exact once before feed wait (later ++ [a]) (by simp)

structure Single (w : Attended) : Prop where
  none_passed : w.threads.passedOver = 0
  flag_up : w.threads.fresh = true → w.session.panel.running = true

theorem Single.act {w : Attended} (single : w.Single) {a : Action}
    (first : ∀ feed wait, a = .runScript feed (some wait) → w.threads.fresh = true) :
    (w.act a).Single := by
  obtain ⟨nonePassed, flagUp⟩ := single
  by_cases reaches : Session.reachesPanel a = true
  · cases a with
    | chooseScript name => exact ⟨nonePassed, flagUp⟩
    | chooseOtherScript text => exact ⟨nonePassed, flagUp⟩
    | pressScript =>
        cases running : w.session.panel.running with
        | true =>
            have same : (w.act .pressScript).threads = w.threads := by
              simp [Attended.act, Session.threadsAfter, running]
            refine ⟨by rw [same, nonePassed], fun _ => ?_⟩
            change w.session.panel.press.1.running = true
            rw [Script.Panel.press_of_running running, running]
        | false =>
            have stale : w.threads.fresh = false := by
              by_contra fresh
              rw [flagUp (by simpa using fresh)] at running
              cases running
            refine ⟨?_, fun _ => ?_⟩
            · simp [Attended.act, Session.threadsAfter, running, Script.Threads.start, nonePassed,
                stale]
            · change w.session.panel.press.1.running = true
              rw [Script.Panel.press_of_idle running]
              rfl
    | runScript feed pressAtWait =>
        cases started : w.session.panel.thread with
        | none =>
            have same : w.act (.runScript feed pressAtWait) = w := by
              simp only [Attended.act, Session.threadsAfter, Session.act,
                Session.runScript_of_none started, started]
            rw [same]
            exact ⟨nonePassed, flagUp⟩
        | some thread =>
            -- a press that starts a thread would have to find the flag down
            have finished : (w.act (.runScript feed pressAtWait)).threads = w.threads.finish := by
              simp only [Attended.act, Session.threadsAfter, started]
              cases pressAtWait with
              | none => simp [Script.Panel.reached]
              | some wait => simp [flagUp (first feed wait rfl)]
            refine ⟨by rw [finished]; exact nonePassed, fun fresh => ?_⟩
            rw [finished] at fresh
            cases fresh
    | _ => cases reaches
  · have untouched : Session.reachesPanel a = false := Bool.eq_false_iff.mpr reaches
    have same : (w.act a).threads = w.threads := by
      cases a with
      | pressScript => cases untouched
      | runScript feed pressAtWait => cases untouched
      | _ => rfl
    refine ⟨by rw [same, nonePassed], fun fresh => ?_⟩
    change (w.session.act a).session.panel.running = true
    rw [w.session.act_panel_of_elsewhere untouched]
    exact flagUp (same ▸ fresh)

theorem single_after {w : Attended} (single : w.Single) {history : List Action}
    (once : w.ClicksOnce history) : (w.after history).Single := by
  induction history using List.reverseRecOn with
  | nil => exact single
  | append_singleton history a ih =>
      rw [after_snoc]
      apply (ih once.earlier).act
      rintro feed wait rfl
      exact once history feed wait [] rfl

end Attended

theorem Session.actAll_inStep (history : List Action) : ∀ {s : Session}, s.panel.InStep →
    (s.actAll history).panel.InStep := by
  induction history with
  | nil => intro s inStep; exact inStep
  | cons a history ih => intro s inStep; exact ih (act_inStep inStep a)

/-- Whatever happened, the flag is up exactly if the button reads "Cancel" and exactly if no other
script can be selected; the button reads "Start" otherwise.  A body that is carried out while the
flag is up leaves it as its own job does, and the button reads "Start" afterwards exactly if that
job told that it is complete.  If no body that has been carried out before is carried out again and
clicked into, at most one thread is unfinished, and a press of the button does not start another. -/
theorem script_button_in_step (ports : List String) (clock : Clock) (history : List Action) :
    let w := Attended.after { session := .start ports clock } history
    let s := (Session.start ports clock).actAll history
    (s.panel.running = true ↔ s.panel.buttonText = "Cancel") ∧
      (s.panel.running = true ↔ s.panel.selectorEnabled = false) ∧
      (s.panel.running = false ↔ s.panel.buttonText = "Start") ∧
      (∀ thread feed pressAtWait, s.panel.thread = some thread → s.panel.running = true →
        let job := (s.bodyOf thread feed pressAtWait).job
        let panel := (s.runScript feed pressAtWait).session.panel
        panel.running = job.scriptRunning ∧
          (panel.buttonText = "Start" ↔ job.completions = 1)) ∧
      w.session = s ∧
      (Attended.ClicksOnce { session := .start ports clock } history →
        w.threads.unfinished ≤ 1 ∧
          (w.threads.unfinished = 1 → (w.act .pressScript).threads = w.threads)) := by
  intro w s
  have inStep : s.panel.InStep := Session.actAll_inStep history ⟨rfl, rfl⟩
  refine ⟨inStep.running_iff_button, inStep.running_iff_selector, ?_, ?_,
    Attended.after_session history _, ?_⟩
  · rw [inStep.button]
    cases s.panel.running <;> simp
  · intro thread feed pressAtWait started running
    exact Session.runScript_agrees inStep started running feed pressAtWait
  · intro once
    have single : w.Single := Attended.single_after ⟨rfl, fun fresh => by cases fresh⟩ once
    rw [Script.Threads.unfinished, single.none_passed, Nat.zero_add]
    refine ⟨Bool.toNat_le _, fun one => ?_⟩
    have running := single.flag_up (by simpa using one)
    simp [Attended.act, Session.threadsAfter, running]

def clickedTwice : List Action := [.chooseOtherScript "WAIT 5", .pressScript, .pressScript]

theorem script_button_in_step_clickedTwice :
    let w : Attended := { session := .start ["COM3"] {} }
    let s := w.session.actAll clickedTwice
    let body : Action := .runScript [["lc1(5)"]] (some 0)
    (s.panel.thread = some ⟨.other, false⟩ ∧ s.panel.running = true) ∧
      (s.act body).session.panel.running =
        (s.bodyOf ⟨.other, false⟩ [["lc1(5)"]] (some 0)).job.scriptRunning ∧
      w.ClicksOnce (clickedTwice ++ [body]) ∧
      (w.after (clickedTwice ++ [body])).threads.unfinished ≤ 1 := by
  intro w s body
  have started : s.panel.thread = some ⟨.other, false⟩ ∧ s.panel.running = true := ⟨rfl, rfl⟩
  have once : w.ClicksOnce (clickedTwice ++ [body]) := by
    intro before feed wait later split
    rcases snoc_split_iff.mp split with ⟨rfl, _, _⟩ | ⟨rest, inside, _⟩
    · rfl
    · have member : Action.runScript feed (some wait) ∈ clickedTwice := by simp [inside]
      simp [clickedTwice] at member
  obtain ⟨_, _, _, bodies, _⟩ := script_button_in_step ["COM3"] {} clickedTwice
  obtain ⟨_, _, _, _, _, single⟩ := script_button_in_step ["COM3"] {} (clickedTwice ++ [body])
  exact ⟨started, (bodies _ _ (some 0) started.1 started.2).1, once, (single once).1⟩

end ThrustBench
