import Mathlib.Logic.Function.Iterate
import ThrustBench.Proofs.Cancellation

/-!
The body of a job step by step, so that a cancellation can come between any two of its steps.  It
fails before there is a run; from then on it stops the script, but for a command that has already
asked whether to go on.
-/

namespace ThrustBench.Script

/-- What the body of a job starts from.  Of the plan only the lines and the refusals count. -/
structure Start where
  job : Job
  script : List Command
  plan : Plan
  stand : Stand
  clock : Clock

structure Place where
  values : List Datum
  command : Command
  rest : List Command

inductive Stage where
  | started
  | reading
  | read
  /-- The next command, if there is one, is about to ask whether the script was cancelled. -/
  | ready (run : Run) (values : List Datum) (rest : List Command)
  | asked (run : Run) (place : Place)
  | waiting (run : Run) (place : Place) (seconds : Binary64)
  /-- A point was handed over, and may be refused. -/
  | adding (run : Run) (place : Place) (refusal : Option Fault)
  | ended (outcome : Outcome)

def answer : Option Fault → Except Fault Datum
  | some fault => .error fault
  | none => .ok .nothing

namespace Start

variable (s : Start)

def underWay : Job := { s.job with bodyRunning := true }

def next (place : Place) : Run × Except Fault Datum → Stage
  | (r, .error fault) => .ended (s.underWay.conclude r (.error (Run.blame place.command fault)))
  | (r, .ok value) => .ready r (place.values ++ [value]) place.rest

def enterWait (r : Run) (place : Place) : Stage :=
  match Run.waitLength place.command.data with
  | .error fault => s.next place (r, .error fault)
  | .ok seconds =>
    if r.abort then s.next place (r, .ok .nothing)
    else if Run.longestWait.lt (.real seconds) then s.next place (r, .error .waitTooLong)
    else
      match r.beginWait s.plan.uncancelled with
      | (r, .error fault) => s.next place (r, .error fault)
      | (r, .ok _) => .waiting r place seconds

def proceed (r : Run) (place : Place) : Stage :=
  match place.command.verb with
  | .wait => s.enterWait r place
  | .addPoint => .adding r.handPoint.1 place (s.plan.refuse r.points r.handPoint.2)
  | verb => s.next place (r.act s.plan.uncancelled verb place.command.data)

def step : Stage → Stage
  | .started => .reading
  | .reading => .read
  | .read => .ready (Run.begin s.stand s.clock) [] s.script
  | .ready r values [] => .ended (s.underWay.conclude r (.ok values))
  | .ready r values (c :: cs) =>
    if r.abort then .ended (s.underWay.conclude r (.error .aborted))
    else .asked r ⟨values, c, cs⟩
  | .asked r place => s.proceed r place
  | .waiting r place seconds =>
    s.next place (if r.abort then r else { r with clock := r.clock.wait seconds }, .ok .nothing)
  | .adding r place refusal => s.next place (r, answer refusal)
  | .ended outcome => .ended outcome

end Start

namespace Stage

def run? : Stage → Option Run
  | started | reading | read => none
  | ready r _ _ | asked r _ | waiting r _ _ | adding r _ _ => some r
  | ended outcome => outcome.run

def events (stage : Stage) : List Event := (stage.run?.map Run.events).getD []

def cancel (j : Job) : Stage → Except Fault Stage
  | started | reading | read => .error j.cancelBeforeRun
  | ready r values rest => .ok (ready { r with abort := true } values rest)
  | asked r place => .ok (asked { r with abort := true } place)
  | waiting r place seconds => .ok (waiting { r with abort := true } place seconds)
  | adding r place refusal => .ok (adding { r with abort := true } place refusal)
  | ended outcome =>
    match outcome.run with
    | none => .error j.cancelBeforeRun
    | some r =>
      .ok (ended { outcome with
        job := { outcome.job with bodyRunning := false }
        run := some { r with abort := true } })

def moment? : Stage → Option Moment
  | waiting r _ _ => some (.wait (r.waits - 1))
  | adding r _ none => some (.point (r.points - 1))
  | _ => none

end Stage

def Event.acts : Event → Bool
  | .sent _ | .waited _ | .point _ => true
  | _ => false

def effects (events : List Event) : List Event := events.filter Event.acts

/-- What a command that has asked still does to the outside when the script is cancelled then: it
adds a point, or sends a throttle. -/
def Run.late (r : Run) (c : Command) : List Event :=
  match c.verb, unpackOne c.data >>= Datum.toWhole, r.stand.port with
  | .addPoint, _, _ => [.point r.handPoint.2]
  | .setThrottle, .ok k, some p =>
    if 0 ≤ k ∧ k ≤ 100 then (p.delivered (Stand.throttleCommand (.whole k))).map .sent else []
  | _, _, _ => []

def Stage.late : Stage → List Event
  | .asked r place => r.late place.command
  | _ => []

/-- A cancellation does not fail, and the script does nothing to the outside after it. -/
def Start.CancelWorks (s : Start) (stage : Stage) : Prop :=
  ∃ cancelled, stage.cancel s.job = .ok cancelled ∧
    ∀ m, effects (s.step^[m] cancelled).events = effects stage.events

namespace Run

theorem act_of_waiting {plan : Plan} {r r' : Run} {args : List Datum} {seconds : Binary64}
    {u : Unit} (length : waitLength args = .ok seconds)
    (inTime : longestWait.lt (.real seconds) = false)
    (begun : r.beginWait plan.uncancelled = (r', .ok u)) :
    r.act plan.uncancelled .wait args =
      ({ r' with clock := r'.clock.wait seconds }, .ok .nothing) := by
  simp [act, wait, length, inTime, waitSeconds, begun]

theorem act_of_adding (plan : Plan) (r : Run) (args : List Datum) :
    r.act plan.uncancelled .addPoint args =
      (r.handPoint.1, answer (plan.refuse r.points r.handPoint.2)) := by
  cases refusal : plan.refuse r.points r.handPoint.2 with
  | some fault => simp [act, addPoint, refusal, answer]
  | none => simp [act, addPoint, refusal, answer]

end Run

namespace Start

variable {s : Start}

def Reaches (s : Start) (values : List Datum) (r : Run) (rest : List Command) : Prop :=
  ∃ before, s.script = before ++ rest ∧
    Run.performAll s.plan.uncancelled (Run.begin s.stand s.clock) before = (r, .ok values)

theorem Reaches.running {values : List Datum} {r : Run} {rest : List Command}
    (reaches : s.Reaches values r rest) : r.abort = false := by
  obtain ⟨before, _, done⟩ := reaches
  have kept := Run.performAll_abort s.plan before (Run.begin s.stand s.clock)
  rw [done] at kept
  exact kept

theorem Reaches.snoc {values : List Datum} {r r' : Run} {c : Command} {rest : List Command}
    {value : Datum} (reaches : s.Reaches values r (c :: rest))
    (done : r.act s.plan.uncancelled c.verb c.data = (r', .ok value)) :
    s.Reaches (values ++ [value]) r' rest := by
  have step : r.perform s.plan.uncancelled c.verb c.data = (r', .ok value) := by
    rw [Run.perform_of_running reaches.running]
    exact done
  obtain ⟨before, split, first⟩ := reaches
  refine ⟨before ++ [c], by simp [split], ?_⟩
  rw [Run.performAll_append_ok first, Run.performAll_cons_ok step]
  rfl

def outcome (s : Start) : Outcome :=
  s.job.body (.ok s.script) s.plan.uncancelled s.stand s.clock

theorem Reaches.outcome_nil {values : List Datum} {r : Run} (reaches : s.Reaches values r []) :
    s.outcome = s.underWay.conclude r (.ok values) := by
  obtain ⟨before, split, done⟩ := reaches
  rw [List.append_nil] at split
  rw [outcome, Job.body_ok, split, done]
  rfl

theorem Reaches.outcome_error {values : List Datum} {r r' : Run} {c : Command}
    {rest : List Command} {fault : Fault} (reaches : s.Reaches values r (c :: rest))
    (failed : r.act s.plan.uncancelled c.verb c.data = (r', .error fault)) :
    s.outcome = s.underWay.conclude r' (.error (Run.blame c fault)) := by
  have step : r.perform s.plan.uncancelled c.verb c.data = (r', .error fault) := by
    rw [Run.perform_of_running reaches.running]
    exact failed
  obtain ⟨before, split, first⟩ := reaches
  rw [outcome, Job.body_ok, split, Run.performAll_append_ok first, Run.performAll_cons_error step]
  rfl

def Follows (s : Start) : Stage → Prop
  | .started | .reading | .read => True
  | .ready r values rest => s.Reaches values r rest
  | .asked r place => s.Reaches place.values r (place.command :: place.rest)
  | .waiting r place seconds =>
    ∃ r₀, s.Reaches place.values r₀ (place.command :: place.rest) ∧
      place.command.verb = .wait ∧ Run.waitLength place.command.data = .ok seconds ∧
      Run.longestWait.lt (.real seconds) = false ∧
      r₀.beginWait s.plan.uncancelled = (r, .ok ())
  | .adding r place refusal =>
    ∃ r₀, s.Reaches place.values r₀ (place.command :: place.rest) ∧
      place.command.verb = .addPoint ∧ r = r₀.handPoint.1 ∧
      refusal = s.plan.refuse r₀.points r₀.handPoint.2
  | .ended outcome => outcome = s.outcome

theorem follows_next {place : Place} {r : Run} {result : Run × Except Fault Datum}
    (reaches : s.Reaches place.values r (place.command :: place.rest))
    (done : r.act s.plan.uncancelled place.command.verb place.command.data = result) :
    s.Follows (s.next place result) := by
  obtain ⟨r', outcome⟩ := result
  cases outcome with
  | ok value => exact reaches.snoc done
  | error fault => exact (reaches.outcome_error done).symm

theorem follows_enterWait {place : Place} {r : Run}
    (reaches : s.Reaches place.values r (place.command :: place.rest))
    (kind : place.command.verb = .wait) : s.Follows (s.enterWait r place) := by
  have running := reaches.running
  cases length : Run.waitLength place.command.data with
  | error fault =>
      simp only [enterWait, length]
      exact follows_next reaches (by simp [kind, Run.act, Run.wait, length])
  | ok seconds =>
      simp only [enterWait, length, running, Bool.false_eq_true, if_false]
      cases inTime : Run.longestWait.lt (.real seconds) with
      | true =>
          simp only [if_true]
          exact follows_next reaches (by simp [kind, Run.act, Run.wait, length, inTime])
      | false =>
          simp only [Bool.false_eq_true, if_false]
          generalize begun : r.beginWait s.plan.uncancelled = result
          obtain ⟨r', outcome⟩ := result
          cases outcome with
          | error fault =>
              exact follows_next reaches
                (by simp [kind, Run.act, Run.wait, length, inTime, Run.waitSeconds, begun])
          | ok _ => exact ⟨r, reaches, kind, length, inTime, begun⟩

theorem follows_step {stage : Stage} (follows : s.Follows stage) : s.Follows (s.step stage) := by
  cases stage with
  | started | reading => trivial
  | read => exact ⟨[], rfl, rfl⟩
  | ready r values rest =>
      cases rest with
      | nil => exact follows.outcome_nil.symm
      | cons c cs =>
          have running := follows.running
          simp only [step, running, Bool.false_eq_true, if_false]
          exact follows
  | asked r place =>
      simp only [step, proceed]
      split
      · rename_i kind
        exact follows_enterWait follows kind
      · rename_i kind
        exact ⟨r, follows, kind, rfl, rfl⟩
      · exact follows_next follows rfl
  | waiting r place seconds =>
      obtain ⟨r₀, reaches, kind, length, inTime, begun⟩ := follows
      -- the lines that arrive leave the flag alone
      have running : r.abort = false := by
        obtain ⟨heard, _, rfl⟩ := Run.beginWait_ok begun
        exact reaches.running
      rw [step, if_neg (by simp [running])]
      refine follows_next reaches ?_
      rw [kind]
      exact Run.act_of_waiting length inTime begun
  | adding r place refusal =>
      obtain ⟨r₀, reaches, kind, rfl, rfl⟩ := follows
      refine follows_next reaches ?_
      rw [kind]
      exact Run.act_of_adding s.plan r₀ place.command.data
  | ended outcome => exact follows

theorem follows_iterate (s : Start) (n : Nat) : s.Follows (s.step^[n] .started) := by
  induction n with
  | zero => trivial
  | succ n ih =>
      rw [Function.iterate_succ_apply']
      exact follows_step ih

def left (s : Start) : Stage → Nat
  | .started => 3 * s.script.length + 4
  | .reading => 3 * s.script.length + 3
  | .read => 3 * s.script.length + 2
  | .ready _ _ rest => 3 * rest.length + 1
  | .asked _ place => 3 * place.rest.length + 3
  | .waiting _ place _ | .adding _ place _ => 3 * place.rest.length + 2
  | .ended _ => 0

theorem left_next (place : Place) (result : Run × Except Fault Datum) :
    s.left (s.next place result) ≤ 3 * place.rest.length + 1 := by
  obtain ⟨r, outcome⟩ := result
  cases outcome with
  | error fault => exact Nat.zero_le _
  | ok value => exact Nat.le_refl _

theorem left_enterWait (r : Run) (place : Place) :
    s.left (s.enterWait r place) ≤ 3 * place.rest.length + 2 := by
  have behind : ∀ result, s.left (s.next place result) ≤ 3 * place.rest.length + 2 :=
    fun result => Nat.le_succ_of_le (left_next place result)
  unfold enterWait
  split
  · exact behind _
  · split
    · exact behind _
    · split
      · exact behind _
      · split
        · exact behind _
        · exact Nat.le_refl _

theorem left_step {stage : Stage} (going : 0 < s.left stage) :
    s.left (s.step stage) < s.left stage := by
  cases stage with
  | started | reading | read => simp [step, left]
  | ready r values rest =>
      cases rest with
      | nil => simp [step, left]
      | cons c cs =>
          simp only [step]
          split <;> simp [left]; omega
  | asked r place =>
      have entered := left_enterWait (s := s) r place
      simp only [step, proceed]
      split
      · simp only [left] at entered ⊢
        omega
      · simp [left]
      · have behind := left_next (s := s) place
          (r.act s.plan.uncancelled place.command.verb place.command.data)
        simp only [left] at behind ⊢
        omega
  | waiting r place seconds =>
      rw [step]
      exact Nat.lt_succ_of_le (left_next place _)
  | adding r place refusal =>
      rw [step]
      exact Nat.lt_succ_of_le (left_next place _)
  | ended outcome => simp [left] at going

theorem iterate_ended (s : Start) (stage : Stage) :
    ∃ m outcome, s.step^[m] stage = .ended outcome := by
  induction bound : s.left stage using Nat.strongRecOn generalizing stage with
  | ind steps ih =>
      by_cases going : 0 < s.left stage
      · obtain ⟨m, outcome, done⟩ := ih _ (bound ▸ left_step going) (s.step stage) rfl
        exact ⟨m + 1, outcome, done⟩
      · cases stage with
        | ended outcome => exact ⟨0, outcome, rfl⟩
        | _ => simp [left] at going

theorem iterate_outcome (s : Start) (n : Nat) :
    ∃ m, s.step^[m] (s.step^[n] .started) = .ended s.outcome := by
  obtain ⟨m, outcome, done⟩ := s.iterate_ended (s.step^[n] .started)
  have follows := s.follows_iterate (m + n)
  rw [Function.iterate_add_apply, done] at follows
  exact ⟨m, by rw [done, follows]⟩

end Start

theorem Run.late_length (r : Run) (c : Command) : (r.late c).length ≤ 1 := by
  unfold late
  split
  · simp
  · split
    · rw [List.length_map, Port.delivered]
      split <;> simp
    · simp
  · simp

theorem effects_append (first second : List Event) :
    effects (first ++ second) = effects first ++ effects second :=
  List.filter_append _ _

namespace Stage

theorem late_length (stage : Stage) : stage.late.length ≤ 1 := by
  cases stage with
  | asked r place => exact r.late_length place.command
  | _ => exact Nat.zero_le 1

def Halted : Stage → Prop
  | started | reading | read | asked _ _ => False
  | ready r _ _ | waiting r _ _ | adding r _ _ => r.abort = true
  | ended _ => True

@[simp] theorem events_ended (j : Job) (r : Run) (result : Except Fault (List Datum)) :
    (ended (j.conclude r result)).events = r.events := by
  simp [events, run?, Job.conclude_run]

end Stage

namespace Start

variable {s : Start}

theorem halted_next {r : Run} (cancelled : r.abort = true) (place : Place)
    (result : Except Fault Datum) :
    (s.next place (r, result)).Halted ∧ (s.next place (r, result)).events = r.events := by
  cases result with
  | error fault => exact ⟨trivial, by simp [next]⟩
  | ok value => exact ⟨cancelled, rfl⟩

theorem halted_step {stage : Stage} (halted : stage.Halted) :
    (s.step stage).Halted ∧ (s.step stage).events = stage.events := by
  cases stage with
  | started | reading | read | asked => exact halted.elim
  | ready r values rest =>
      change r.abort = true at halted
      cases rest with
      | nil => exact ⟨trivial, Stage.events_ended _ _ _⟩
      | cons c cs =>
          rw [step, if_pos halted]
          exact ⟨trivial, Stage.events_ended _ _ _⟩
  | waiting r place seconds =>
      change r.abort = true at halted
      rw [step, if_pos halted]
      exact halted_next halted place _
  | adding r place refusal => exact halted_next halted place _
  | ended outcome => exact ⟨trivial, rfl⟩

theorem halted_iterate (m : Nat) : ∀ {stage : Stage}, stage.Halted →
    (s.step^[m] stage).events = stage.events := by
  induction m with
  | zero => intro stage _; rfl
  | succ m ih =>
      intro stage halted
      obtain ⟨still, same⟩ := halted_step (s := s) halted
      rw [Function.iterate_succ_apply, ih still, same]

end Start

namespace Run

theorem effects_late (r : Run) (c : Command) : effects (r.late c) = r.late c := by
  unfold late
  split
  · rfl
  · split
    · rw [effects, List.filter_eq_self]
      intro e member
      obtain ⟨text, _, rfl⟩ := List.mem_map.mp member
      rfl
    · rfl
  · rfl

theorem setThrottle_late {r : Run} {c : Command} (kind : c.verb = .setThrottle) :
    (r.setThrottle c.data).1.abort = r.abort ∧
      (r.setThrottle c.data).1.events = r.events ++ r.late c := by
  cases value : unpackOne c.data >>= Datum.toWhole with
  | error fault =>
      rw [setThrottle_unread value]
      simp [late, kind, value]
  | ok k =>
      by_cases inside : 0 ≤ k ∧ k ≤ 100
      · cases connected : r.stand.port with
        | none =>
            rw [setThrottle_unconnected value inside connected]
            simp [late, kind, value, connected]
        | some p =>
            rw [setThrottle_inside value inside connected]
            simp [late, kind, value, connected, inside]
      · rw [setThrottle_outside value inside]
        cases connected : r.stand.port <;> simp [late, kind, value, connected, inside]

theorem Deed.idle {plan : Plan} {r r' : Run} {verb : Verb} {args : List Datum}
    {result : Except Fault Datum} (deed : Deed plan r verb args r' result)
    (notThrottle : verb ≠ .setThrottle) (notWait : verb ≠ .wait) (notPoint : verb ≠ .addPoint) :
    r'.abort = r.abort ∧ effects r'.events = effects r.events := by
  cases deed with
  | fails | reads | chooses => exact ⟨rfl, rfl⟩
  | sends | remembers => exact absurd rfl notThrottle
  | interrupted | waits => exact absurd rfl notWait
  | refused | adds => exact absurd rfl notPoint
  | prints lines =>
      refine ⟨rfl, ?_⟩
      simp [effects, List.filter_append, List.filter_map, Function.comp_def, Event.acts]

end Run

namespace Start

variable {s : Start}

theorem halted_enterWait {r : Run} (cancelled : r.abort = true) (place : Place) :
    (s.enterWait r place).Halted ∧ (s.enterWait r place).events = r.events := by
  cases length : Run.waitLength place.command.data with
  | error fault =>
      simp only [enterWait, length]
      exact halted_next cancelled place _
  | ok seconds =>
      simp only [enterWait, length, cancelled, if_true]
      exact halted_next cancelled place _

theorem proceed_late {r : Run} (cancelled : r.abort = true) (place : Place) :
    (s.proceed r place).Halted ∧
      effects (s.proceed r place).events = effects r.events ++ r.late place.command := by
  rw [← Run.effects_late]
  cases kind : place.command.verb with
  | wait =>
      obtain ⟨halted, same⟩ := halted_enterWait (s := s) cancelled place
      simp only [proceed, kind]
      refine ⟨halted, ?_⟩
      simp [same, Run.late, kind, effects]
  | addPoint =>
      simp only [proceed, kind]
      refine ⟨cancelled, ?_⟩
      simp [Stage.events, Stage.run?, Run.late, kind, effects_append]
  | setThrottle =>
      obtain ⟨kept, events⟩ := Run.setThrottle_late (r := r) kind
      obtain ⟨halted, same⟩ := halted_next (s := s) (kept.trans cancelled) place
        (r.setThrottle place.command.data).2
      simp only [proceed, kind]
      refine ⟨halted, ?_⟩
      rw [← effects_append, ← events, ← same]
      rfl
  | _ =>
      have deed := Run.act_deed s.plan.uncancelled r place.command.verb place.command.data
      obtain ⟨kept, same⟩ := deed.idle (by simp [kind]) (by simp [kind]) (by simp [kind])
      obtain ⟨halted, events⟩ := halted_next (s := s) (kept.trans cancelled) place
        (r.act s.plan.uncancelled place.command.verb place.command.data).2
      rw [kind] at same halted events
      simp only [proceed, kind]
      refine ⟨halted, ?_⟩
      simpa [Run.late, kind, effects, events] using same

theorem cancel_late {stage : Stage} {r : Run} (begun : stage.run? = some r) :
    ∃ cancelled, stage.cancel s.job = .ok cancelled ∧ cancelled.events = stage.events ∧
      ∀ m, effects (s.step^[m + 1] cancelled).events = effects stage.events ++ stage.late := by
  have quiet : ∀ {cancelled : Stage}, cancelled.Halted → ∀ m,
      effects (s.step^[m + 1] cancelled).events = effects cancelled.events ++ [] := by
    intro cancelled halted m
    rw [halted_iterate (m + 1) halted, List.append_nil]
  cases stage with
  | started | reading | read => simp [Stage.run?] at begun
  | ready | waiting | adding => exact ⟨_, rfl, rfl, quiet rfl⟩
  | asked r place =>
      refine ⟨_, rfl, rfl, ?_⟩
      intro m
      obtain ⟨halted, late⟩ := proceed_late (s := s) (r := { r with abort := true }) rfl place
      rw [Function.iterate_succ_apply, step, halted_iterate m halted, late]
      rfl
  | ended outcome =>
      simp only [Stage.run?] at begun
      have same : ∀ job : Job, (Stage.ended { outcome with
          job, run := some { r with abort := true } }).events = (Stage.ended outcome).events := by
        intro job
        simp [Stage.events, Stage.run?, begun]
      refine ⟨_, by rw [Stage.cancel, begun], same _, ?_⟩
      intro m
      have halted : (Stage.ended { outcome with
          job := { outcome.job with bodyRunning := false }
          run := some { r with abort := true } }).Halted := trivial
      rw [quiet halted, same]
      rfl

theorem run?_next (place : Place) (result : Run × Except Fault Datum) :
    (s.next place result).run?.isSome = true := by
  obtain ⟨r, outcome⟩ := result
  cases outcome with
  | error fault => simp [next, Stage.run?, Job.conclude_run]
  | ok value => rfl

theorem run?_proceed (r : Run) (place : Place) : (s.proceed r place).run?.isSome = true := by
  unfold proceed
  split
  · unfold enterWait
    split
    · exact run?_next _ _
    · split
      · exact run?_next _ _
      · split
        · exact run?_next _ _
        · split
          · exact run?_next _ _
          · rfl
  · rfl
  · exact run?_next _ _

theorem run?_step {stage : Stage} (begun : stage.run?.isSome = true) :
    (s.step stage).run?.isSome = true := by
  cases stage with
  | started | reading | read => simp [Stage.run?] at begun
  | ready r values rest =>
      cases rest with
      | nil => simp [step, Stage.run?, Job.conclude_run]
      | cons c cs =>
          rw [step]
          split
          · simp [Stage.run?, Job.conclude_run]
          · rfl
  | asked r place => exact run?_proceed r place
  | waiting r place seconds =>
      rw [step]
      exact run?_next place _
  | adding r place refusal => exact run?_next place _
  | ended outcome => exact begun

theorem run?_iterate (s : Start) (n : Nat) : (s.step^[n + 3] .started).run?.isSome = true := by
  induction n with
  | zero => rfl
  | succ n ih =>
      rw [Nat.add_right_comm, Function.iterate_succ_apply']
      exact run?_step ih

theorem ended_of_stop {moment : Moment} {place : Place} {r₀ r : Run}
    (reaches : s.Reaches place.values r₀ (place.command :: place.rest))
    (now : moment.passed r₀ = moment.index)
    (done : r₀.act (s.plan.cancelledAt moment) place.command.verb place.command.data =
      (r, .ok .nothing))
    (cancelled : r.abort = true) :
    s.step (.ready r (place.values ++ [.nothing]) place.rest) =
      .ended (s.job.body (.ok s.script) (s.plan.cancelledAt moment) s.stand s.clock) := by
  have running := reaches.running
  obtain ⟨before, split, first⟩ := reaches
  have last : r₀.perform (s.plan.cancelledAt moment) place.command.verb place.command.data =
      (r, .ok .nothing) := by
    rw [Run.perform_of_running running]
    exact done
  rw [Job.body_ok, split, Run.performAll_of_stop first now last cancelled]
  cases place.rest with
  | nil => rfl
  | cons c cs =>
      rw [step, if_pos cancelled]
      rfl

theorem cancel_at_moment {stage : Stage} {moment : Moment} (follows : s.Follows stage)
    (now : stage.moment? = some moment) :
    ∃ cancelled, stage.cancel s.job = .ok cancelled ∧
      s.step^[2] cancelled =
        .ended (s.job.body (.ok s.script) (s.plan.cancelledAt moment) s.stand s.clock) := by
  cases stage with
  | waiting r place seconds =>
      obtain ⟨r₀, reaches, kind, length, inTime, begun⟩ := follows
      have counted : r.waits = r₀.waits + 1 := by
        obtain ⟨heard, _, rfl⟩ := Run.beginWait_ok begun
        rfl
      simp only [Stage.moment?, counted, Nat.add_sub_cancel, Option.some.injEq] at now
      subst now
      refine ⟨_, rfl, ended_of_stop reaches rfl ?_ rfl⟩
      simp [kind, Run.act, Run.wait, length, inTime, Run.waitSeconds, Run.beginWait_cancelledAt,
        begun]
  | adding r place refusal =>
      obtain ⟨r₀, reaches, kind, rfl, rfl⟩ := follows
      cases refusal : s.plan.refuse r₀.points r₀.handPoint.2 with
      | some fault => simp [refusal, Stage.moment?] at now
      | none =>
          simp only [refusal, Stage.moment?, Run.handPoint_run, Nat.add_sub_cancel,
            Option.some.injEq] at now
          subst now
          refine ⟨_, rfl, ended_of_stop reaches rfl ?_ rfl⟩
          simp [kind, Run.act, Run.addPoint, refusal]
  | _ => simp [Stage.moment?] at now

end Start

/-- A cancellation between any two steps of a job's body works exactly if there is a run and no
command that has asked is about to act.  Before there is a run it fails; later it does not, and at
most one effect comes after it.  The steps are those of the body: without a cancellation they lead
to its outcome, and with one at a wait or a point to the outcome for that moment. -/
theorem cancel_works_iff (s : Start) (n : Nat) :
    let stage := s.step^[n] .started
    (s.CancelWorks stage ↔ 3 ≤ n ∧ stage.late = []) ∧
      (n < 3 → stage.cancel s.job = .error (.lacks .nothing "abortFlag")) ∧
      (3 ≤ n → ∃ cancelled, stage.cancel s.job = .ok cancelled ∧ stage.late.length ≤ 1 ∧
        ∀ m, effects (s.step^[m + 1] cancelled).events = effects stage.events ++ stage.late) ∧
      (∃ m, s.step^[m] stage =
        .ended (s.job.body (.ok s.script) s.plan.uncancelled s.stand s.clock)) ∧
      (∀ moment, stage.moment? = some moment →
        ∃ cancelled m, stage.cancel s.job = .ok cancelled ∧ s.step^[m] cancelled =
          .ended (s.job.body (.ok s.script) (s.plan.cancelledAt moment) s.stand s.clock)) := by
  intro stage
  have early : n < 3 → stage.cancel s.job = .error (.lacks .nothing "abortFlag") := by
    intro few
    simp only [stage]
    -- the first three steps are those up to the making of the run
    rcases n with _ | _ | _ | n
    · rfl
    · rfl
    · rfl
    · omega
  have later : 3 ≤ n → ∃ cancelled, stage.cancel s.job = .ok cancelled ∧
      cancelled.events = stage.events ∧
      ∀ m, effects (s.step^[m + 1] cancelled).events = effects stage.events ++ stage.late := by
    intro many
    have begun := s.run?_iterate (n - 3)
    rw [Nat.sub_add_cancel many] at begun
    obtain ⟨r, begun⟩ := Option.isSome_iff_exists.mp begun
    exact Start.cancel_late begun
  refine ⟨⟨?_, ?_⟩, early, ?_, s.iterate_outcome n, ?_⟩
  · rintro ⟨cancelled, works, silent⟩
    by_cases many : 3 ≤ n
    · obtain ⟨other, same, _, acts⟩ := later many
      rw [works, Except.ok.injEq] at same
      have first := acts 0
      rw [← same, silent 1] at first
      exact ⟨many, by simpa using first⟩
    · rw [early (by omega)] at works
      contradiction
  · rintro ⟨many, none⟩
    obtain ⟨cancelled, works, same, acts⟩ := later many
    refine ⟨cancelled, works, ?_⟩
    intro m
    cases m with
    | zero => rw [Function.iterate_zero_apply, same]
    | succ m => rw [acts m, none, List.append_nil]
  · intro many
    obtain ⟨cancelled, works, _, acts⟩ := later many
    exact ⟨cancelled, works, stage.late_length, acts⟩
  · intro moment now
    obtain ⟨cancelled, works, ends⟩ := Start.cancel_at_moment (s.follows_iterate n) now
    exact ⟨cancelled, 2, works, ends⟩

def onePoint : Start := ⟨{}, [⟨.addPoint, []⟩], {}, {}, {}⟩

theorem cancel_works_iff_onePoint :
    ¬onePoint.CancelWorks (onePoint.step^[0] .started) ∧
      onePoint.CancelWorks (onePoint.step^[3] .started) ∧
      ¬onePoint.CancelWorks (onePoint.step^[4] .started) := by
  refine ⟨?_, ?_, ?_⟩
  · intro works
    have run := ((cancel_works_iff onePoint 0).1.mp works).1
    omega
  · exact (cancel_works_iff onePoint 3).1.mpr ⟨Nat.le_refl 3, rfl⟩
  · intro works
    have silent := ((cancel_works_iff onePoint 4).1.mp works).2
    exact absurd silent (List.cons_ne_nil _ _)

end ThrustBench.Script
