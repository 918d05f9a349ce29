import Mathlib.Data.List.Infix
import ThrustBench.Proofs.Endings

/-!
Stopping a routine.  A run that is asked to stop as it writes a line is in step with the run that
is never asked, up to that line.  Whatever is done next looks first whether a stop is asked for; only
a sensor that is read into a variable has a second line to write before.
-/

namespace ThrustBench.Routine

def sensorLine (sensor : List Char) (value : Binary64) : String :=
  "[READ_SENSOR] " ++ String.ofList sensor ++ " = " ++ value.fixedText 2 0

def variableLine (target : List Char) (value : Binary64) : String :=
  "[VAR] " ++ String.ofList target ++ " = " ++ value.text

def Machine.under (m : Machine) (stop : Stop) : Machine := { m with stop := stop }

@[simp] theorem Machine.under_log (m : Machine) (stop : Stop) : (m.under stop).log = m.log := rfl

section Acts

variable {α β : Type} {line : Nat}

/-- An act that writes no lines and does the same whether the machine is never asked to stop or will
be asked at a later line. -/
def InStep (line : Nat) (act : Act α) : Prop :=
  ∀ m : Machine, m.log.length ≤ line → ∃ (result : Except Fault α) (n : Machine), n.log = m.log ∧
    act.perform (m.under .never) = (result, n.under .never) ∧
    act.perform (m.under (.atLine line)) = (result, n.under (.atLine line))

theorem InStep.pure (a : α) : InStep line (Pure.pure a : Act α) :=
  fun m _ => ⟨.ok a, m, rfl, rfl, rfl⟩

theorem InStep.throw (fault : Fault) : InStep line (MonadExcept.throw fault : Act α) :=
  fun m _ => ⟨.error fault, m, rfl, rfl, rfl⟩

theorem InStep.bind {act : Act α} {next : α → Act β} (first : InStep line act)
    (later : ∀ a, InStep line (next a)) : InStep line (act >>= next) := by
  intro m ahead
  obtain ⟨result, n, kept, whole, stopped⟩ := first m ahead
  rw [perform_bind, perform_bind, whole, stopped]
  cases result with
  | error fault => exact ⟨.error fault, n, kept, rfl, rfl⟩
  | ok a =>
      obtain ⟨outcome, o, keptToo, wholeToo, stoppedToo⟩ := later a n (kept ▸ ahead)
      exact ⟨outcome, o, keptToo.trans kept, wholeToo, stoppedToo⟩

theorem InStep.time : InStep line Act.time := by
  intro m _
  refine ⟨.ok m.clock.look.1, { m with clock := m.clock.look.2 }, rfl, ?_, ?_⟩
  · exact perform_time _
  · exact perform_time _

theorem InStep.sleep (seconds : Binary64) : InStep line (Act.sleep seconds) := by
  unfold Act.sleep
  dsimp only
  split
  · exact .throw _
  · exact fun m _ => ⟨.ok (), { m with clock := m.clock.wait seconds }, rfl, rfl, rfl⟩

theorem perform_stopAsked (m : Machine) (line : Nat) :
    Act.stopAsked.perform (m.under (.atLine line)) =
      (.ok (decide (line < m.log.length)),
        ({ m with checks := m.checks + 1 } : Machine).under (.atLine line)) := rfl

theorem InStep.stopAsked : InStep line Act.stopAsked := by
  intro m ahead
  refine ⟨.ok false, { m with checks := m.checks + 1 }, rfl, rfl, ?_⟩
  rw [perform_stopAsked, decide_eq_false (by omega)]

theorem InStep.sleepUntil (finish : Binary64) (bound : Nat) :
    InStep line (Act.sleepUntil finish bound) := by
  induction bound with
  | zero => exact .throw _
  | succ bound ih =>
      unfold Act.sleepUntil
      refine InStep.time.bind fun now => ?_
      split
      · refine InStep.stopAsked.bind fun asked => ?_
        dsimp only
        split
        · exact .throw _
        · exact InStep.time.bind fun now => (InStep.sleep _).bind fun _ => ih
      · exact .pure _

theorem stretches_under (m : Machine) (line : Nat) (finish : Binary64) :
    Act.stretches (m.under (.atLine line)) finish = Act.stretches (m.under .never) finish := by
  cases finish <;> rfl

theorem stretches_pos (m : Machine) (finish : Binary64) :
    ∃ bound, Act.stretches m finish = bound + 1 := by
  refine ⟨Act.stretches m finish - 1, ?_⟩
  have some : 0 < Act.stretches m finish := by
    unfold Act.stretches
    split
    · omega
    · split <;> omega
  omega

theorem InStep.pause (seconds : Binary64) : InStep line (Act.pause seconds) := by
  refine InStep.time.bind fun now => ?_
  intro m ahead
  have same := stretches_under m line (now.add seconds)
  obtain ⟨result, n, kept, whole, stopped⟩ :=
    InStep.sleepUntil (now.add seconds) (Act.stretches (m.under .never) (now.add seconds)) m ahead
  refine ⟨result, n, kept, whole, ?_⟩
  change (Act.sleepUntil _ (Act.stretches (m.under (.atLine line)) _)).perform _ = _
  rw [same]
  exact stopped

/-- An act that writes no lines and, once a stop is asked for, fails only by being interrupted. -/
def Yields (line : Nat) (act : Act α) : Prop :=
  ∀ m : Machine, line < m.log.length → ∃ (result : Except Fault α) (n : Machine), n.log = m.log ∧
    act.perform (m.under (.atLine line)) = (result, n.under (.atLine line)) ∧
    ∀ fault, result = .error fault → ∃ text, fault = .interrupted text

theorem Yields.pure (a : α) : Yields line (Pure.pure a : Act α) :=
  fun m _ => ⟨.ok a, m, rfl, rfl, by simp⟩

theorem Yields.interrupted (text : String) :
    Yields line (MonadExcept.throw (.interrupted text) : Act α) :=
  fun m _ => ⟨.error (.interrupted text), m, rfl, rfl, by simp⟩

theorem Yields.bind {act : Act α} {next : α → Act β} (first : Yields line act)
    (later : ∀ a, Yields line (next a)) : Yields line (act >>= next) := by
  intro m reached
  obtain ⟨result, n, kept, outcome, cause⟩ := first m reached
  rw [perform_bind, outcome]
  cases result with
  | error fault => exact ⟨.error fault, n, kept, rfl, by simpa using cause⟩
  | ok a =>
      obtain ⟨other, o, keptToo, outcomeToo, causeToo⟩ := later a n (kept ▸ reached)
      exact ⟨other, o, keptToo.trans kept, outcomeToo, causeToo⟩

theorem Yields.time : Yields line Act.time := by
  intro m _
  exact ⟨.ok m.clock.look.1, { m with clock := m.clock.look.2 }, rfl, perform_time _, by simp⟩

theorem Yields.asked {next : Bool → Act β} (stops : Yields line (next true)) :
    Yields line (Act.stopAsked >>= next) := by
  intro m reached
  rw [perform_bind, perform_stopAsked, decide_eq_true reached]
  exact stops { m with checks := m.checks + 1 } reached

theorem Yields.pause (seconds : Binary64) : Yields line (Act.pause seconds) := by
  refine Yields.time.bind fun now => ?_
  intro m reached
  obtain ⟨bound, some⟩ := stretches_pos (m.under (.atLine line)) (now.add seconds)
  have slept : Yields line (Act.sleepUntil (now.add seconds) (bound + 1)) := by
    unfold Act.sleepUntil
    refine Yields.time.bind fun now => ?_
    split
    · refine Yields.asked ?_
      simp only [if_true, throw_bind]
      exact .interrupted _
    · exact .pure _
  rw [← some] at slept
  exact slept m reached

end Acts

section Moves

variable {line : Nat}

def Writes (move : Option Move) (lines : List String) : Prop :=
  lines.length ≤ 1 ∨ ∃ target sensor value, move = some (.readAssign target sensor) ∧
    lines = [sensorLine sensor value, variableLine target value]

/-- An act in a run that is never asked to stop and in one that is asked at a line.  They write the
same; if the line is not reached yet, they are still in step, and otherwise the second one has come to
its end or is interrupted. -/
def Follows (line : Nat) (move : Option Move) (act : Act Unit) : Prop :=
  ∀ m : Machine, m.log.length ≤ line →
    ∃ (result : Except Fault Unit) (n : Machine) (lines : List String),
      n.log = m.log ++ lines ∧ Writes move lines ∧
      act.perform (m.under .never) = (result, n.under .never) ∧
      (n.log.length ≤ line →
        act.perform (m.under (.atLine line)) = (result, n.under (.atLine line))) ∧
      (line < n.log.length → ∃ (other : Except Fault Unit) (o : Machine), o.log = n.log ∧
        act.perform (m.under (.atLine line)) = (other, o.under (.atLine line)) ∧
        ∀ fault, other = .error fault → ∃ text, fault = .interrupted text)

def Machine.wrote (m : Machine) (lines : List String) : Machine := { m with log := m.log ++ lines }

def sensed (sensor : List Char) (now : Binary64) : Binary64 :=
  (Binary64.ofInt (((String.ofList sensor).toList.map Char.toNat).foldl Nat.add 0 % 50 : Nat)).add
    (now.mod (.ofInt 10))

theorem perform_readSensor (sensor : List Char) (m : Machine) :
    (Act.readSensor (nameValue sensor)).perform m =
      (.ok (sensed sensor m.clock.look.1), Machine.wrote { m with clock := m.clock.look.2 }
        [sensorLine sensor (sensed sensor m.clock.look.1)]) := by
  have points : Act.codePoints (nameValue sensor) =
      .ok ((String.ofList sensor).toList.map Char.toNat) := rfl
  have shown : (nameValue sensor).shown = String.ofList sensor := rfl
  unfold Act.readSensor
  rw [points, shown, Act.ofExcept, pure_bind, perform_bind, perform_time]
  rfl

theorem perform_store (target : List Char) (value : Binary64) (m : Machine) :
    (Act.store (nameValue target) value).perform m =
      (.ok (), Machine.wrote { m with memory := assignIn (nameValue target) (.real value) m.memory }
        [variableLine target value]) := rfl

theorem Follows.of_blind {move : Option Move} {act : Act Unit} (next : Machine → Machine)
    (lines : Machine → List String) (writes : ∀ m, Writes move (lines m))
    (performs : ∀ m stop, act.perform (m.under stop) = (.ok (), ((next m).wrote (lines m)).under stop))
    (keeps : ∀ m, (next m).log = m.log) : Follows line move act := by
  intro m _
  refine ⟨.ok (), (next m).wrote (lines m), lines m, ?_, writes m, performs m _,
    fun _ => performs m _, fun _ => ⟨.ok (), _, rfl, performs m _, by simp⟩⟩
  rw [Machine.wrote, keeps]

theorem Move.follows (move : Move) : Follows line (some move) move.act := by
  cases move with
  | setPwm channel value =>
      exact .of_blind id _ (fun m => Or.inl (by simp)) (fun m stop => rfl) fun m => rfl
  | readSensor sensor =>
      refine .of_blind (fun m => { m with clock := m.clock.look.2 })
        (fun m => [sensorLine sensor (sensed sensor m.clock.look.1)]) (fun m => Or.inl (by simp)) ?_
        fun m => rfl
      intro m stop
      rw [Move.act, perform_bind, perform_readSensor]
      rfl
  | readAssign target sensor =>
      refine .of_blind
        (fun m => { m with
          clock := m.clock.look.2,
          memory := assignIn (nameValue target) (.real (sensed sensor m.clock.look.1)) m.memory })
        (fun m => [sensorLine sensor (sensed sensor m.clock.look.1),
          variableLine target (sensed sensor m.clock.look.1)])
        (fun m => Or.inr ⟨target, sensor, _, rfl, rfl⟩) ?_ fun m => rfl
      intro m stop
      rw [Move.act, perform_bind, perform_readSensor]
      dsimp only
      rw [perform_store]
      simp [Machine.wrote, Machine.under]
  | wait seconds =>
      intro m ahead
      let started := m.wrote ["[WAIT] " ++ (spelled seconds).text ++ " s"]
      have logged (stop : Stop) : (Move.act (.wait seconds)).perform (m.under stop) =
          (Act.pause (spelled seconds)).perform (started.under stop) := by
        change (Act.wait (spelled seconds)).perform (m.under stop) = _
        rw [Act.wait, perform_bind]
        rfl
      have inStep : InStep (max line started.log.length) (Act.pause (spelled seconds)) := .pause _
      obtain ⟨result, n, kept, whole, stopped⟩ := inStep started (by omega)
      refine ⟨result, n, [_], kept, Or.inl (by simp), (logged _).trans whole, ?_, ?_⟩
      · intro unreached
        rw [kept] at unreached
        rw [Nat.max_eq_left unreached] at stopped
        exact (logged _).trans stopped
      · intro reached
        rw [kept] at reached ⊢
        obtain ⟨other, o, same, outcome, cause⟩ := Yields.pause (spelled seconds) started reached
        exact ⟨other, o, same, (logged _).trans outcome, cause⟩
  | evaluate =>
      intro m ahead
      refine ⟨.error (.notReal .action), m, [], by simp, Or.inl (by simp), rfl, fun _ => rfl, ?_⟩
      intro reached
      omega

theorem make_follows (move : Option Move) : Follows line move (make move) := by
  cases move with
  | none =>
      intro m ahead
      refine ⟨.ok (), m, [], by simp, Or.inl (by simp), rfl, fun _ => rfl, ?_⟩
      intro reached
      omega
  | some move => exact move.follows

theorem lookOut_passes (top : Bool) {m : Machine} (ahead : m.log.length ≤ line) :
    ∃ n : Machine, n.log = m.log ∧ (lookOut top).perform (m.under .never) = (.ok (), n.under .never) ∧
      (lookOut top).perform (m.under (.atLine line)) = (.ok (), n.under (.atLine line)) := by
  have running : decide (line < m.log.length) = false := decide_eq_false (by omega)
  cases top with
  | true =>
      refine ⟨m, rfl, rfl, ?_⟩
      change (if decide (line < m.log.length) = true then throw (.interrupted "Stopped")
        else pure () : Act Unit).perform (m.under (.atLine line)) = _
      rw [running]
      rfl
  | false =>
      refine ⟨{ m with checks := m.checks + 1 }, rfl, rfl, ?_⟩
      change (Act.unlessStopped).perform (m.under (.atLine line)) = _
      rw [Act.unlessStopped, perform_bind, perform_stopAsked, running]
      rfl

theorem Job.follows (j : Job) : Follows line j.move j.act := by
  intro m ahead
  obtain ⟨n, kept, whole, stopped⟩ := lookOut_passes j.top ahead
  have acts {stop : Stop} (passed : (lookOut j.top).perform (m.under stop) = (.ok (), n.under stop)) :
      j.act.perform (m.under stop) = (make j.move).perform (n.under stop) := by
    rw [Job.act, perform_bind, passed]
  rw [acts whole, acts stopped, ← kept]
  exact make_follows j.move n (kept ▸ ahead)

end Moves

section Runs

variable {line : Nat}

theorem runJobs_grows (js : List Job) (m : Machine) :
    ∃ (result : Except Fault Unit) (n : Machine), m.log <+: n.log ∧
      (runJobs js).perform (m.under .never) = (result, n.under .never) := by
  induction js generalizing m with
  | nil => exact ⟨.ok (), m, List.prefix_rfl, rfl⟩
  | cons j js ih =>
      obtain ⟨result, n, lines, wrote, _, whole, _⟩ := j.follows m (Nat.le_refl _)
      have longer : m.log <+: n.log := ⟨lines, wrote.symm⟩
      rw [runJobs, perform_bind, whole]
      cases result with
      | error fault => exact ⟨.error fault, n, longer, rfl⟩
      | ok _ =>
          obtain ⟨last, o, more, later⟩ := ih n
          exact ⟨last, o, longer.trans more, later⟩

theorem runJobs_yields (js : List Job) : Yields line (runJobs js) := by
  intro m reached
  cases js with
  | nil => exact ⟨.ok (), m, rfl, rfl, by simp⟩
  | cons j js =>
      have settled : (m.under (.atLine line)).Settled := by
        intro checks same
        cases same
      obtain ⟨text, checks, noticed⟩ := j.perform_of_stopped settled (decide_eq_true reached)
      refine ⟨.error (.interrupted text), { m with checks := checks }, rfl, ?_, by simp⟩
      rw [runJobs, perform_bind, noticed]
      rfl

theorem runJobs_cons_of_reached {j : Job} (js : List Job) {m n o : Machine}
    {result other : Except Fault Unit} (whole : j.act.perform (m.under .never) = (result, n.under .never))
    (stopped : j.act.perform (m.under (.atLine line)) = (other, o.under (.atLine line)))
    (same : o.log = n.log) (reached : line < n.log.length)
    (cause : ∀ fault, other = .error fault → ∃ text, fault = .interrupted text) :
    ∃ (last final : Except Fault Unit) (p q : Machine), n.log <+: p.log ∧ q.log = n.log ∧
      (runJobs (j :: js)).perform (m.under .never) = (last, p.under .never) ∧
      (runJobs (j :: js)).perform (m.under (.atLine line)) = (final, q.under (.atLine line)) ∧
      ∀ fault, final = .error fault → ∃ text, fault = .interrupted text := by
  have grown : ∃ (last : Except Fault Unit) (p : Machine), n.log <+: p.log ∧
      (runJobs (j :: js)).perform (m.under .never) = (last, p.under .never) := by
    rw [runJobs, perform_bind, whole]
    cases result with
    | error fault => exact ⟨.error fault, n, List.prefix_rfl, rfl⟩
    | ok _ => exact runJobs_grows js n
  have ended : ∃ (final : Except Fault Unit) (q : Machine), q.log = n.log ∧
      (runJobs (j :: js)).perform (m.under (.atLine line)) = (final, q.under (.atLine line)) ∧
      ∀ fault, final = .error fault → ∃ text, fault = .interrupted text := by
    rw [runJobs, perform_bind, stopped]
    cases other with
    | error fault => exact ⟨.error fault, o, same, rfl, cause⟩
    | ok _ =>
        obtain ⟨final, q, kept, noticed, causeToo⟩ := runJobs_yields js o (same ▸ reached)
        exact ⟨final, q, kept.trans same, noticed, causeToo⟩
  obtain ⟨last, p, longer, wholeRun⟩ := grown
  obtain ⟨final, q, kept, stoppedRun, causeToo⟩ := ended
  exact ⟨last, final, p, q, longer, kept, wholeRun, stoppedRun, causeToo⟩

def Reaches (line : Nat) (js : List Job) (log : List String) : Prop :=
  log.length = line + 1 ∨ ∃ before target sensor value, before.length = line ∧
    some (.readAssign target sensor) ∈ js.map Job.move ∧
    log = before ++ [sensorLine sensor value, variableLine target value]

theorem reaches_of_writes {j : Job} {js : List Job} {before lines : List String}
    (ahead : before.length ≤ line) (reached : line < (before ++ lines).length)
    (writes : Writes j.move lines) : Reaches line (j :: js) (before ++ lines) := by
  rw [List.length_append] at reached
  rcases writes with one | ⟨target, sensor, value, move, rfl⟩
  · exact Or.inl (by rw [List.length_append]; omega)
  · by_cases last : before.length = line
    · exact Or.inr ⟨before, target, sensor, value, last, by simp [move], rfl⟩
    · refine Or.inl ?_
      simp only [List.length_append, List.length_cons, List.length_nil] at reached ⊢
      omega

theorem Reaches.cons {js : List Job} {log : List String} (reaches : Reaches line js log) (j : Job) :
    Reaches line (j :: js) log := by
  rcases reaches with one | ⟨before, target, sensor, value, length, member, wrote⟩
  · exact Or.inl one
  · exact Or.inr ⟨before, target, sensor, value, length, List.mem_cons_of_mem _ member, wrote⟩

/-- A run that is asked to stop at a line does all that the whole run does, if that does not reach the
line; otherwise it is a beginning of the whole run that ends at the line or just behind it. -/
theorem runJobs_stopped (js : List Job) (m : Machine) (ahead : m.log.length ≤ line) :
    ∃ (result other : Except Fault Unit) (n o : Machine),
      (runJobs js).perform (m.under .never) = (result, n.under .never) ∧
      (runJobs js).perform (m.under (.atLine line)) = (other, o.under (.atLine line)) ∧
      (n.log.length ≤ line ∧ other = result ∧ o = n ∨
        line < n.log.length ∧ o.log <+: n.log ∧ Reaches line js o.log ∧
          ∀ fault, other = .error fault → ∃ text, fault = .interrupted text) := by
  induction js generalizing m with
  | nil => exact ⟨.ok (), .ok (), m, m, rfl, rfl, Or.inl ⟨ahead, rfl, rfl⟩⟩
  | cons j js ih =>
      obtain ⟨result, n, lines, wrote, writes, whole, unreached, reached⟩ := j.follows m ahead
      by_cases still : n.log.length ≤ line
      · rw [runJobs, perform_bind, perform_bind, whole, unreached still]
        cases result with
        | error fault => exact ⟨_, _, n, n, rfl, rfl, Or.inl ⟨still, rfl, rfl⟩⟩
        | ok _ =>
            obtain ⟨last, other, o, p, wholeLater, stoppedLater, outcome⟩ := ih n still
            refine ⟨last, other, o, p, wholeLater, stoppedLater, ?_⟩
            rcases outcome with same | ⟨passed, beginning, reaches, cause⟩
            · exact Or.inl same
            · exact Or.inr ⟨passed, beginning, reaches.cons j, cause⟩
      · have passed : line < n.log.length := by omega
        obtain ⟨other, o, same, stopped, cause⟩ := reached passed
        obtain ⟨last, final, p, q, longer, kept, wholeRun, stoppedRun, causeToo⟩ :=
          runJobs_cons_of_reached js whole stopped same passed cause
        refine ⟨last, final, p, q, wholeRun, stoppedRun, Or.inr ⟨?_, ?_, ?_, causeToo⟩⟩
        · have := longer.length_le
          omega
        · rwa [kept]
        · rw [kept, wrote]
          exact reaches_of_writes ahead (wrote ▸ passed) writes

end Runs

section Texts

inductive Occurs (s : Stmt) : List Stmt → Prop
  | here {program : List Stmt} : s ∈ program → Occurs s program
  | inside {place : List Stmt → Stmt} {body program : List Stmt} :
      Holds place → place body ∈ program → Occurs s body → Occurs s program

theorem Occurs.mono {s : Stmt} {program other : List Stmt} (occurs : Occurs s program)
    (more : ∀ t ∈ program, t ∈ other) : Occurs s other := by
  cases occurs with
  | here member => exact .here (more _ member)
  | inside holds member within => exact .inside holds (more _ member) within

mutual

theorem occurs_of_job {target sensor : List Char} (s : Stmt) {top : Bool}
    (member : some (.readAssign target sensor) ∈ (s.jobs top).map Job.move) :
    Occurs (.readAssign target sensor) [s] := by
  match s with
  | .readAssign other name =>
      obtain ⟨rfl, rfl⟩ : target = other ∧ sensor = name := by simpa [Stmt.jobs] using member
      exact .here (by simp)
  | .loop count body =>
      have inside : some (.readAssign target sensor) ∈ (jobsAll false body).map Job.move := by
        simp only [Stmt.jobs, List.map_cons, List.map_flatten, List.map_replicate, List.mem_cons,
          reduceCtorEq, List.mem_flatten, List.mem_replicate, false_or] at member
        obtain ⟨_, ⟨_, rfl⟩, member⟩ := member
        exact member
      exact .inside (.loop count) (by simp) (occurs_of_jobsAll body inside)
  | .setPwm _ _ | .wait _ | .readSensor _ | .assign _ _ | .branch _ _ | .branchElse _ _ _
  | .block _ => simp [Stmt.jobs] at member

theorem occurs_of_jobsAll {target sensor : List Char} (program : List Stmt) {top : Bool}
    (member : some (.readAssign target sensor) ∈ (jobsAll top program).map Job.move) :
    Occurs (.readAssign target sensor) program := by
  match program with
  | [] => simp [jobsAll] at member
  | s :: rest =>
      rw [jobsAll, List.map_append, List.mem_append] at member
      rcases member with first | later
      · exact (occurs_of_job s first).mono (by simp)
      · exact (occurs_of_jobsAll rest later).mono fun t more => List.mem_cons_of_mem _ more

end

theorem runText_cases (text : String) :
    (∃ fault, runText text = throw fault) ∨
      ∃ program, parse text = .ok program ∧ runText text = runJobs (jobsAll true program) := by
  unfold runText
  cases read : parse text with
  | error fault => exact Or.inl ⟨fault, rfl⟩
  | ok program =>
      cases built : build program with
      | error fault =>
          refine Or.inl ⟨fault, ?_⟩
          simp only [Act.ofExcept, pure_bind, built, throw_bind]
      | ok v =>
          simp only [Act.ofExcept, pure_bind, built]
          by_cases several : program.length = 1
          · obtain ⟨s, rfl⟩ := List.length_eq_one_iff.mp several
            exact Or.inl ⟨_, runBuilt_of_single built⟩
          · exact Or.inr ⟨program, rfl, runBuilt_of_several built several⟩

theorem conclude_of_cause {result : Except Fault Unit}
    (cause : ∀ fault, result = .error fault → ∃ text, fault = .interrupted text) (m : Machine) :
    (conclude (result, m)).1 = .done ∧ ∃ ending, (ending = [] ∨ ending = [stoppedLine]) ∧
      (conclude (result, m)).2.log = m.log ++ ending := by
  cases result with
  | ok _ => exact ⟨rfl, [], Or.inl rfl, by simp [conclude]⟩
  | error fault =>
      obtain ⟨text, rfl⟩ := cause fault rfl
      exact ⟨rfl, [stoppedLine], Or.inr rfl, rfl⟩

theorem conclude_log (result : Except Fault Unit) (m : Machine) :
    (conclude (result, m)).2.log = m.log ∨
      (conclude (result, m)).1 = .done ∧ (conclude (result, m)).2.log = m.log ++ [stoppedLine] := by
  by_cases stopped : ∃ text, result = .error (.interrupted text)
  · obtain ⟨text, rfl⟩ := stopped
    exact Or.inr ⟨rfl, rfl⟩
  · cases result with
    | ok _ => exact Or.inl rfl
    | error fault =>
        rw [conclude_error fun text same => stopped ⟨text, by rw [same]⟩]
        exact Or.inl rfl

theorem conclude_under (result : Except Fault Unit) (m : Machine) (stop other : Stop) :
    (conclude (result, m.under stop)).1 = (conclude (result, m.under other)).1 ∧
      (conclude (result, m.under stop)).2.log = (conclude (result, m.under other)).2.log := by
  by_cases stopped : ∃ text, result = .error (.interrupted text)
  · obtain ⟨text, rfl⟩ := stopped
    exact ⟨rfl, rfl⟩
  · cases result with
    | ok _ => exact ⟨rfl, rfl⟩
    | error fault =>
        have plain : ∀ text, fault ≠ .interrupted text := fun text same => stopped ⟨text, by rw [same]⟩
        rw [conclude_error plain, conclude_error plain]
        exact ⟨rfl, rfl⟩

/-- A line that tells of something that is done to the stand. -/
def Tells (line : String) : Prop :=
  "[SET_PWM]".toList <+: line.toList ∨ "[WAIT]".toList <+: line.toList ∨
    "[READ_SENSOR]".toList <+: line.toList

theorem not_tells_variableLine (target : List Char) (value : Binary64) :
    ¬ Tells (variableLine target value) := by
  simp [Tells, variableLine, String.toList_append]

theorem not_tells_stoppedLine : ¬ Tells stoppedLine := by
  simp [Tells, stoppedLine]

/-- The beginning of a log that ends with a line, or with the line of the variable that a sensor is
read into there. -/
def EndsAt (line : Nat) (text : String) (whole told : List String) : Prop :=
  told <+: whole ∧ (told.length = line + 1 ∨ ∃ program target sensor value,
    parse text = .ok program ∧ Occurs (.readAssign target sensor) program ∧
      told = whole.take line ++ [sensorLine sensor value, variableLine target value])

theorem EndsAt.mono {line : Nat} {text : String} {log whole told : List String}
    (ends : EndsAt line text log told) (longer : log <+: whole) (reached : line ≤ log.length) :
    EndsAt line text whole told := by
  refine ⟨ends.1.trans longer, ?_⟩
  obtain ⟨rest, rfl⟩ := longer
  rw [List.take_append_of_le_length reached]
  exact ends.2

theorem EndsAt.quiet {line : Nat} {text : String} {whole told : List String}
    (ends : EndsAt line text whole told) (reached : line < whole.length) :
    line < told.length ∧ ∀ later ∈ told.drop (line + 1), ¬ Tells later := by
  rcases ends.2 with one | ⟨_, target, sensor, value, _, _, rfl⟩
  · rw [List.drop_of_length_le (by omega)]
    exact ⟨by omega, by simp⟩
  · have length : (whole.take line).length = line := by
      rw [List.length_take]
      omega
    have behind : (whole.take line ++ [sensorLine sensor value, variableLine target value]).drop
        (line + 1) = [variableLine target value] := by
      simp [List.drop_append, length]
    rw [behind]
    refine ⟨by simp [length], ?_⟩
    intro later member
    rw [List.mem_singleton.mp member]
    exact not_tells_variableLine target value

theorem run_early (text : String) (clock : Clock) :
    (run text { clock := clock, stop := .early }).2.log = [] ∨
      (run text { clock := clock, stop := .early }).2.log = [stoppedLine] := by
  let m : Machine := { clock := clock, stop := .early }
  have ended : ∃ (result : Except Fault Unit) (n : Machine), n.log = [] ∧
      (runText text).perform m = (result, n) := by
    rcases runText_cases text with ⟨fault, failed⟩ | ⟨program, _, jobs⟩
    · exact ⟨.error fault, m, rfl, by rw [failed, perform_throw]⟩
    · rw [jobs]
      cases jobsAll true program with
      | nil => exact ⟨.ok (), m, rfl, rfl⟩
      | cons j js =>
          have settled : m.Settled := by
            intro checks same
            cases same
          obtain ⟨text, checks, noticed⟩ := j.perform_of_stopped settled rfl
          refine ⟨.error (.interrupted text), { m with checks := checks }, rfl, ?_⟩
          rw [runJobs, perform_bind, noticed]
  obtain ⟨result, n, none, outcome⟩ := ended
  change (conclude ((runText text).perform m)).2.log = [] ∨
    (conclude ((runText text).perform m)).2.log = [stoppedLine]
  rw [outcome]
  rcases conclude_log result n with same | ⟨_, more⟩
  · exact Or.inl (same.trans none)
  · exact Or.inr (by rw [more, none, List.nil_append])

theorem runText_stopped (text : String) {line : Nat} {m : Machine} (ahead : m.log.length ≤ line) :
    ∃ (result other : Except Fault Unit) (n o : Machine),
      (runText text).perform (m.under .never) = (result, n.under .never) ∧
      (runText text).perform (m.under (.atLine line)) = (other, o.under (.atLine line)) ∧
      (n.log.length ≤ line ∧ other = result ∧ o = n ∨
        line < n.log.length ∧ EndsAt line text n.log o.log ∧
          ∀ fault, other = .error fault → ∃ text, fault = .interrupted text) := by
  rcases runText_cases text with ⟨fault, failed⟩ | ⟨program, read, jobs⟩
  · rw [failed]
    exact ⟨.error fault, .error fault, m, m, rfl, rfl, Or.inl ⟨ahead, rfl, rfl⟩⟩
  · rw [jobs]
    obtain ⟨result, other, n, o, whole, stopped, outcome⟩ :=
      runJobs_stopped (jobsAll true program) m ahead
    refine ⟨result, other, n, o, whole, stopped, ?_⟩
    rcases outcome with same | ⟨passed, beginning, reaches, cause⟩
    · exact Or.inl same
    · refine Or.inr ⟨passed, ⟨beginning, ?_⟩, cause⟩
      rcases reaches with one | ⟨before, target, sensor, value, length, member, wrote⟩
      · exact Or.inl one
      · refine Or.inr ⟨program, target, sensor, value, read, occurs_of_jobsAll program member, ?_⟩
        obtain ⟨rest, split⟩ := beginning
        rw [← split, wrote, ← length, List.append_assoc, List.take_left]

/-- Stopping a run.  If it is asked before it begins, it writes nothing but that it was stopped.  If
it is asked while it writes a line, its log is that of the run that is never asked, up to this line or,
if a sensor is read into a variable there, up to the line of the variable, and then nothing or that it
was stopped: no output is set, nothing is waited for and no sensor is read any more. -/
theorem stopped_log_cut_short (text : String) (clock : Clock) (line : Nat) :
    let whole := run text { clock := clock }
    let early := run text { clock := clock, stop := .early }
    let stopped := run text { clock := clock, stop := .atLine line }
    (early.2.log = [] ∨ early.2.log = [stoppedLine]) ∧
    (whole.2.log.length ≤ line → stopped.1 = whole.1 ∧ stopped.2.log = whole.2.log) ∧
    (line < whole.2.log.length → stopped.1 = .done ∧
      (∃ told ending, stopped.2.log = told ++ ending ∧ EndsAt line text whole.2.log told ∧
        (ending = [] ∨ ending = [stoppedLine])) ∧
      ∀ later ∈ stopped.2.log.drop (line + 1), ¬ Tells later) := by
  intro whole early stopped
  obtain ⟨result, other, n, o, wholeRun, stoppedRun, outcome⟩ :=
    runText_stopped text (m := { clock := clock }) (Nat.zero_le line)
  have wholeEnd : whole = conclude (result, n.under .never) := congrArg conclude wholeRun
  have stoppedEnd : stopped = conclude (other, o.under (.atLine line)) := congrArg conclude stoppedRun
  have reported := conclude_log result (n.under .never)
  rw [← wholeEnd, Machine.under_log] at reported
  refine ⟨run_early text clock, ?_⟩
  rcases outcome with ⟨short, rfl, rfl⟩ | ⟨passed, ends, cause⟩
  · have same := conclude_under other o (.atLine line) .never
    rw [← wholeEnd, ← stoppedEnd] at same
    refine ⟨fun _ => same, fun reached => ?_⟩
    -- a log that is longer than what was done ends with the line of a stop, and so does the other
    rcases reported with plain | ⟨done, more⟩
    · rw [plain] at reached
      omega
    · have length := congrArg List.length more
      rw [List.length_append, List.length_singleton] at length
      refine ⟨same.1.trans done, ⟨whole.2.log, [], by simp [same.2], ⟨List.prefix_rfl, ?_⟩, ?_⟩, ?_⟩
      · exact Or.inl (by omega)
      · exact Or.inl rfl
      · rw [same.2, List.drop_of_length_le (by omega)]
        simp
  · have longer : n.log <+: whole.2.log := by
      rcases reported with plain | ⟨_, more⟩
      · rw [plain]
      · exact ⟨_, more.symm⟩
    have length := longer.length_le
    obtain ⟨done, ending, closing, log⟩ := conclude_of_cause cause (o.under (.atLine line))
    rw [← stoppedEnd] at done log
    refine ⟨by omega, fun reached => ?_⟩
    have endsToo := ends.mono longer (by omega)
    obtain ⟨far, quiet⟩ := endsToo.quiet reached
    refine ⟨done, ⟨o.log, ending, log, endsToo, closing⟩, ?_⟩
    rw [log, Machine.under_log, List.drop_append_of_le_length far]
    intro later member
    rcases List.mem_append.mp member with last | final
    · exact quiet later last
    · rcases closing with rfl | rfl
      · simp at final
      · rw [List.mem_singleton.mp final]
        exact not_tells_stoppedLine

theorem stopped_log_cut_short_reading :
    let text := "T = READ_SENSOR b SET_PWM a 1"
    let whole := run text {}
    let stopped := run text { stop := .atLine 0 }
    0 < whole.2.log.length ∧ stopped.2.log.length = 3 ∧ stopped.1 = .done ∧
      (∃ told ending, stopped.2.log = told ++ ending ∧ EndsAt 0 text whole.2.log told ∧
        (ending = [] ∨ ending = [stoppedLine])) ∧
      ∀ later ∈ stopped.2.log.drop 1, ¬ Tells later := by
  intro text whole stopped
  have reached : 0 < whole.2.log.length := by decide +kernel
  exact ⟨reached, by decide +kernel, (stopped_log_cut_short text {} 0).2.2 reached⟩

end Texts

end ThrustBench.Routine
