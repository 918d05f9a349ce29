import ThrustBench.Proofs.Stopping

/-!
The thread that carries out a routine, step by step.  A step looks once whether a stop is asked for,
or writes one line, or does neither, so that a stop can come between any two of them.  A thread that
is left alone does what `run` does (`goes_run`), and one that is asked to stop ends after a few
steps (`left_step`).
-/

namespace ThrustBench.Routine

def isStop : Fault → Bool
  | .interrupted _ => true
  | _ => false

inductive Stage where
  | fresh
  | look (jobs : List Job)
  | make (move : Move) (jobs : List Job)
  | keep (target : List Char) (value : Binary64) (jobs : List Job)
  | rest (seconds : Binary64) (jobs : List Job)
  /-- In a wait: it looks at the clock, then whether a stop is asked for, and sleeps a stretch. -/
  | watch (finish : Binary64) (jobs : List Job)
  | check (finish : Binary64) (jobs : List Job)
  | nap (finish : Binary64) (jobs : List Job)
  | fail (fault : Fault)
  | close
  | ended

namespace Stage

def isEnded : Stage → Bool
  | .ended => true
  | _ => false

def isUnderway : Stage → Bool
  | .fresh | .ended => false
  | _ => true

def ofText (text : String) : Stage :=
  match parse text with
  | .error fault => .fail fault
  | .ok program =>
    match build program with
    | .error fault => .fail fault
    | .ok (.list _) => .look (jobsAll true program)
    | .ok v => .fail (.notIterable v.kind)

def afterAct {α : Type} (act : Act α) (next : α → Stage) (m : Machine) : Stage × Machine :=
  match act.perform m with
  | (.ok a, n) => (next a, n)
  | (.error fault, n) => (.fail fault, n)

/-- One step of a thread.  It looks once whether a stop is asked for, or writes one line, or does
neither. -/
def step (text : String) : Stage → Machine → Stage × Machine
  | .fresh, m => (ofText text, m)
  | .look [], m => (.ended, m)
  | .look (j :: js), m =>
    afterAct (lookOut j.top) (fun _ => j.move.elim (.look js) fun move => .make move js) m
  | .make (.setPwm channel value) js, m =>
    afterAct (Act.setPwm (nameValue channel) (spelled value)) (fun _ => .look js) m
  | .make (.wait seconds) js, m =>
    afterAct (Act.log ("[WAIT] " ++ (spelled seconds).text ++ " s"))
      (fun _ => .rest (spelled seconds) js) m
  | .make (.readSensor sensor) js, m =>
    afterAct (Act.readSensor (nameValue sensor)) (fun _ => .look js) m
  | .make (.readAssign target sensor) js, m =>
    afterAct (Act.readSensor (nameValue sensor)) (fun value => .keep target value js) m
  | .make .evaluate _, m => (.fail (.notReal .action), m)
  | .keep target value js, m => afterAct (Act.store (nameValue target) value) (fun _ => .look js) m
  | .rest seconds js, m => afterAct Act.time (fun now => .watch (now.add seconds) js) m
  | .watch finish js, m =>
    afterAct Act.time (fun now => if now.lt finish then .check finish js else .look js) m
  | .check finish js, m =>
    afterAct Act.stopAsked
      (fun asked => if asked then .fail (.interrupted "Execution stopped") else .nap finish js) m
  | .nap finish js, m =>
    afterAct (do Act.sleep (Act.stretch.min (finish.sub (← Act.time))))
      (fun _ => .watch finish js) m
  | .fail fault, m =>
    if isStop fault then afterAct (Act.log stoppedLine) (fun _ => .close) m else (.ended, m)
  | .close, m => (.ended, m)
  | .ended, m => (.ended, m)

def ending? : Stage → Option Ending
  | .look [] => some .done
  | .fail fault => if isStop fault then none else some (.error (report fault))
  | .close => some .done
  | _ => none

end Stage

structure Adds {α : Type} (act : Act α) : Prop where
  grows : ∀ m, m.log <+: (act.perform m).2.log
  keeps : ∀ m, (act.perform m).2.stop = m.stop

theorem Adds.log (line : String) : Adds (Act.log line) :=
  ⟨fun _ => List.prefix_append _ _, fun _ => rfl⟩

theorem Tame.adds {α : Type} {act : Act α} (tame : Tame act) : Adds act where
  grows m := by
    obtain ⟨lines, longer, _⟩ := tame.log m
    exact ⟨lines, longer.symm⟩
  keeps := tame.stop

namespace Stage

/-- What a step of a thread at work can be: an act after which it is still at work, a step that does
nothing to the machine, or the last one, which does nothing either and tells how the thread ends. -/
inductive Turn (m : Machine) : Option Ending → Stage × Machine → Prop
  | act {α : Type} {act : Act α} {next : α → Stage} (adds : Adds act)
      (going : ∀ a, (next a).isUnderway = true) : Turn m none (afterAct act next m)
  | pass {stage : Stage} (going : stage.isUnderway = true) : Turn m none (stage, m)
  | last (ending : Ending) : Turn m (some ending) (.ended, m)

theorem step_turn (text : String) {stage : Stage} (working : stage.isEnded = false) (m : Machine) :
    Turn m stage.ending? (stage.step text m) := by
  cases stage with
  | fresh =>
      refine .pass ?_
      unfold ofText
      split
      · rfl
      · split <;> rfl
  | look jobs =>
      cases jobs with
      | nil => exact .last .done
      | cons j js =>
          simp only [ending?, step]
          refine .act (lookOut_tame j.top).adds fun _ => ?_
          cases j.move <;> rfl
  | make move jobs =>
      cases move <;> simp only [ending?, step]
      case setPwm => exact .act (.log _) fun _ => rfl
      case wait => exact .act (.log _) fun _ => rfl
      case readSensor sensor => exact .act (Tame.readSensor _).adds fun _ => rfl
      case readAssign target sensor => exact .act (Tame.readSensor _).adds fun _ => rfl
      case evaluate => exact .pass rfl
  | keep target value jobs =>
      simp only [ending?, step]
      exact .act (Tame.store _ value).adds fun _ => rfl
  | rest seconds jobs =>
      simp only [ending?, step]
      exact .act Tame.time.adds fun _ => rfl
  | watch finish jobs =>
      simp only [ending?, step]
      refine .act Tame.time.adds fun now => ?_
      split <;> rfl
  | check finish jobs =>
      simp only [ending?, step]
      refine .act Tame.stopAsked.adds fun asked => ?_
      split <;> rfl
  | nap finish jobs =>
      simp only [ending?, step]
      exact .act (Tame.time.bind fun _ => Tame.sleep _).adds fun _ => rfl
  | fail fault =>
      simp only [ending?, step]
      split
      · exact .act (.log _) fun _ => rfl
      · exact .last _
  | close => exact .last .done
  | ended => cases working

variable {m : Machine} {ending : Ending} {result : Stage × Machine}

theorem Turn.adds {told : Option Ending} (turn : Turn m told result) :
    m.log <+: result.2.log ∧ result.2.stop = m.stop := by
  cases turn with
  | @act _ act next adds _ =>
      have grows := adds.grows m
      have keeps := adds.keeps m
      unfold afterAct
      generalize act.perform m = outcome at grows keeps ⊢
      obtain ⟨result, n⟩ := outcome
      cases result <;> exact ⟨grows, keeps⟩
  | pass _ => exact ⟨List.prefix_rfl, rfl⟩
  | last _ => exact ⟨List.prefix_rfl, rfl⟩

theorem Turn.going (turn : Turn m none result) : result.1.isUnderway = true := by
  cases turn with
  | @act _ act next _ going =>
      unfold afterAct
      generalize act.perform m = outcome
      obtain ⟨result, n⟩ := outcome
      cases result with
      | ok a => exact going a
      | error fault => rfl
  | pass going => exact going

theorem isUnderway_iff (stage : Stage) :
    stage.isUnderway = true ↔ stage ≠ .fresh ∧ stage.isEnded = false := by
  cases stage <;> simp [isUnderway, isEnded]

theorem Turn.eq_of_last (turn : Turn m (some ending) result) : result = (.ended, m) := by
  cases turn
  rfl

inductive Goes (text : String) : Stage → Machine → Stage → Machine → Prop
  | refl (stage : Stage) (m : Machine) : Goes text stage m stage m
  | step {stage last : Stage} {m n : Machine} (working : stage.isEnded = false)
      (quiet : stage.ending? = none)
      (rest : Goes text (stage.step text m).1 (stage.step text m).2 last n) :
      Goes text stage m last n

def ofResult : Except Fault Unit → Stage
  | .ok _ => .look []
  | .error fault => .fail fault

/-- From a stage on a thread does what an act does, unless the act is never over. -/
def Carries (text : String) (stage : Stage) (act : Act Unit) : Prop :=
  ∀ m result n, act.perform m = (result, n) → result ≠ .error .neverEnds →
    Goes text stage m (ofResult result) n

section Carrying

variable {text : String} {stage : Stage} {α : Type}

theorem Carries.pure : Carries text (.look []) (Pure.pure ()) := by
  intro m result n done _
  cases done
  exact .refl _ _

theorem Carries.throw (fault : Fault) : Carries text (.fail fault) (MonadExcept.throw fault) := by
  intro m result n done _
  cases done
  exact .refl _ _

theorem Carries.bind {act : Act α} {later : α → Act Unit} (next : α → Stage)
    (working : stage.isEnded = false) (quiet : stage.ending? = none)
    (steps : ∀ m, stage.step text m = afterAct act next m)
    (carries : ∀ a, Carries text (next a) (later a)) : Carries text stage (act >>= later) := by
  intro m result n done ends
  apply Goes.step working quiet
  rw [steps m, afterAct]
  rw [perform_bind] at done
  generalize act.perform m = outcome at done ⊢
  obtain ⟨first, o⟩ := outcome
  cases first with
  | ok a => exact carries a o result n done ends
  | error fault =>
      cases done
      exact .refl _ _

theorem Carries.get {act : Machine → Act Unit} (carries : ∀ m, Carries text stage (act m)) :
    Carries text stage (MonadState.get >>= act) :=
  fun m result n done => carries m m result n done

theorem Goes.trans {stage middle last : Stage} {m n o : Machine}
    (first : Goes text stage m middle n) (second : Goes text middle n last o) :
    Goes text stage m last o := by
  induction first with
  | refl => exact second
  | step working quiet _ ih => exact .step working quiet (ih second)

end Carrying

/-- How many steps a thread may still take once it is asked to stop. -/
def left : Stage → Nat
  | .ended => 0
  | .close => 1
  | .fail _ => 2
  | .look _ | .check _ _ => 3
  | .fresh | .keep _ _ _ | .watch _ _ => 4
  | .rest _ _ | .nap _ _ => 5
  | .make _ _ => 6

theorem left_afterAct {α : Type} {act : Act α} {next : α → Stage} {bound : Nat}
    (later : ∀ a, (next a).left < bound) (failed : 2 < bound) (m : Machine) :
    (afterAct act next m).1.left < bound := by
  unfold afterAct
  generalize act.perform m = outcome
  obtain ⟨result, n⟩ := outcome
  cases result with
  | ok a => exact later a
  | error fault => exact failed

theorem left_step (text : String) {stage : Stage} (working : stage.isEnded = false) {m : Machine}
    (asked : m.stop = .early) : (stage.step text m).1.left < stage.left := by
  have settled : m.Settled := by
    intro checks same
    rw [asked] at same
    cases same
  have stopped : m.stopped = true := by rw [Machine.stopped, asked]
  cases stage with
  | fresh =>
      simp only [step, ofText]
      split
      · simp [left]
      · split <;> simp [left]
  | look jobs =>
      cases jobs with
      | nil => simp [step, left]
      | cons j js =>
          -- the look finds that a stop is asked for
          obtain ⟨words, checks, looked⟩ := perform_lookOut settled j.top
          simp [step, afterAct, looked, stopped, left]
  | make move jobs =>
      cases move <;> simp only [step]
      case evaluate => simp [left]
      all_goals exact left_afterAct (fun _ => by simp [left]) (by simp [left]) m
  | keep target value jobs =>
      simp only [step]
      exact left_afterAct (fun _ => by simp [left]) (by simp [left]) m
  | rest seconds jobs =>
      simp only [step]
      exact left_afterAct (fun _ => by simp [left]) (by simp [left]) m
  | watch finish jobs =>
      simp only [step]
      refine left_afterAct (fun now => ?_) (by simp [left]) m
      split <;> simp [left]
  | check finish jobs =>
      have noticed : ∃ n, Act.stopAsked.perform m = (.ok true, n) := by
        refine ⟨{ m with checks := m.checks + 1 }, ?_⟩
        have still : ({ m with checks := m.checks + 1 } : Machine).stopped = true := by
          rw [Machine.stopped, asked]
        rw [← still]
        rfl
      obtain ⟨n, found⟩ := noticed
      simp [step, afterAct, found, left]
  | nap finish jobs =>
      simp only [step]
      exact left_afterAct (fun _ => by simp [left]) (by simp [left]) m
  | fail fault =>
      simp only [step]
      split
      · exact Nat.one_lt_two
      · simp [left]
  | close => simp [step, left]
  | ended => cases working

end Stage

end ThrustBench.Routine
