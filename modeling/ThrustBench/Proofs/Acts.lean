import ThrustBench.Routine.Action

/-!
Acts of the machine that routines act on.  The acts that the statements of routines are made of take
no notice of how often the machine looked whether it should stop, leave alone when it is asked to,
write lines of one shape, and fail for a few reasons only (`Tame`).
-/

namespace ThrustBench.Routine

variable {α β : Type}

@[simp] theorem perform_pure (a : α) (m : Machine) : (pure a : Act α).perform m = (.ok a, m) := rfl

@[simp] theorem perform_throw (fault : Fault) (m : Machine) :
    (throw fault : Act α).perform m = (.error fault, m) := rfl

theorem perform_bind (act : Act α) (next : α → Act β) (m : Machine) :
    (act >>= next).perform m =
      match act.perform m with
      | (.ok a, n) => (next a).perform n
      | (.error fault, n) => (.error fault, n) := by
  simp only [Act.perform, bind, ExceptT.bind, ExceptT.mk, StateT.bind, ExceptT.bindCont]
  cases act m with
  | mk result n => cases result <;> rfl

theorem perform_modifyGet (f : Machine → α × Machine) (m : Machine) :
    (modifyGet f : Act α).perform m = (.ok (f m).1, (f m).2) := rfl

theorem perform_time (m : Machine) :
    Act.time.perform m = (.ok m.clock.look.1, { m with clock := m.clock.look.2 }) := by
  rw [Act.time, perform_modifyGet]

theorem throw_bind (fault : Fault) (next : α → Act β) :
    ((throw fault : Act α) >>= next) = throw fault := rfl

def Machine.Settled (m : Machine) : Prop := ∀ checks, m.stop ≠ .afterChecks checks

/-- Two machines differ at most in how often they looked whether they should stop. -/
structure Alike (m n : Machine) : Prop where
  clock : m.clock = n.clock
  memory : m.memory = n.memory
  log : m.log = n.log
  stop : m.stop = n.stop
  settled : m.Settled

def Matches (r s : Except Fault α) : Prop :=
  r = s ∨ ∃ t u, r = .error (.interrupted t) ∧ s = .error (.interrupted u)

def Agrees (left right : Except Fault α × Machine) : Prop :=
  Alike left.2 right.2 ∧ Matches left.1 right.1

inductive Foreseen : Fault → Prop
  | interrupted (text : String) : Foreseen (.interrupted text)
  | negativeSleep : Foreseen .negativeSleep
  | neverEnds : Foreseen .neverEnds
  | notReal : Foreseen (.notReal .action)

def Marked (line : String) : Prop := line.toList.head? = some '['

def Extends (log longer : List String) : Prop :=
  ∃ lines, longer = log ++ lines ∧ ∀ line ∈ lines, Marked line

/-- An act that does the same on machines that are alike, keeps the request to stop as it is, adds
marked lines to the log, and fails only for reasons that are foreseen. -/
structure Tame (act : Act α) : Prop where
  agrees : ∀ {m n}, Alike m n → Agrees (act.perform m) (act.perform n)
  stop : ∀ m, (act.perform m).2.stop = m.stop
  log : ∀ m, Extends m.log (act.perform m).2.log
  fault : ∀ {m n fault}, act.perform m = (.error fault, n) → Foreseen fault

theorem Alike.refl {m : Machine} (settled : m.Settled) : Alike m m :=
  ⟨rfl, rfl, rfl, rfl, settled⟩

theorem Alike.settledToo {m n : Machine} (alike : Alike m n) : n.Settled := by
  intro checks
  rw [← alike.stop]
  exact alike.settled checks

theorem Alike.checks {m n : Machine} (alike : Alike m n) (checks others : Nat) :
    Alike { m with checks := checks } { n with checks := others } :=
  ⟨alike.clock, alike.memory, alike.log, alike.stop, alike.settled⟩

theorem Alike.logged {m n : Machine} (alike : Alike m n) (line : String) :
    Alike { m with log := m.log ++ [line] } { n with log := n.log ++ [line] } :=
  ⟨alike.clock, alike.memory, by rw [alike.log], alike.stop, alike.settled⟩

theorem Alike.stopped {m n : Machine} (alike : Alike m n) : m.stopped = n.stopped := by
  unfold Machine.stopped
  rw [← alike.stop, alike.log]
  cases asked : m.stop with
  | never => rfl
  | early => rfl
  | atLine line => rfl
  | afterChecks checks => exact absurd asked (alike.settled checks)

theorem settled_of_never {m : Machine} (unstopped : m.stop = .never) : m.Settled := by
  intro checks
  rw [unstopped]
  simp

theorem stopped_of_never {m : Machine} (unstopped : m.stop = .never) : m.stopped = false := by
  rw [Machine.stopped, unstopped]

theorem Extends.refl (log : List String) : Extends log log := ⟨[], by simp, by simp⟩

theorem Extends.trans {log longer longest : List String} (first : Extends log longer)
    (second : Extends longer longest) : Extends log longest := by
  obtain ⟨lines, rfl, marked⟩ := first
  obtain ⟨others, rfl, markedToo⟩ := second
  refine ⟨lines ++ others, List.append_assoc _ _ _, ?_⟩
  intro line member
  exact (List.mem_append.mp member).elim (marked line) (markedToo line)

namespace Tame

theorem pure (a : α) : Tame (Pure.pure a : Act α) where
  agrees alike := ⟨alike, Or.inl rfl⟩
  stop _ := rfl
  log m := .refl m.log
  fault failed := by simp at failed

theorem throw {fault : Fault} (foreseen : Foreseen fault) :
    Tame (MonadExcept.throw fault : Act α) where
  agrees alike := ⟨alike, Or.inl rfl⟩
  stop _ := rfl
  log m := .refl m.log
  fault failed := by
    obtain ⟨rfl, _⟩ : fault = _ ∧ _ = _ := by simpa using failed
    exact foreseen

theorem bind {act : Act α} {next : α → Act β} (first : Tame act) (later : ∀ a, Tame (next a)) :
    Tame (act >>= next) where
  agrees {m n} alike := by
    have both := first.agrees alike
    rw [perform_bind, perform_bind]
    generalize act.perform m = left at both ⊢
    generalize act.perform n = right at both ⊢
    obtain ⟨r, m'⟩ := left
    obtain ⟨s, n'⟩ := right
    obtain ⟨machines, rfl | ⟨t, u, rfl, rfl⟩⟩ := both
    · cases r with
      | ok a => exact (later a).agrees machines
      | error fault => exact ⟨machines, Or.inl rfl⟩
    · exact ⟨machines, Or.inr ⟨t, u, rfl, rfl⟩⟩
  stop m := by
    have kept := first.stop m
    rw [perform_bind]
    generalize act.perform m = outcome at kept ⊢
    obtain ⟨r, m'⟩ := outcome
    cases r with
    | ok a => exact ((later a).stop m').trans kept
    | error fault => exact kept
  log m := by
    have longer := first.log m
    rw [perform_bind]
    generalize act.perform m = outcome at longer ⊢
    obtain ⟨r, m'⟩ := outcome
    cases r with
    | ok a => exact longer.trans ((later a).log m')
    | error fault => exact longer
  fault {m n fault} failed := by
    have foreseen : ∀ other m', act.perform m = (.error other, m') → Foreseen other :=
      fun _ _ earlier => first.fault earlier
    rw [perform_bind] at failed
    generalize act.perform m = outcome at failed foreseen
    obtain ⟨r, m'⟩ := outcome
    cases r with
    | ok a => exact (later a).fault failed
    | error other =>
        obtain ⟨rfl, _⟩ : other = fault ∧ m' = n := by simpa using failed
        exact foreseen other m' rfl

theorem modify {f : Machine → Machine} (alikes : ∀ {m n}, Alike m n → Alike (f m) (f n))
    (keeps : ∀ m, (f m).stop = m.stop) (logs : ∀ m, Extends m.log (f m).log) :
    Tame (modify f : Act PUnit) where
  agrees alike := ⟨alikes alike, Or.inl rfl⟩
  stop m := keeps m
  log m := logs m
  fault failed := by
    have impossible := congrArg Prod.fst failed
    cases impossible

theorem get {next : Machine → Act β} (tame : ∀ m, Tame (next m))
    (same : ∀ {m n}, Alike m n → next m = next n) : Tame (MonadState.get >>= next) where
  agrees {m n} alike := by
    change Agrees ((next m).perform m) ((next n).perform n)
    rw [same alike]
    exact (tame n).agrees alike
  stop m := (tame m).stop m
  log m := (tame m).log m
  fault {m n fault} failed := (tame m).fault (show (next m).perform m = _ from failed)

theorem ofOk (a : α) : Tame (Act.ofExcept (.ok a)) := pure a

theorem logs {line : String} (marked : Marked line) : Tame (Act.log line) := by
  refine modify (fun alike => alike.logged line) (fun _ => rfl) fun m => ?_
  exact ⟨[line], rfl, by simpa using marked⟩

theorem time : Tame Act.time where
  agrees alike := by
    rw [perform_time, perform_time, alike.clock]
    exact ⟨⟨rfl, alike.memory, alike.log, alike.stop, alike.settled⟩, Or.inl rfl⟩
  stop m := by rw [perform_time]
  log m := by rw [perform_time]; exact .refl m.log
  fault failed := by simp [perform_time] at failed

theorem stopAsked : Tame Act.stopAsked := by
  unfold Act.stopAsked
  refine bind (modify ?_ (fun _ => rfl) fun m => .refl m.log) fun _ => ?_
  · exact fun alike => alike.checks _ _
  · exact get (fun m => pure m.stopped) fun alike => by rw [alike.stopped]

theorem unlessStopped : Tame Act.unlessStopped := by
  refine stopAsked.bind fun asked => ?_
  split
  · exact throw (.interrupted _)
  · exact pure _

theorem sleep (seconds : Binary64) : Tame (Act.sleep seconds) := by
  unfold Act.sleep
  dsimp only
  split
  · exact throw .negativeSleep
  · refine modify ?_ (fun _ => rfl) fun m => .refl m.log
    exact fun alike => ⟨by rw [alike.clock], alike.memory, alike.log, alike.stop, alike.settled⟩

theorem sleepUntil (finish : Binary64) (bound : Nat) : Tame (Act.sleepUntil finish bound) := by
  induction bound with
  | zero => exact throw .neverEnds
  | succ bound ih =>
      unfold Act.sleepUntil
      refine time.bind fun now => ?_
      split
      · refine stopAsked.bind fun asked => ?_
        dsimp only
        split
        · exact throw (.interrupted _)
        · exact time.bind fun now => (sleep _).bind fun _ => ih
      · exact pure _

theorem wait (seconds : Binary64) : Tame (Act.wait seconds) := by
  refine (logs (by simp [Marked, String.toList_append])).bind fun _ => ?_
  unfold Act.pause
  refine time.bind fun now => ?_
  refine get (fun m => sleepUntil _ _) fun {m n} alike => ?_
  have bounds : Act.stretches m (now.add seconds) = Act.stretches n (now.add seconds) := by
    unfold Act.stretches
    rw [alike.clock, alike.stop]
  rw [bounds]

theorem setPwm (channel : Value) (value : Binary64) : Tame (Act.setPwm channel value) :=
  logs (by simp [Marked, String.toList_append])

theorem readSensor (name : String) : Tame (Act.readSensor (.text name)) := by
  unfold Act.readSensor
  refine (ofOk _).bind fun points => ?_
  exact time.bind fun now => (logs (by simp [Marked, String.toList_append])).bind fun _ => pure _

theorem store (target : String) (value : Binary64) : Tame (Act.store (.text target) value) := by
  unfold Act.store
  refine (ofOk ()).bind fun _ => ?_
  refine bind (modify ?_ (fun _ => rfl) fun m => .refl m.log) fun _ =>
    logs (by simp [Marked, String.toList_append])
  exact fun alike => ⟨alike.clock, by rw [alike.memory], alike.log, alike.stop, alike.settled⟩

end Tame

end ThrustBench.Routine
