import ThrustBench.Proofs.Acts
import ThrustBench.Routine.Runner

/-!
Routines as rows of jobs.  An expression never comes to a value, and how often a loop is gone
through stands in the text, so that a routine that was built does the same things in the same order
whatever the machine is like: a row of jobs, each of which first looks whether a stop is asked for.
`run_eq_conclude` says so of the text of a routine.
-/

namespace ThrustBench.Routine

theorem ok_of_bind {α β : Type} {r : Except Fault α} {next : α → Except Fault β} {b : β}
    (built : r >>= next = .ok b) : ∃ a, r = .ok a ∧ next a = .ok b := by
  cases r with
  | error fault => simp [bind, Except.bind] at built
  | ok a => exact ⟨a, rfl, built⟩

/-- Looks whether a stop is asked for: between the statements of a routine, or inside its blocks. -/
def lookOut : Bool → Act Unit
  | true => do if (← get).stopped then throw (.interrupted "Stopped")
  | false => Act.unlessStopped

inductive Move where
  | setPwm (channel value : List Char)
  | wait (seconds : List Char)
  | readSensor (sensor : List Char)
  | readAssign (target sensor : List Char)
  | evaluate

def Move.act : Move → Act Unit
  | .setPwm channel value => Act.setPwm (nameValue channel) (spelled value)
  | .wait seconds => Act.wait (spelled seconds)
  | .readSensor sensor => do let _ ← Act.readSensor (nameValue sensor)
  | .readAssign target sensor => do
    Act.store (nameValue target) (← Act.readSensor (nameValue sensor))
  | .evaluate => throw (.notReal .action)

/-- A look whether a stop is asked for, at the top of the routine or inside it, and what is done
then, if anything. -/
structure Job where
  top : Bool
  move : Option Move

def make : Option Move → Act Unit
  | none => return
  | some move => move.act

def Job.act (j : Job) : Act Unit := do
  lookOut j.top
  make j.move

def runJobs : List Job → Act Unit
  | [] => return
  | j :: js => do
    j.act
    runJobs js

/-- How often a loop is gone through: its count cut off to a whole number, and not at all if that is
negative. -/
def times (count : List Char) : Nat := (spelled count).truncate.toNat

mutual

def Stmt.jobs (top : Bool) : Stmt → List Job
  | .setPwm channel value => [⟨top, none⟩, ⟨false, some (.setPwm channel value)⟩]
  | .wait seconds => [⟨top, none⟩, ⟨false, some (.wait seconds)⟩]
  | .readSensor sensor => [⟨top, none⟩, ⟨false, some (.readSensor sensor)⟩]
  | .readAssign target sensor => [⟨top, none⟩, ⟨false, some (.readAssign target sensor)⟩]
  | .assign _ _ => [⟨top, none⟩, ⟨false, some .evaluate⟩]
  | .branch _ _ => [⟨top, some .evaluate⟩]
  | .branchElse _ _ _ => [⟨top, some .evaluate⟩]
  | .loop count body => ⟨top, none⟩ :: (List.replicate (times count) (jobsAll false body)).flatten
  | .block _ => [⟨top, none⟩]

def jobsAll (top : Bool) : List Stmt → List Job
  | [] => []
  | s :: ss => s.jobs top ++ jobsAll top ss

end

theorem runJobs_append (js ks : List Job) :
    runJobs (js ++ ks) = (do runJobs js; runJobs ks) := by
  induction js with
  | nil => simp [runJobs]
  | cons j js ih => simp [runJobs, ih]

theorem jobsAll_append (top : Bool) (before after : List Stmt) :
    jobsAll top (before ++ after) = jobsAll top before ++ jobsAll top after := by
  induction before with
  | nil => simp [jobsAll]
  | cons s before ih => simp [jobsAll, ih]

theorem iterate_runJobs (js : List Job) (count : Nat) :
    iterate (runJobs js) count = runJobs (List.replicate count js).flatten := by
  induction count with
  | zero => rfl
  | succ count ih => simp [iterate, List.replicate_succ, runJobs_append, ih]

theorem lookOut_tame (top : Bool) : Tame (lookOut top) := by
  cases top with
  | true =>
      refine Tame.get (fun m => ?_) fun alike => by rw [alike.stopped]
      split
      · exact Tame.throw (.interrupted _)
      · exact Tame.pure _
  | false => exact Tame.unlessStopped

theorem Move.tame (move : Move) : Tame move.act := by
  cases move with
  | setPwm channel value => exact Tame.setPwm _ _
  | wait seconds => exact Tame.wait _
  | readSensor sensor => exact (Tame.readSensor _).bind fun _ => Tame.pure _
  | readAssign target sensor => exact (Tame.readSensor _).bind fun _ => Tame.store _ _
  | evaluate => exact Tame.throw .notReal

theorem make_tame (move : Option Move) : Tame (make move) := by
  cases move with
  | none => exact Tame.pure _
  | some move => exact move.tame

theorem Job.tame (j : Job) : Tame j.act := (lookOut_tame j.top).bind fun _ => make_tame j.move

theorem runJobs_tame (js : List Job) : Tame (runJobs js) := by
  induction js with
  | nil => exact Tame.pure _
  | cons j js ih => exact j.tame.bind fun _ => ih

theorem perform_lookOut {m : Machine} (settled : m.Settled) (top : Bool) :
    ∃ text checks, (lookOut top).perform m =
      (if m.stopped then .error (.interrupted text) else .ok (), { m with checks := checks }) := by
  cases top with
  | true =>
      refine ⟨"Stopped", m.checks, ?_⟩
      change (if m.stopped = true then throw (.interrupted "Stopped") else pure () : Act Unit).perform m
        = _
      split <;> rfl
  | false =>
      have same : m.stopped = ({ m with checks := m.checks + 1 } : Machine).stopped :=
        ((Alike.refl settled).checks m.checks (m.checks + 1)).stopped
      refine ⟨"", m.checks + 1, ?_⟩
      rw [same]
      change (if ({ m with checks := m.checks + 1 } : Machine).stopped = true
        then throw (.interrupted "") else pure () : Act Unit).perform { m with checks := m.checks + 1 }
        = _
      split <;> rfl

theorem Job.perform_of_stopped {m : Machine} (settled : m.Settled) (stopped : m.stopped = true)
    (j : Job) : ∃ text checks, j.act.perform m =
      (.error (.interrupted text), { m with checks := checks }) := by
  obtain ⟨text, checks, looked⟩ := perform_lookOut settled j.top
  refine ⟨text, checks, ?_⟩
  rw [Job.act, perform_bind, looked, stopped]
  rfl

theorem Job.perform_of_running {m : Machine} (settled : m.Settled) (running : m.stopped = false)
    (j : Job) : ∃ checks, j.act.perform m = (make j.move).perform { m with checks := checks } := by
  obtain ⟨text, checks, looked⟩ := perform_lookOut settled j.top
  refine ⟨checks, ?_⟩
  rw [Job.act, perform_bind, looked, running]
  rfl

section Expressions

def comparisonLost : Fault := .command "comp_op" .noSuchItem

mutual

def Expr.compares : Expr → Bool
  | .plain sum => sum.compares
  | .compare _ _ _ => true

def Sum.compares : Sum → Bool
  | .mk first rest => first.compares || rest.compares

def Terms.compares : Terms → Bool
  | .nil => false
  | .cons _ next rest => next.compares || rest.compares

def Product.compares : Product → Bool
  | .mk first rest => first.compares || rest.compares

def Factors.compares : Factors → Bool
  | .nil => false
  | .cons _ next rest => next.compares || rest.compares

def Atom.compares : Atom → Bool
  | .number _ => false
  | .name _ => false
  | .group inner => inner.compares

end

def Built {α : Type} (compares : Bool) (r : Except Fault α) (P : α → Prop) : Prop :=
  if compares then r = .error comparisonLost else ∃ a, r = .ok a ∧ P a

theorem Built.ok {α : Type} {P : α → Prop} {a : α} (holds : P a) : Built false (.ok a) P :=
  ⟨a, rfl, holds⟩

theorem Built.bind {α β : Type} {first second : Bool} {r : Except Fault α} {P : α → Prop}
    {next : α → Except Fault β} {Q : β → Prop} (built : Built first r P)
    (later : ∀ a, P a → Built second (next a) Q) : Built (first || second) (r >>= next) Q := by
  cases first with
  | true =>
      have failed : r = .error comparisonLost := built
      rw [failed]
      exact rfl
  | false =>
      obtain ⟨a, rfl, holds⟩ := built
      exact later a holds

theorem Built.mono {α : Type} {compares : Bool} {r : Except Fault α} {P Q : α → Prop}
    (built : Built compares r P) (weaker : ∀ a, P a → Q a) : Built compares r Q := by
  cases compares with
  | true => exact built
  | false =>
      obtain ⟨a, rfl, holds⟩ := built
      exact ⟨a, rfl, weaker a holds⟩

def Value.Fails (v : Value) : Prop := ∃ a, v = .action a ∧ a.run = throw (.notReal .action)

mutual

/-- An expression is built into an action that fails, for its sum begins with a product, which is an
action and no number. -/
theorem Expr.built (e : Expr) : Built e.compares e.build Value.Fails := by
  match e with
  | .plain sum =>
      simp only [Expr.compares, Expr.build]
      rw [← Bool.or_false sum.compares]
      refine sum.built.bind fun v => ?_
      rintro ⟨first, rest, rfl⟩
      exact Built.ok ⟨_, rfl, rfl⟩
  | .compare left _ right =>
      simp only [Expr.compares, Expr.build]
      -- the sign is not kept in the tree, so that the part built from it has nothing to take
      rw [← Bool.or_true left.compares]
      exact left.built.bind fun _ _ => rfl

theorem Sum.built (s : Sum) :
    Built s.compares s.build fun v => ∃ a vs, v = .action (.fold (.action a :: vs)) := by
  match s with
  | .mk first rest =>
      simp only [Sum.compares, Sum.build]
      refine first.built.bind fun v => ?_
      rintro ⟨parts, rfl⟩
      rw [← Bool.or_false rest.compares]
      exact rest.built.bind fun vs _ => Built.ok ⟨_, vs, rfl⟩

theorem Terms.built (ts : Terms) : Built ts.compares ts.build fun _ => True := by
  match ts with
  | .nil => exact Built.ok trivial
  | .cons _ next rest =>
      simp only [Terms.compares, Terms.build]
      refine next.built.bind fun v _ => ?_
      rw [← Bool.or_false rest.compares]
      exact rest.built.bind fun vs _ => Built.ok trivial

theorem Product.built (p : Product) :
    Built p.compares p.build fun v => ∃ parts, v = .action (.fold parts) := by
  match p with
  | .mk first rest =>
      simp only [Product.compares, Product.build]
      refine first.built.bind fun v _ => ?_
      rw [← Bool.or_false rest.compares]
      exact rest.built.bind fun vs _ => Built.ok ⟨v :: vs, rfl⟩

theorem Factors.built (fs : Factors) : Built fs.compares fs.build fun _ => True := by
  match fs with
  | .nil => exact Built.ok trivial
  | .cons _ next rest =>
      simp only [Factors.compares, Factors.build]
      refine next.built.bind fun v _ => ?_
      rw [← Bool.or_false rest.compares]
      exact rest.built.bind fun vs _ => Built.ok trivial

theorem Atom.built (a : Atom) : Built a.compares a.build fun _ => True := by
  match a with
  | .number text => exact Built.ok trivial
  | .name text => exact Built.ok trivial
  | .group inner =>
      simp only [Atom.compares, Atom.build]
      exact inner.built.mono fun _ _ => trivial

end

theorem Expr.fails_of_build {e : Expr} {v : Value} (built : e.build = .ok v) : v.Fails := by
  have outcome := e.built
  rw [built] at outcome
  cases compares : e.compares with
  | true => simp [Built, compares] at outcome
  | false => simpa [Built, compares] using outcome

end Expressions

section Statements

theorem make_block (vs : List Value) (actions : ∀ v ∈ vs, v.isAction = true) :
    Part.block.make vs = .ok (.list vs) := by
  simp [Part.make, Part.build, Part.keepActions, List.filter_eq_self.mpr actions]

theorem make_loop {count : List Char} {vs : List Value} {v : Value}
    (built : Part.loop.make [numberValue count, .list vs] = .ok v) :
    ∃ n : Int, v = .action (.loop n vs) ∧ n.toNat = times count := by
  simp only [Part.make, Part.build, Part.unpackTwo, numberValue, Value.real, Value.toReal,
    Datum.toReal, Value.asBlock, times] at built ⊢
  cases whole : Datum.wholeOfReal (spelled count) with
  | error fault => simp [whole, bind, Except.bind] at built
  | ok n =>
      simp [whole, bind, Except.bind, pure, Except.pure] at built
      refine ⟨n, built.symm, ?_⟩
      unfold Datum.wholeOfReal at whole
      split at whole <;> simp_all

def Stmt.Does (s : Stmt) (v : Value) : Prop :=
  ∃ a, v = .action a ∧ ∀ top, (do lookOut top; let _ ← a.run) = runJobs (s.jobs top)

theorem branch_run {condition : Value} (fails : condition.Fails) (whenTrue whenFalse : List Value) :
    (Action.branch condition whenTrue whenFalse).run = throw (.notReal .action) := by
  obtain ⟨a, rfl, failing⟩ := fails
  simp only [Action.run, Value.holds, failing, throw_bind]

theorem assign_run {target value : Value} (fails : value.Fails) :
    (Action.assign target value).run = (do Act.unlessStopped; throw (.notReal .action)) := by
  obtain ⟨a, rfl, failing⟩ := fails
  simp only [Action.run, Value.evaluate, failing, throw_bind]

theorem runTop_cons (v : Value) (vs : List Value) :
    runTop (v :: vs) = (do lookOut true; let _ ← v.run; runTop vs) := by
  simp only [runTop, lookOut, bind_assoc]
  refine bind_congr fun m => ?_
  split <;> rfl

mutual

theorem Stmt.does_of_build (s : Stmt) {v : Value} (built : s.build = .ok v) : s.Does v := by
  match s with
  | .setPwm channel value =>
      obtain rfl := Except.ok.inj built
      refine ⟨_, rfl, fun top => ?_⟩
      simp [Action.run, runJobs, Stmt.jobs, Job.act, make, Move.act, lookOut, numberValue, Value.real,
        Value.toReal, Datum.toReal, Act.ofExcept]
  | .wait seconds =>
      obtain rfl := Except.ok.inj built
      refine ⟨_, rfl, fun top => ?_⟩
      simp [Action.run, runJobs, Stmt.jobs, Job.act, make, Move.act, lookOut]
  | .readSensor sensor =>
      obtain rfl := Except.ok.inj built
      refine ⟨_, rfl, fun top => ?_⟩
      simp [Action.run, runJobs, Stmt.jobs, Job.act, make, Move.act, lookOut]
  | .readAssign target sensor =>
      obtain rfl := Except.ok.inj built
      refine ⟨_, rfl, fun top => ?_⟩
      simp [Action.run, runJobs, Stmt.jobs, Job.act, make, Move.act, lookOut]
  | .assign target value =>
      obtain ⟨e, builtValue, made⟩ := ok_of_bind built
      obtain rfl := Except.ok.inj made
      refine ⟨_, rfl, fun top => ?_⟩
      rw [assign_run (Expr.fails_of_build builtValue)]
      simp [runJobs, Stmt.jobs, Job.act, make, Move.act, lookOut]
  | .branch condition whenTrue =>
      obtain ⟨c, builtCondition, later⟩ := ok_of_bind built
      obtain ⟨vs, _, later⟩ := ok_of_bind later
      obtain ⟨t, _, made⟩ := ok_of_bind later
      obtain rfl := Except.ok.inj made
      refine ⟨_, rfl, fun top => ?_⟩
      rw [branch_run (Expr.fails_of_build builtCondition)]
      simp [runJobs, Stmt.jobs, Job.act, make, Move.act]
  | .branchElse condition whenTrue whenFalse =>
      obtain ⟨c, builtCondition, later⟩ := ok_of_bind built
      obtain ⟨vs, _, later⟩ := ok_of_bind later
      obtain ⟨t, _, later⟩ := ok_of_bind later
      obtain ⟨ws, _, later⟩ := ok_of_bind later
      obtain ⟨f, _, made⟩ := ok_of_bind later
      obtain rfl := Except.ok.inj made
      refine ⟨_, rfl, fun top => ?_⟩
      rw [branch_run (Expr.fails_of_build builtCondition)]
      simp [runJobs, Stmt.jobs, Job.act, make, Move.act]
  | .loop count body =>
      obtain ⟨vs, builtBody, later⟩ := ok_of_bind built
      obtain ⟨b, madeBlock, made⟩ := ok_of_bind later
      obtain ⟨actions, runs, _⟩ := does_of_buildAll body builtBody
      rw [make_block vs actions] at madeBlock
      obtain rfl := Except.ok.inj madeBlock
      obtain ⟨n, rfl, count⟩ := make_loop made
      refine ⟨_, rfl, fun top => ?_⟩
      simp [Action.run, runs, count, iterate_runJobs, runJobs, Stmt.jobs, Job.act, make]
  | .block body =>
      obtain ⟨vs, _, later⟩ := ok_of_bind built
      obtain ⟨b, _, made⟩ := ok_of_bind later
      obtain rfl := Except.ok.inj made
      refine ⟨_, rfl, fun top => ?_⟩
      simp [Action.run, runJobs, Stmt.jobs, Job.act, make]

theorem does_of_buildAll (ss : List Stmt) {vs : List Value} (built : buildAll ss = .ok vs) :
    (∀ v ∈ vs, v.isAction = true) ∧ runAll vs = runJobs (jobsAll false ss) ∧
      runTop vs = runJobs (jobsAll true ss) := by
  match ss with
  | [] =>
      obtain rfl := Except.ok.inj built
      exact ⟨by simp, rfl, rfl⟩
  | s :: ss =>
      obtain ⟨v, builtFirst, later⟩ := ok_of_bind built
      obtain ⟨ws, builtRest, made⟩ := ok_of_bind later
      obtain rfl := Except.ok.inj made
      obtain ⟨a, rfl, does⟩ := s.does_of_build builtFirst
      obtain ⟨actions, inside, top⟩ := does_of_buildAll ss builtRest
      refine ⟨by simpa [Value.isAction] using actions, ?_, ?_⟩
      · rw [jobsAll, runJobs_append, ← does false, ← inside]
        simp [runAll, Value.run, lookOut]
      · rw [jobsAll, runJobs_append, ← does true, ← top]
        simp [runTop_cons, Value.run]

end

theorem ok_of_isOk {α : Type} {r : Except Fault α} (isOk : r.isOk = true) : ∃ a, r = .ok a := by
  cases r with
  | error fault => simp [Except.isOk, Except.toBool] at isOk
  | ok a => exact ⟨a, rfl⟩

theorem build_eq_of_several {program : List Stmt} (several : program.length ≠ 1) :
    build program = (do Part.routine.make (← buildAll program)) := by
  unfold build
  split
  · simp at several
  · rfl

theorem runBuilt_of_several {program : List Stmt} {v : Value} (built : build program = .ok v)
    (several : program.length ≠ 1) : runBuilt v = runJobs (jobsAll true program) := by
  rw [build_eq_of_several several] at built
  obtain ⟨vs, builtAll, made⟩ := ok_of_bind built
  obtain rfl := Except.ok.inj made
  obtain ⟨actions, _, top⟩ := does_of_buildAll program builtAll
  rw [Part.keepActions, List.filter_eq_self.mpr actions, runBuilt, top]

/-- A routine of one statement that was built is no list, and fails before it does anything. -/
theorem runBuilt_of_single {s : Stmt} {v : Value} (built : build [s] = .ok v) :
    runBuilt v = throw (.notIterable .action) := by
  obtain ⟨a, rfl, _⟩ := s.does_of_build built
  rfl

end Statements

section Texts

theorem stoppedLine_not_mem {log : List String} (extended : Extends [] log) :
    stoppedLine ∉ log := by
  obtain ⟨lines, rfl, marked⟩ := extended
  intro member
  exact absurd (marked _ member) (by simp [Marked, stoppedLine])

def conclude : Except Fault Unit × Machine → Ending × Machine
  | (.ok _, m) => (.done, m)
  | (.error (.interrupted _), m) => (.done, { m with log := m.log ++ [stoppedLine] })
  | (.error fault, m) => (.error (report fault), m)

theorem run_of_parse {text : String} {program : List Stmt} (read : parse text = .ok program)
    (m : Machine) :
    run text m = conclude ((do runBuilt (← Act.ofExcept (build program))).perform m) := by
  have acts : runText text = (do runBuilt (← Act.ofExcept (build program))) := by
    simp only [runText, read, Act.ofExcept, pure_bind]
  change conclude ((runText text).perform m) = _
  rw [acts]

theorem run_eq_conclude {text : String} {program : List Stmt} (read : parse text = .ok program)
    (builds : (build program).isOk = true) (several : program.length ≠ 1) (m : Machine) :
    run text m = conclude ((runJobs (jobsAll true program)).perform m) := by
  obtain ⟨v, built⟩ := ok_of_isOk builds
  rw [run_of_parse read, built, ← runBuilt_of_several built several]
  simp [Act.ofExcept]

theorem conclude_error {fault : Fault} (other : ∀ text, fault ≠ .interrupted text) (m : Machine) :
    conclude (.error fault, m) = (.error (report fault), m) := by
  unfold conclude
  split
  · simp_all
  · rename_i text _ same
    simp only [Prod.mk.injEq, Except.error.injEq] at same
    exact absurd same.1 (other text)
  · simp_all

theorem conclude_of_agrees {left right : Except Fault Unit × Machine} (agrees : Agrees left right) :
    (conclude left).1 = (conclude right).1 ∧ Alike (conclude left).2 (conclude right).2 := by
  obtain ⟨r, m⟩ := left
  obtain ⟨s, n⟩ := right
  obtain ⟨alike, rfl | ⟨t, u, rfl, rfl⟩⟩ := agrees
  · cases r with
    | ok _ => exact ⟨rfl, alike⟩
    | error fault =>
        by_cases stopped : ∃ text, fault = .interrupted text
        · obtain ⟨text, rfl⟩ := stopped
          exact ⟨rfl, alike.logged stoppedLine⟩
        · have other : ∀ text, fault ≠ .interrupted text := fun text same => stopped ⟨text, same⟩
          rw [conclude_error other, conclude_error other]
          exact ⟨rfl, alike⟩
  · exact ⟨rfl, alike.logged stoppedLine⟩

end Texts

end ThrustBench.Routine
