import ThrustBench.Proofs.Jobs
import ThrustBench.Proofs.RoutineTerms

/-!
Loops and the statements they stand for.  A loop can be replaced by its body written out, and a stray
block by nothing, at any depth of a routine.  What is lost on the way is a look whether a stop is
asked for.  A later look makes up for it, so that the runs differ only if there is none: a routine
that has nothing more to do ends without noticing a stop that another one notices before a statement
that does nothing.
-/

namespace ThrustBench.Routine

/-- What a statement stands for: a loop for its body as often as it is gone through, a stray block for
nothing. -/
inductive Stmt.StandsFor : Stmt → List Stmt → Prop
  | loop (count : List Char) (body : List Stmt) :
      (Stmt.loop count body).StandsFor (List.replicate (times count) body).flatten
  | block (body : List Stmt) : (Stmt.block body).StandsFor []

inductive Holds : (List Stmt → Stmt) → Prop
  | branch (condition : Expr) : Holds (.branch condition)
  | whenTrue (condition : Expr) (whenFalse : List Stmt) :
      Holds fun body => .branchElse condition body whenFalse
  | whenFalse (condition : Expr) (whenTrue : List Stmt) : Holds (.branchElse condition whenTrue)
  | loop (count : List Char) : Holds (.loop count)
  | block : Holds .block

inductive Unfolds (copies : List Stmt) : List Stmt → List Stmt → Prop
  | here {s : Stmt} (before after : List Stmt) : s.StandsFor copies →
      Unfolds copies (before ++ s :: after) (before ++ (copies ++ after))
  | inside {place : List Stmt → Stmt} {body unfolded : List Stmt} (before after : List Stmt) :
      Holds place → Unfolds copies body unfolded →
      Unfolds copies (before ++ place body :: after) (before ++ place unfolded :: after)

/-- Jobs that do nothing but look are left out, the last ones only if `idle` allows it. -/
inductive Thins (idle : Prop) : List Job → List Job → Prop
  | nil : Thins idle [] []
  | keep {j k : Job} {js ks : List Job} : j.move = k.move → Thins idle js ks →
      Thins idle (j :: js) (k :: ks)
  | drop {top : Bool} {js ks : List Job} : idle ∨ ks ≠ [] → Thins idle js ks →
      Thins idle (⟨top, none⟩ :: js) ks

section Rows

variable {idle : Prop}

theorem Thins.append {js ks later others : List Job} (first : Thins idle js ks)
    (second : Thins idle later others) : Thins idle (js ++ later) (ks ++ others) := by
  induction first with
  | nil => exact second
  | keep same _ ih => exact .keep same ih
  | drop allowed _ ih =>
      refine .drop ?_ ih
      rcases allowed with may | more
      · exact Or.inl may
      · exact Or.inr (by simp [more])

theorem Thins.of_moves {js : List Job} : ∀ {ks : List Job},
    js.map Job.move = ks.map Job.move → Thins idle js ks := by
  induction js with
  | nil =>
      intro ks same
      have none : ks = [] := by simpa using same.symm
      rw [none]
      exact .nil
  | cons j js ih =>
      intro ks same
      cases ks with
      | nil => simp at same
      | cons k ks =>
          simp only [List.map_cons, List.cons.injEq] at same
          exact .keep same.1 (ih same.2)

theorem Thins.replicate {js ks : List Job} (thins : Thins idle js ks) (count : Nat) :
    Thins idle (List.replicate count js).flatten (List.replicate count ks).flatten := by
  induction count with
  | zero => exact .nil
  | succ count ih => simpa [List.replicate_succ] using thins.append ih

theorem Stmt.jobs_moves (s : Stmt) (top other : Bool) :
    (s.jobs top).map Job.move = (s.jobs other).map Job.move := by
  cases s <;> simp [Stmt.jobs]

theorem jobsAll_moves (ss : List Stmt) (top other : Bool) :
    (jobsAll top ss).map Job.move = (jobsAll other ss).map Job.move := by
  induction ss with
  | nil => rfl
  | cons s ss ih => simp only [jobsAll, List.map_append, s.jobs_moves top other, ih]

theorem jobsAll_ne_nil {ss : List Stmt} (given : ss ≠ []) (top : Bool) : jobsAll top ss ≠ [] := by
  cases ss with
  | nil => exact absurd rfl given
  | cons s ss => cases s <;> simp [jobsAll, Stmt.jobs]

theorem jobsAll_replicate (top : Bool) (count : Nat) (body : List Stmt) :
    jobsAll top (List.replicate count body).flatten =
      (List.replicate count (jobsAll top body)).flatten := by
  induction count with
  | zero => rfl
  | succ count ih => simp [List.replicate_succ, jobsAll_append, ih]

theorem standsFor_thins {s : Stmt} {copies : List Stmt} (stands : s.StandsFor copies) (top : Bool) :
    Thins (copies = []) (s.jobs top) (jobsAll top copies) := by
  cases stands with
  | loop count body =>
      -- the first statement of the first round looks again for what the loop looked for
      refine .drop ?_ ?_
      · by_cases none : (List.replicate (times count) body).flatten = []
        · exact Or.inl none
        · exact Or.inr (jobsAll_ne_nil none top)
      · rw [jobsAll_replicate]
        exact (Thins.of_moves (jobsAll_moves body false top)).replicate (times count)
  | block body => exact .drop (Or.inl rfl) .nil

theorem holds_thins {place : List Stmt → Stmt} (holds : Holds place) {body unfolded : List Stmt}
    (thins : ∀ top, Thins idle (jobsAll top body) (jobsAll top unfolded)) (top : Bool) :
    Thins idle ((place body).jobs top) ((place unfolded).jobs top) := by
  cases holds with
  | branch condition => exact Thins.of_moves rfl
  | whenTrue condition whenFalse => exact Thins.of_moves rfl
  | whenFalse condition whenTrue => exact Thins.of_moves rfl
  | loop count => exact .keep rfl ((thins false).replicate (times count))
  | block => exact Thins.of_moves rfl

theorem Unfolds.thins {copies p q : List Stmt} (unfolds : Unfolds copies p q) (top : Bool) :
    Thins (copies = []) (jobsAll top p) (jobsAll top q) := by
  induction unfolds generalizing top with
  | here before after stands =>
      simp only [jobsAll_append, jobsAll]
      exact (Thins.of_moves rfl).append ((standsFor_thins stands top).append (Thins.of_moves rfl))
  | inside before after holds _ ih =>
      simp only [jobsAll_append, jobsAll]
      exact (Thins.of_moves rfl).append ((holds_thins holds ih top).append (Thins.of_moves rfl))

end Rows

section Runs

theorem Job.agrees_of_move {j k : Job} (same : j.move = k.move) {m n : Machine} (alike : Alike m n) :
    Agrees (j.act.perform m) (k.act.perform n) := by
  cases stopped : m.stopped with
  | true =>
      obtain ⟨text, checks, left⟩ := j.perform_of_stopped alike.settled stopped
      obtain ⟨other, others, right⟩ := k.perform_of_stopped alike.settledToo
        (alike.stopped ▸ stopped)
      rw [left, right]
      exact ⟨alike.checks checks others, Or.inr ⟨text, other, rfl, rfl⟩⟩
  | false =>
      obtain ⟨checks, left⟩ := j.perform_of_running alike.settled stopped
      obtain ⟨others, right⟩ := k.perform_of_running alike.settledToo (alike.stopped ▸ stopped)
      rw [left, right, same]
      exact (make_tame k.move).agrees (alike.checks checks others)

/-- A run notices a stop before a job that does nothing, and another one ends before it would. -/
def Overtakes (left right : Except Fault Unit × Machine) : Prop :=
  (∃ text, left.1 = .error (.interrupted text)) ∧ right.1 = .ok () ∧ Alike left.2 right.2 ∧
    right.2.stopped = true

theorem Thins.runs {idle : Prop} {js ks : List Job} (thins : Thins idle js ks) :
    ∀ {m n : Machine}, Alike m n →
      Agrees ((runJobs js).perform m) ((runJobs ks).perform n) ∨
        idle ∧ Overtakes ((runJobs js).perform m) ((runJobs ks).perform n) := by
  induction thins with
  | nil =>
      intro m n alike
      exact Or.inl ⟨alike, Or.inl rfl⟩
  | @keep j k js ks same _ ih =>
      intro m n alike
      have both := Job.agrees_of_move same alike
      simp only [runJobs, perform_bind]
      generalize j.act.perform m = left at both ⊢
      generalize k.act.perform n = right at both ⊢
      obtain ⟨r, m'⟩ := left
      obtain ⟨s, n'⟩ := right
      obtain ⟨machines, rfl | ⟨t, u, rfl, rfl⟩⟩ := both
      · cases r with
        | ok _ => exact ih machines
        | error fault => exact Or.inl ⟨machines, Or.inl rfl⟩
      · exact Or.inl ⟨machines, Or.inr ⟨t, u, rfl, rfl⟩⟩
  | @drop top js ks allowed _ ih =>
      intro m n alike
      simp only [runJobs, perform_bind]
      cases stopped : m.stopped with
      | true =>
          obtain ⟨text, checks, left⟩ := Job.perform_of_stopped alike.settled stopped ⟨top, none⟩
          rw [left]
          -- the next look of the other row, if there is one, notices the same stop
          cases ks with
          | nil =>
              refine Or.inr ⟨allowed.resolve_right (by simp), ⟨text, rfl⟩, rfl, ?_, ?_⟩
              · exact alike.checks checks n.checks
              · exact alike.stopped ▸ stopped
          | cons k ks =>
              obtain ⟨other, others, right⟩ := k.perform_of_stopped alike.settledToo
                (alike.stopped ▸ stopped)
              rw [runJobs, perform_bind, right]
              exact Or.inl ⟨alike.checks checks others, Or.inr ⟨text, other, rfl, rfl⟩⟩
      | false =>
          obtain ⟨checks, left⟩ := Job.perform_of_running alike.settled stopped ⟨top, none⟩
          rw [left]
          exact ih (alike.checks checks n.checks)

theorem Unfolds.agree {copies p q : List Stmt} (unfolds : Unfolds copies p q) {m : Machine}
    (unstopped : m.stop = .never) :
    Agrees ((runJobs (jobsAll true p)).perform m) ((runJobs (jobsAll true q)).perform m) := by
  rcases (unfolds.thins true).runs (Alike.refl (settled_of_never unstopped)) with agrees | overtakes
  · exact agrees
  · have kept := (runJobs_tame (jobsAll true q)).stop m
    have running := stopped_of_never (kept.trans unstopped)
    rw [overtakes.2.2.2.2] at running
    cases running

end Runs

/-- A routine in which one statement, at any depth, is replaced by what it stands for: a run leaves
the same variables and the same clock and ends in the same way.  It writes the same lines, unless a
statement that stands for nothing is left out and a stop is asked for in the last thing that is
done: only the routine that still has that statement before it says that it was stopped. -/
theorem unfolded_runs_agree {left right : String} {p q copies : List Stmt}
    (readLeft : parse left = .ok p) (readRight : parse right = .ok q)
    (buildsLeft : (build p).isOk = true) (buildsRight : (build q).isOk = true)
    (severalLeft : p.length ≠ 1) (severalRight : q.length ≠ 1) (unfolds : Unfolds copies p q)
    (clock : Clock) {stop : Stop} (asked : stop = .never ∨ ∃ line, stop = .atLine line) :
    let before := run left { clock := clock, stop := stop }
    let after := run right { clock := clock, stop := stop }
    before.1 = after.1 ∧ before.2.memory = after.2.memory ∧ before.2.clock = after.2.clock ∧
      (before.2.log = after.2.log ∨
        ∃ line, stop = .atLine line ∧ line < after.2.log.length ∧ copies = [] ∧
          after.1 = .done ∧ stoppedLine ∉ after.2.log ∧
          before.2.log = after.2.log ++ [stoppedLine]) := by
  intro before after
  let m : Machine := { clock := clock, stop := stop }
  have settled : m.Settled := by
    rintro checks (same : stop = .afterChecks checks)
    rcases asked with rfl | ⟨line, rfl⟩ <;> cases same
  have leftRun : before = conclude ((runJobs (jobsAll true p)).perform m) :=
    run_eq_conclude readLeft buildsLeft severalLeft m
  have rightRun : after = conclude ((runJobs (jobsAll true q)).perform m) :=
    run_eq_conclude readRight buildsRight severalRight m
  have kept := (runJobs_tame (jobsAll true q)).stop m
  have silent := stoppedLine_not_mem ((runJobs_tame (jobsAll true q)).log m)
  rw [leftRun, rightRun]
  rcases (unfolds.thins true).runs (Alike.refl settled) with agrees | ⟨none, overtakes⟩
  · obtain ⟨endings, alike⟩ := conclude_of_agrees agrees
    exact ⟨endings, alike.memory, alike.clock, Or.inl alike.log⟩
  · generalize (runJobs (jobsAll true p)).perform m = first at overtakes ⊢
    generalize (runJobs (jobsAll true q)).perform m = second at overtakes kept silent ⊢
    obtain ⟨r, a⟩ := first
    obtain ⟨s, b⟩ := second
    obtain ⟨⟨text, rfl⟩, rfl, alike, stopped⟩ := overtakes
    have logs : a.log = b.log := alike.log
    refine ⟨rfl, alike.memory, alike.clock, Or.inr ?_⟩
    dsimp only at kept stopped
    rcases asked with rfl | ⟨line, rfl⟩
    · simp [Machine.stopped, kept, m] at stopped
    · have written : line < b.log.length := by simpa [Machine.stopped, kept, m] using stopped
      exact ⟨line, rfl, written, none, rfl, silent, by simp [conclude, logs]⟩

theorem unfolded_runs_agree_nested :
    let before := run "WAIT 1 REPEAT 2\x7bREPEAT 2\x7bWAIT 3\x7d\x7d" { stop := .atLine 2 }
    let after := run "WAIT 1 REPEAT 2\x7bWAIT 3 WAIT 3\x7d" { stop := .atLine 2 }
    before.1 = after.1 ∧ before.2.memory = after.2.memory ∧ before.2.clock = after.2.clock ∧
      before.2.log = after.2.log := by
  have readLeft : parse "WAIT 1 REPEAT 2\x7bREPEAT 2\x7bWAIT 3\x7d\x7d" =
      .ok [.wait ['1'], .loop ['2'] [.loop ['2'] [.wait ['3']]]] :=
    parse_of_lexemes (by decide +kernel)
  have readRight : parse "WAIT 1 REPEAT 2\x7bWAIT 3 WAIT 3\x7d" =
      .ok [.wait ['1'], .loop ['2'] [.wait ['3'], .wait ['3']]] :=
    parse_of_lexemes (by decide +kernel)
  have two : times ['2'] = 2 := by decide +kernel
  have stands := Stmt.StandsFor.loop ['2'] [.wait ['3']]
  rw [two] at stands
  have unfolds := Unfolds.inside [.wait ['1']] [] (.loop ['2']) (.here [] [] stands)
  obtain ⟨ending, memory, clock, log | ⟨_, _, _, none, _⟩⟩ := unfolded_runs_agree readLeft readRight
    (by decide +kernel) (by decide +kernel) (by decide) (by decide) unfolds {} (Or.inr ⟨2, rfl⟩)
  · exact ⟨ending, memory, clock, log⟩
  · cases none

/-- Before a stray block a run looks once more whether a stop is asked for. -/
theorem stray_block_notices_stop :
    let left := "SET_PWM a 1 SET_PWM a 2 \x7b\x7d"
    let right := "SET_PWM a 1 SET_PWM a 2"
    let q : List Stmt := [.setPwm ['a'] ['1'], .setPwm ['a'] ['2']]
    let p : List Stmt := q ++ [.block []]
    parse left = .ok p ∧ parse right = .ok q ∧ (build p).isOk = true ∧ (build q).isOk = true ∧
      p.length ≠ 1 ∧ q.length ≠ 1 ∧ Unfolds [] p q ∧
      (run left { stop := .atLine 1 }).2.log ≠ (run right { stop := .atLine 1 }).2.log := by
  refine ⟨parse_of_lexemes (by decide +kernel), parse_of_lexemes (by decide +kernel),
    by decide +kernel, by decide +kernel, by decide, by decide, ?_, by decide +kernel⟩
  exact .here _ [] (.block [])

end ThrustBench.Routine
