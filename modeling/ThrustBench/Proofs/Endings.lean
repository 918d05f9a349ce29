import ThrustBench.Proofs.Unrolling

/-!
How routines end.  A run that comes to a statement that needs the value of an expression fails there,
and a routine that compares is not run at all.  A routine of one statement fails before its statement
is carried out, so that a stray block behind a routine changes nothing only if it has two statements
or more.
-/

namespace ThrustBench.Routine

section Building

theorem buildAll_append (before after : List Stmt) :
    buildAll (before ++ after) = (do
      let vs ← buildAll before
      let ws ← buildAll after
      return vs ++ ws) := by
  induction before with
  | nil => simp [buildAll]
  | cons s before ih => simp [buildAll, ih]

theorem length_eq_one_iff {before after : List Stmt} {s : Stmt} :
    (before ++ s :: after).length = 1 ↔ before ++ after = [] := by
  rw [← List.length_eq_zero_iff, List.length_append, List.length_append, List.length_cons]
  omega

theorem build_error {before after : List Stmt} {s : Stmt} {vs : List Value} {fault : Fault}
    (built : buildAll before = .ok vs) (failed : s.build = .error fault) :
    build (before ++ s :: after) = .error fault := by
  have all : buildAll (before ++ s :: after) = .error fault := by
    rw [buildAll_append, built, buildAll, failed]
    rfl
  by_cases several : (before ++ s :: after).length = 1
  · obtain ⟨rfl, rfl⟩ := List.append_eq_nil_iff.mp (length_eq_one_iff.mp several)
    exact failed
  · rw [build_eq_of_several several, all]
    rfl

theorem buildAll_of_build {program : List Stmt} (builds : (build program).isOk = true) :
    ∃ vs, buildAll program = .ok vs := by
  obtain ⟨v, built⟩ := ok_of_isOk builds
  by_cases several : program.length = 1
  · obtain ⟨s, rfl⟩ := List.length_eq_one_iff.mp several
    exact ⟨[v], by rw [buildAll, show s.build = .ok v from built]; rfl⟩
  · rw [build_eq_of_several several] at built
    obtain ⟨vs, builtAll, _⟩ := ok_of_bind built
    exact ⟨vs, builtAll⟩

theorem build_stray {program : List Stmt} (builds : (build program).isOk = true) :
    (build (program ++ [.block []])).isOk = true := by
  obtain ⟨vs, built⟩ := buildAll_of_build builds
  cases program with
  | nil => rfl
  | cons s program =>
      have several : (s :: program ++ [Stmt.block []]).length ≠ 1 := by simp
      rw [build_eq_of_several several, buildAll_append, built]
      rfl

end Building

section Expressions

inductive Stmt.Asks : Stmt → Expr → Prop
  | assign (target : List Char) (value : Expr) : (Stmt.assign target value).Asks value
  | branch (condition : Expr) (whenTrue : List Stmt) :
      (Stmt.branch condition whenTrue).Asks condition
  | branchElse (condition : Expr) (whenTrue whenFalse : List Stmt) :
      (Stmt.branchElse condition whenTrue whenFalse).Asks condition

variable {s : Stmt} {e : Expr}

theorem Stmt.Asks.build_error (asks : s.Asks e) {fault : Fault} (failed : e.build = .error fault) :
    s.build = .error fault := by
  cases asks <;> (rw [Stmt.build, failed]; rfl)

theorem Stmt.Asks.jobs (asks : s.Asks e) (top : Bool) :
    s.jobs top = [⟨top, some .evaluate⟩] ∨
      s.jobs top = [⟨top, none⟩, ⟨false, some .evaluate⟩] := by
  cases asks with
  | assign target value => exact Or.inr rfl
  | branch condition whenTrue => exact Or.inl rfl
  | branchElse condition whenTrue whenFalse => exact Or.inl rfl

theorem Job.perform_of_never {m : Machine} (unstopped : m.stop = .never) (j : Job) :
    ∃ checks, j.act.perform m = (make j.move).perform { m with checks := checks } :=
  j.perform_of_running (settled_of_never unstopped) (stopped_of_never unstopped)

theorem Stmt.Asks.perform (asks : s.Asks e) {m : Machine} (unstopped : m.stop = .never) (top : Bool)
    (js : List Job) : ∃ checks, (runJobs (s.jobs top ++ js)).perform m =
      (.error (.notReal .action), { m with checks := checks }) := by
  rcases asks.jobs top with one | two
  · obtain ⟨checks, looked⟩ := Job.perform_of_never unstopped ⟨top, some .evaluate⟩
    refine ⟨checks, ?_⟩
    rw [one, List.singleton_append, runJobs, perform_bind, looked]
    rfl
  · obtain ⟨first, looked⟩ := Job.perform_of_never unstopped ⟨top, none⟩
    obtain ⟨checks, later⟩ := Job.perform_of_never (m := { m with checks := first }) unstopped
      ⟨false, some .evaluate⟩
    refine ⟨checks, ?_⟩
    rw [two, List.cons_append, List.singleton_append, runJobs, perform_bind, looked]
    change (runJobs (⟨false, some .evaluate⟩ :: js)).perform { m with checks := first } = _
    rw [runJobs, perform_bind, later]
    rfl

theorem Stmt.Asks.perform_after (asks : s.Asks e) {m n : Machine} (unstopped : m.stop = .never)
    {js : List Job} (reached : (runJobs js).perform m = (.ok (), n)) (top : Bool) (ks : List Job) :
    ∃ checks, (runJobs (js ++ (s.jobs top ++ ks))).perform m =
      (.error (.notReal .action), { n with checks := checks }) := by
  have kept : n.stop = .never := by
    have same := (runJobs_tame js).stop m
    rw [reached] at same
    rw [← unstopped, ← same]
  obtain ⟨checks, failed⟩ := asks.perform kept top ks
  refine ⟨checks, ?_⟩
  rw [runJobs_append, perform_bind, reached]
  exact failed

/-- An expression has no value.  One that compares prevents the routine from being built; any other
is built into a value that fails whenever it is carried out.  So does the statement that needs it, in
a block and at the top of a routine: a run does what stands before the statement, and nothing of it or
behind it. -/
theorem expression_never_evaluated (asks : s.Asks e) {before : List Stmt} {vs : List Value}
    (built : buildAll before = .ok vs) (after : List Stmt) {m n : Machine}
    (unstopped : m.stop = .never) :
    (if e.compares then e.build = .error comparisonLost
      else ∃ v, e.build = .ok v ∧ ∀ m, v.run.perform m = (.error (.notReal .action), m)) ∧
    (∀ ws, buildAll (before ++ s :: after) = .ok ws → (runAll vs).perform m = (.ok (), n) →
      ∃ checks, (runAll ws).perform m =
        (.error (.notReal .action), { n with checks := checks })) ∧
    ∀ text, parse text = .ok (before ++ s :: after) →
      (e.compares = true → run text m =
        (.error "Error trying to process rule \"comp_op\":\n\nlist index out of range", m)) ∧
      ((build (before ++ s :: after)).isOk = true → before ++ after ≠ [] →
        (runTop vs).perform m = (.ok (), n) → ∃ checks, run text m =
          (.error "float() argument must be a string or a real number, not 'function'",
            { n with checks := checks })) := by
  obtain ⟨_, inside, top⟩ := does_of_buildAll before built
  refine ⟨?_, fun ws builtAll reached => ?_, fun text read => ⟨fun compares => ?_, ?_⟩⟩
  · refine e.built.mono fun v fails m => ?_
    obtain ⟨a, rfl, failing⟩ := fails
    rw [Value.run, failing, perform_throw]
  · obtain ⟨_, all, _⟩ := does_of_buildAll (before ++ s :: after) builtAll
    rw [inside] at reached
    rw [all, jobsAll_append, jobsAll]
    exact asks.perform_after unstopped reached false _
  · have failed : e.build = .error comparisonLost := by
      simpa [Built, compares] using e.built
    rw [run_of_parse read, build_error built (asks.build_error failed)]
    exact conclude_error (show ∀ text, comparisonLost ≠ .interrupted text by simp [comparisonLost]) m
  · intro builds others reached
    have several : (before ++ s :: after).length ≠ 1 := mt length_eq_one_iff.mp others
    rw [top] at reached
    obtain ⟨checks, failed⟩ := asks.perform_after unstopped reached true (jobsAll true after)
    refine ⟨checks, ?_⟩
    rw [run_eq_conclude read builds several, jobsAll_append, jobsAll, failed]
    rfl

theorem expression_never_evaluated_sum :
    ∃ checks, run "\x7b\x7d b = a + 2 * a" {} =
      (.error "float() argument must be a string or a real number, not 'function'",
        { checks := checks }) := by
  let twice : Product := .mk (.number ['2']) (.cons .times (.name ['a']) .nil)
  let e : Expr := .plain (.mk (.mk (.name ['a']) .nil) (.cons .plus twice .nil))
  have read : parse "\x7b\x7d b = a + 2 * a" = .ok ([.block []] ++ .assign ['b'] e :: []) :=
    parse_of_lexemes (by decide +kernel)
  have built : buildAll [.block []] = .ok [.action .idle] := rfl
  have ends := expression_never_evaluated (m := {}) (n := {}) (.assign ['b'] e) built [] rfl
  exact (ends.2.2 _ read).2 (by decide +kernel) (by decide) rfl

end Expressions

section Counting

variable {text : String} {program : List Stmt}

theorem run_of_single {s : Stmt} (read : parse text = .ok [s]) (builds : (build [s]).isOk = true)
    (m : Machine) : run text m = (.error "'function' object is not iterable", m) := by
  obtain ⟨v, built⟩ := ok_of_isOk builds
  rw [run_of_parse read, built]
  change conclude ((runBuilt v).perform m) = _
  rw [runBuilt_of_single built]
  rfl

theorem run_of_several (read : parse text = .ok program) (builds : (build program).isOk = true)
    (several : program.length ≠ 1) (m : Machine) :
    (run text m).1 ≠ .error "'function' object is not iterable" := by
  rw [run_eq_conclude read builds several]
  cases outcome : (runJobs (jobsAll true program)).perform m with
  | mk result n =>
      cases result with
      | ok _ => simp [conclude]
      | error fault =>
          cases (runJobs_tame _).fault outcome with
          | interrupted text => simp [conclude]
          | negativeSleep => exact show Ending.error (report .negativeSleep) ≠ _ by decide +kernel
          | neverEnds => exact show Ending.error (report .neverEnds) ≠ _ by decide +kernel
          | notReal => exact show Ending.error (report (.notReal .action)) ≠ _ by decide +kernel

/-- A stray block behind a routine that is never stopped changes nothing if, and only if, there are
two statements or more before it: a routine of one statement fails, and the block adds a second. -/
theorem stray_block_harmless_iff {other : String} (read : parse text = .ok program)
    (readOther : parse other = .ok (program ++ [.block []]))
    (builds : (build program).isOk = true) {m : Machine} (unstopped : m.stop = .never) :
    ((run other m).1 = (run text m).1 ∧ (run other m).2.log = (run text m).2.log ↔
      2 ≤ program.length) ∧
    (program.length = 1 → run text m = (.error "'function' object is not iterable", m)) ∧
    (program.length = 0 → run other m = (.error "'function' object is not iterable", m)) := by
  have buildsOther := build_stray builds
  have single : program.length = 1 → run text m = (.error "'function' object is not iterable", m) := by
    intro one
    obtain ⟨s, rfl⟩ := List.length_eq_one_iff.mp one
    exact run_of_single read builds m
  have none : program.length = 0 → run other m = (.error "'function' object is not iterable", m) := by
    intro zero
    obtain rfl := List.length_eq_zero_iff.mp zero
    exact run_of_single readOther buildsOther m
  refine ⟨⟨fun same => ?_, fun several => ?_⟩, single, none⟩
  · refine Nat.le_of_not_lt fun few => ?_
    obtain zero | one : program.length = 0 ∨ program.length = 1 := by omega
    · apply run_of_several read builds (by omega) m
      rw [← same.1, none zero]
    · apply run_of_several readOther buildsOther (by simp [one]) m
      rw [same.1, single one]
  · have unfolds : Unfolds [] (program ++ [.block []]) program := by
      simpa using Unfolds.here program [] (.block [])
    rw [run_eq_conclude read builds (by omega),
      run_eq_conclude readOther buildsOther (by rw [List.length_append, List.length_singleton]; omega)]
    obtain ⟨endings, alike⟩ := conclude_of_agrees (unfolds.agree unstopped)
    exact ⟨endings, alike.log⟩

theorem stray_block_harmless_iff_wait :
    ¬ ((run "WAIT 1 \x7b\x7d" {}).1 = (run "WAIT 1" {}).1 ∧
      (run "WAIT 1 \x7b\x7d" {}).2.log = (run "WAIT 1" {}).2.log) ∧
    run "WAIT 1" {} = (.error "'function' object is not iterable", {}) := by
  have read : parse "WAIT 1" = .ok [.wait ['1']] := parse_of_lexemes (by decide +kernel)
  have readOther : parse "WAIT 1 \x7b\x7d" = .ok ([.wait ['1']] ++ [.block []]) :=
    parse_of_lexemes (by decide +kernel)
  have ends := stray_block_harmless_iff (m := {}) read readOther (by decide +kernel) rfl
  exact ⟨fun same => absurd (ends.1.mp same) (by decide), ends.2.1 rfl⟩

end Counting

end ThrustBench.Routine
