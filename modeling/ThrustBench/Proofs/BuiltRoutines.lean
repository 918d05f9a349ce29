import ThrustBench.Proofs.Endings
import ThrustBench.Proofs.RoutineNumbers
import ThrustBench.Proofs.RoutineReading

/-!
Which routines can be built.  Two things in the tree of a routine prevent it, at whatever depth they
stand and whether or not they would ever be carried out: a sign of comparison, and a loop whose
count rounds to an infinity.  A run then ends with one failure and has done nothing.  In any other
routine every statement is kept in its place (`built_unless_hindered`).
-/

namespace ThrustBench.Routine

open Grammar (Tree)

inductive Within (t : Tree) : Tree → Prop
  | here : Within t t
  | part {child : Tree} {rule : String} {children : List Tree} : child ∈ children →
      Within t child → Within t (.node rule children)

inductive Hinders : Tree → Prop
  | comparison (parts : List Tree) : Hinders (.node "comp_op" parts)
  | loop {count : List Char} (large : Oversized count) (parts : List Tree) :
      Hinders (.node "repeat" (numberToken count :: parts))

def Hindered (t : Tree) : Prop := ∃ cause, Within cause t ∧ Hinders cause

section Trees

theorem not_hindered_token (name text : String) : ¬Hindered (.token name text) := by
  rintro ⟨cause, within, hinders⟩
  cases within
  cases hinders

theorem hindered_node {rule : String} {children : List Tree} :
    Hindered (.node rule children) ↔
      Hinders (.node rule children) ∨ ∃ child ∈ children, Hindered child := by
  constructor
  · rintro ⟨cause, within, hinders⟩
    cases within with
    | here => exact Or.inl hinders
    | part member inside => exact Or.inr ⟨_, member, cause, inside, hinders⟩
  · rintro (hinders | ⟨child, member, cause, inside, hinders⟩)
    · exact ⟨_, .here, hinders⟩
    · exact ⟨cause, .part member inside, hinders⟩

theorem hindered_inside {rule : String} (noSign : rule ≠ "comp_op") (noLoop : rule ≠ "repeat")
    (children : List Tree) :
    Hindered (.node rule children) ↔ ∃ child ∈ children, Hindered child := by
  rw [hindered_node]
  constructor
  · rintro (hinders | inside)
    · cases hinders with
      | comparison => exact absurd rfl noSign
      | loop => exact absurd rfl noLoop
    · exact inside
  · exact Or.inr

theorem hinders_loop {count : List Char} {parts : List Tree} :
    Hinders (.node "repeat" (numberToken count :: parts)) ↔ Oversized count := by
  constructor
  · intro hinders
    generalize shape : Grammar.Tree.node "repeat" (numberToken count :: parts) = t at hinders
    cases hinders with
    | comparison => simp at shape
    | loop large =>
        simp only [numberToken, Grammar.Tree.node.injEq, List.cons.injEq, Grammar.Tree.token.injEq,
          String.ofList_inj, true_and] at shape
        rw [shape.1]
        exact large
  · intro large
    exact .loop large parts

mutual

theorem Expr.hindered_iff (e : Expr) : Hindered e.tree ↔ e.compares = true := by
  match e with
  | .plain sum =>
      rw [Expr.tree, hindered_inside (by simp) (by simp), Expr.compares, ← sum.hindered_iff]
      simp
  | .compare left _ right =>
      rw [Expr.tree, hindered_inside (by simp) (by simp)]
      have sign : Hindered (.node "comp_op" []) := ⟨_, .here, .comparison []⟩
      simp [Expr.compares, sign]

theorem Sum.hindered_iff (s : Sum) : Hindered s.tree ↔ s.compares = true := by
  match s with
  | .mk first rest =>
      rw [Sum.tree, hindered_inside (by simp) (by simp), Sum.compares, Bool.or_eq_true,
        ← first.hindered_iff, ← rest.hindered_iff]
      simp

theorem Terms.hindered_iff (ts : Terms) :
    (∃ t ∈ ts.trees, Hindered t) ↔ ts.compares = true := by
  match ts with
  | .nil => simp [Terms.trees, Terms.compares]
  | .cons _ next rest =>
      rw [Terms.trees, Terms.compares, Bool.or_eq_true, ← next.hindered_iff, ← rest.hindered_iff]
      simp

theorem Product.hindered_iff (p : Product) : Hindered p.tree ↔ p.compares = true := by
  match p with
  | .mk first rest =>
      rw [Product.tree, hindered_inside (by simp) (by simp), Product.compares,
        Bool.or_eq_true, ← first.hindered_iff, ← rest.hindered_iff]
      simp

theorem Factors.hindered_iff (fs : Factors) :
    (∃ t ∈ fs.trees, Hindered t) ↔ fs.compares = true := by
  match fs with
  | .nil => simp [Factors.trees, Factors.compares]
  | .cons _ next rest =>
      rw [Factors.trees, Factors.compares, Bool.or_eq_true, ← next.hindered_iff,
        ← rest.hindered_iff]
      simp

theorem Atom.hindered_iff (a : Atom) : Hindered a.tree ↔ a.compares = true := by
  match a with
  | .number text =>
      rw [Atom.tree, hindered_inside (by simp) (by simp)]
      simp [Atom.compares, numberToken, not_hindered_token]
  | .name text =>
      rw [Atom.tree, hindered_inside (by simp) (by simp)]
      simp [Atom.compares, nameToken, not_hindered_token]
  | .group inner =>
      rw [Atom.tree, Atom.compares]
      exact inner.hindered_iff

end

end Trees

section Outcomes

def countLost : Fault := .command "repeat" .infinityToWhole

inductive Outcome {α : Type} (hindered : Prop) (P : α → Prop) : Except Fault α → Prop
  | ok {a : α} (free : ¬hindered) (holds : P a) : Outcome hindered P (.ok a)
  | error {fault : Fault} (because : hindered)
      (cause : fault = comparisonLost ∨ fault = countLost) : Outcome hindered P (.error fault)

variable {α β : Type} {P : α → Prop} {Q : β → Prop} {first second : Prop}

theorem Outcome.pure {a : α} (holds : P a) : Outcome False P (.ok a) := .ok not_false holds

theorem Outcome.mono {Q : α → Prop} {r : Except Fault α} (built : Outcome first P r)
    (weaker : ∀ a, P a → Q a) : Outcome first Q r := by
  cases built with
  | ok free holds => exact .ok free (weaker _ holds)
  | error because cause => exact .error because cause

theorem Outcome.bind {r : Except Fault α} {next : α → Except Fault β} (built : Outcome first P r)
    (later : ∀ a, P a → Outcome second Q (next a)) : Outcome (first ∨ second) Q (r >>= next) := by
  cases built with
  | error because cause => exact .error (Or.inl because) cause
  | @ok a free holds =>
      have rest := later a holds
      change Outcome (first ∨ second) Q (next a)
      generalize next a = s at rest ⊢
      cases rest with
      | error because cause => exact .error (Or.inr because) cause
      | ok freeToo good => exact .ok (not_or.mpr ⟨free, freeToo⟩) good

theorem Outcome.bind_ok {r : Except Fault α} {next : α → Except Fault β} (built : Outcome first P r)
    (later : ∀ a, P a → ∃ b, next a = .ok b ∧ Q b) : Outcome first Q (r >>= next) := by
  rw [← or_false first]
  refine built.bind fun a holds => ?_
  obtain ⟨b, made, good⟩ := later a holds
  rw [made]
  exact Outcome.pure good

theorem Outcome.of_iff {r : Except Fault α} (built : Outcome first P r) (same : second ↔ first) :
    Outcome second P r := by
  rwa [propext same]

theorem Expr.outcome (e : Expr) : Outcome (Hindered e.tree) (fun v => e.build = .ok v) e.build := by
  have built := e.built
  rw [e.hindered_iff]
  cases compares : e.compares with
  | true =>
      have failed : e.build = .error comparisonLost := by simpa [Built, compares] using built
      rw [failed]
      exact .error rfl (Or.inl rfl)
  | false =>
      obtain ⟨v, made, _⟩ : ∃ v, e.build = .ok v ∧ v.Fails := by simpa [Built, compares] using built
      rw [made]
      exact .ok (by simp) rfl

end Outcomes

section Statements

/-- A statement is kept as a value: an action that holds what the statement names, the value of its
expression, and its blocks with each of their statements in its place. -/
inductive Stmt.KeptAs : Stmt → Value → Prop
  | setPwm (channel value : List Char) : KeptAs (.setPwm channel value)
      (.action (.setPwm (nameValue channel) (numberValue value)))
  | wait (seconds : List Char) : KeptAs (.wait seconds) (.action (.wait (spelled seconds)))
  | readSensor (sensor : List Char) : KeptAs (.readSensor sensor)
      (.action (.readSensor (nameValue sensor)))
  | readAssign (target sensor : List Char) : KeptAs (.readAssign target sensor)
      (.action (.readAssign (nameValue target) (nameValue sensor)))
  | assign {value : Expr} {v : Value} (target : List Char) : value.build = .ok v →
      KeptAs (.assign target value) (.action (.assign (nameValue target) v))
  | branch {condition : Expr} {c : Value} {whenTrue : List Stmt} {ts : List Value} :
      condition.build = .ok c → List.Forall₂ KeptAs whenTrue ts →
      KeptAs (.branch condition whenTrue) (.action (.branch c ts []))
  | branchElse {condition : Expr} {c : Value} {whenTrue whenFalse : List Stmt}
      {ts fs : List Value} : condition.build = .ok c → List.Forall₂ KeptAs whenTrue ts →
      List.Forall₂ KeptAs whenFalse fs →
      KeptAs (.branchElse condition whenTrue whenFalse) (.action (.branch c ts fs))
  | loop {body : List Stmt} {vs : List Value} (count : List Char) : List.Forall₂ KeptAs body vs →
      KeptAs (.loop count body) (.action (.loop (spelled count).truncate vs))
  /-- A stray block is kept as a statement that does nothing. -/
  | block (body : List Stmt) : KeptAs (.block body) (.action .idle)

theorem Stmt.KeptAs.isAction {s : Stmt} {v : Value} (kept : s.KeptAs v) : v.isAction = true := by
  cases kept <;> rfl

theorem kept_actions {ss : List Stmt} {vs : List Value} (kept : List.Forall₂ Stmt.KeptAs ss vs) :
    ∀ v ∈ vs, v.isAction = true := by
  induction kept with
  | nil => simp
  | cons keptAs _ ih => exact List.forall_mem_cons.mpr ⟨keptAs.isAction, ih⟩

def Fitting (lexemes : List Lexeme) : Prop := ∀ l ∈ lexemes, l.1.Fits l.2

theorem fitting_append {before after : List Lexeme} :
    Fitting (before ++ after) ↔ Fitting before ∧ Fitting after := List.forall_mem_append

theorem fitting_cons {l : Lexeme} {lexemes : List Lexeme} :
    Fitting (l :: lexemes) ↔ l.1.Fits l.2 ∧ Fitting lexemes := List.forall_mem_cons

theorem Covers.fitting {lexemes : List Lexeme} {cs : List Char} (covers : Covers lexemes cs) :
    Fitting lexemes := by
  induction covers with
  | done => simp [Fitting]
  | next _ longest _ ih => exact fitting_cons.mpr ⟨longest.1, ih⟩

theorem fitting_braced {body : List Stmt} :
    Fitting (braced (lexemesAll body)) → Fitting (lexemesAll body) := by
  intro fits
  rw [braced, fitting_cons, fitting_append] at fits
  exact fits.2.1

theorem hindered_block (body : List Stmt) :
    Hindered (.node "block" (trees body)) ↔ ∃ t ∈ trees body, Hindered t :=
  hindered_inside (by simp) (by simp) _

theorem Outcome.block {body : List Stmt} {first second : Prop} {Q : Value → Prop}
    {next : Value → Except Fault Value}
    (built : Outcome first (List.Forall₂ Stmt.KeptAs body) (buildAll body))
    (later : ∀ vs, List.Forall₂ Stmt.KeptAs body vs → Outcome second Q (next (.list vs))) :
    Outcome (first ∨ second) Q (do next (← Part.block.make (← buildAll body))) := by
  refine built.bind fun vs kept => ?_
  rw [make_block vs (kept_actions kept)]
  exact later vs kept

theorem loop_outcome {count : List Char} {body : List Stmt} {vs : List Value}
    (number : IsNumber count) (kept : List.Forall₂ Stmt.KeptAs body vs) :
    Outcome (Oversized count) (Stmt.loop count body).KeptAs
      (Part.loop.make [numberValue count, .list vs]) := by
  have known := spelled_ne_nan number
  have action := Stmt.KeptAs.loop count kept
  rw [← spelled_infinite_iff number, numberValue]
  generalize spelled count = x at known action ⊢
  cases x with
  | nan => exact absurd rfl known
  | infinity negative => exact .error rfl (Or.inr rfl)
  | finite negative steps => exact .ok (by simp [Binary64.isInfinite]) action

mutual

theorem Stmt.outcome (s : Stmt) (fits : Fitting s.lexemes) :
    Outcome (Hindered s.tree) s.KeptAs s.build := by
  match s with
  | .setPwm channel value =>
      refine (Outcome.pure (Stmt.KeptAs.setPwm channel value)).of_iff ?_
      rw [Stmt.tree, hindered_inside (by simp) (by simp)]
      simp [nameToken, numberToken, not_hindered_token]
  | .wait seconds =>
      refine (Outcome.pure (Stmt.KeptAs.wait seconds)).of_iff ?_
      rw [Stmt.tree, hindered_inside (by simp) (by simp)]
      simp [numberToken, not_hindered_token]
  | .readSensor sensor =>
      refine (Outcome.pure (Stmt.KeptAs.readSensor sensor)).of_iff ?_
      rw [Stmt.tree, hindered_inside (by simp) (by simp)]
      simp [nameToken, not_hindered_token]
  | .readAssign target sensor =>
      refine (Outcome.pure (Stmt.KeptAs.readAssign target sensor)).of_iff ?_
      rw [Stmt.tree, hindered_inside (by simp) (by simp)]
      simp [nameToken, not_hindered_token]
  | .assign target value =>
      rw [Stmt.tree, Stmt.build]
      apply Outcome.of_iff
      · exact value.outcome.bind_ok fun v made => ⟨_, rfl, .assign target made⟩
      · rw [hindered_inside (by simp) (by simp)]
        simp [nameToken, not_hindered_token]
  | .branch condition whenTrue =>
      rw [Stmt.lexemes, fitting_cons, fitting_append, fitting_cons] at fits
      have inner := buildAll_outcome whenTrue (fitting_braced fits.2.2.2)
      rw [Stmt.tree, Stmt.build]
      apply Outcome.of_iff
      · exact condition.outcome.bind fun c made => inner.block fun ts kept =>
          Outcome.pure (.branch made kept)
      · rw [hindered_inside (by simp) (by simp)]
        simp [hindered_block]
  | .branchElse condition whenTrue whenFalse =>
      rw [Stmt.lexemes, fitting_cons, fitting_append, fitting_cons, fitting_append,
        fitting_cons] at fits
      have inner := buildAll_outcome whenTrue (fitting_braced fits.2.2.2.1)
      have other := buildAll_outcome whenFalse (fitting_braced fits.2.2.2.2.2)
      rw [Stmt.tree, Stmt.build]
      apply Outcome.of_iff
      · exact condition.outcome.bind fun c made => inner.block fun ts kept =>
          other.block fun fs rest => Outcome.pure (.branchElse made kept rest)
      · rw [hindered_inside (by simp) (by simp)]
        simp [hindered_block]
  | .loop count body =>
      rw [Stmt.lexemes, fitting_cons, fitting_cons] at fits
      have inner := buildAll_outcome body (fitting_braced fits.2.2)
      have number : IsNumber count := fits.2.1
      rw [Stmt.tree, Stmt.build]
      apply Outcome.of_iff
      · exact inner.block fun vs kept => loop_outcome number kept
      · rw [hindered_node, hinders_loop]
        simp [hindered_block, numberToken, not_hindered_token, or_comm]
  | .block body =>
      rw [Stmt.lexemes] at fits
      have inner := buildAll_outcome body (fitting_braced fits)
      rw [Stmt.tree, Stmt.build]
      apply Outcome.of_iff
      · exact inner.block fun vs kept => Outcome.pure (.block body)
      · rw [hindered_inside (by simp) (by simp)]
        simp [hindered_block]

theorem buildAll_outcome (ss : List Stmt) (fits : Fitting (lexemesAll ss)) :
    Outcome (∃ t ∈ trees ss, Hindered t) (List.Forall₂ Stmt.KeptAs ss) (buildAll ss) := by
  match ss with
  | [] => exact (Outcome.pure .nil).of_iff (by simp [trees])
  | s :: ss =>
      rw [lexemesAll, fitting_append] at fits
      rw [trees, buildAll]
      apply Outcome.of_iff
      · exact (s.outcome fits.1).bind fun v kept => (buildAll_outcome ss fits.2).bind_ok
          fun vs others => ⟨v :: vs, rfl, .cons kept others⟩
      · simp

end

/-- The value of a routine keeps all of its statements in order: a single one as its value, and any
other number of them as a list. -/
inductive Keeps : List Stmt → Value → Prop
  | single {s : Stmt} {v : Value} : s.KeptAs v → Keeps [s] v
  | several {program : List Stmt} {vs : List Value} : program.length ≠ 1 →
      List.Forall₂ Stmt.KeptAs program vs → Keeps program (.list vs)

theorem build_outcome {program : List Stmt} (fits : Fitting (lexemesAll program)) :
    Outcome (Hindered (tree program)) (Keeps program) (build program) := by
  by_cases one : program.length = 1
  · obtain ⟨s, rfl⟩ := List.length_eq_one_iff.mp one
    rw [lexemesAll, fitting_append] at fits
    exact (s.outcome fits.1).mono fun v kept => .single kept
  · have shape : tree program = .node "start" (trees program) := by
      unfold tree
      split
      · simp at one
      · rfl
    rw [build_eq_of_several one, shape, hindered_inside (by simp) (by simp)]
    refine (buildAll_outcome program fits).bind_ok fun vs kept => ?_
    have all := List.filter_eq_self.mpr (kept_actions kept)
    exact ⟨.list vs, by rw [Part.make, Part.build, Part.keepActions, all], .several one kept⟩

end Statements

/-- A routine that was read is not built exactly if its tree holds a comparison or a loop whose
count rounds to an infinity, wherever it stands.  A run then reports the one failure and leaves the
machine as it was; what is built keeps every statement, at the top and in each block, in its
place. -/
theorem built_unless_hindered {text : String} {program : List Stmt}
    (read : parse text = .ok program) :
    ((∃ fault, build program = .error fault) ↔ Hindered (tree program)) ∧
    (∀ fault, build program = .error fault → (fault = comparisonLost ∨ fault = countLost) ∧
      ∀ m, run text m = (.error (report fault), m)) ∧
    ∀ v, build program = .ok v → Keeps program v := by
  have outcome := build_outcome (parse_ok read).fitting
  generalize made : build program = r at outcome
  cases outcome with
  | @error fault because cause =>
      refine ⟨⟨fun _ => because, fun _ => ⟨fault, rfl⟩⟩, ?_, by simp⟩
      rintro _ ⟨⟩
      refine ⟨cause, fun m => ?_⟩
      have other : ∀ text, fault ≠ .interrupted text := by
        rcases cause with rfl | rfl <;> simp [comparisonLost, countLost]
      rw [run_of_parse read, made]
      exact conclude_error other m
  | ok free keeps =>
      refine ⟨⟨by simp, fun because => absurd because free⟩, by simp, ?_⟩
      rintro _ ⟨⟩
      exact keeps

def unentered : List Stmt :=
  [.wait ['1'], .loop ['0'] [.branch (.compare (.mk (.mk (.name ['a']) .nil) .nil) .less
    (.mk (.mk (.number ['1']) .nil) .nil)) []]]

def nested : List Stmt :=
  [.branchElse (.plain (.mk (.mk (.name ['a']) .nil) .nil)) [.wait ['1'], .block []]
    [.loop ['2'] [.readSensor ['b']]], .block []]

theorem built_unless_hindered_unentered :
    Hindered (tree unentered) ∧
      run "WAIT 1 REPEAT 0\x7bIF a < 1 THEN \x7b\x7d\x7d" {} =
        (.error "Error trying to process rule \"comp_op\":\n\nlist index out of range", {}) ∧
      ∃ v, build nested = .ok v ∧ Keeps nested v := by
  have readFirst : parse "WAIT 1 REPEAT 0\x7bIF a < 1 THEN \x7b\x7d\x7d" = .ok unentered :=
    parse_of_lexemes (by decide +kernel)
  have readSecond :
      parse "IF a THEN \x7bWAIT 1 \x7b\x7d\x7d ELSE \x7bREPEAT 2\x7bREAD_SENSOR b\x7d\x7d \x7b\x7d" =
        .ok nested := parse_of_lexemes (by decide +kernel)
  have failed : build unentered = .error comparisonLost := rfl
  have first := built_unless_hindered readFirst
  have second := built_unless_hindered readSecond
  refine ⟨first.1.mp ⟨_, failed⟩, (first.2.1 _ failed).2 {}, ?_⟩
  obtain ⟨v, made⟩ := ok_of_isOk (r := build nested) (by decide +kernel)
  exact ⟨v, made, second.2.2 v made⟩

end ThrustBench.Routine
