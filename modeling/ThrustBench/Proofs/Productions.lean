import ThrustBench.Routine.Term

/-!
Grammars as data, and the grammar of routines.  A rule has alternatives, each built from terminals
and rules, and a derivation leaves a tree.  The derivations of a routine are its terms: what is
derived from `start` is what a list of statements is written with, and its tree
(`derives_start_iff`).
-/

namespace ThrustBench.Grammar

inductive Form (ρ τ : Type) where
  | literal (lexeme : τ × List Char)
  | token (t : τ)
  | rule (r : ρ)
  | empty
  | andThen (first second : Form ρ τ)
  | orElse (first second : Form ρ τ)
  | maybe (part : Form ρ τ)
  | many (part : Form ρ τ)

def Form.inOrder {ρ τ : Type} : List (Form ρ τ) → Form ρ τ
  | [] => .empty
  | first :: rest => .andThen first (inOrder rest)

/-- A grammar.  Each alternative of a rule can have a name for its nodes; without one the nodes
have the name of the rule, and a rule that is inlined leaves no node around a single part. -/
structure Productions (ρ τ : Type) where
  tokenName : τ → String
  ruleName : ρ → String
  inlined : ρ → Bool
  alternatives : ρ → List (Form ρ τ × Option String)

namespace Productions

variable {ρ τ : Type} (g : Productions ρ τ)

def shape (r : ρ) : Option String → List Tree → Tree
  | some node, parts => .node node parts
  | none, [part] => if g.inlined r then part else .node (g.ruleName r) [part]
  | none, parts => .node (g.ruleName r) parts

/-- Terminals with their texts are derived from a form and leave parts of a tree. -/
inductive Derives : Form ρ τ → List (τ × List Char) → List Tree → Prop
  | literal {lexeme} : Derives (.literal lexeme) [lexeme] []
  | token {t text} : Derives (.token t) [(t, text)] [.token (g.tokenName t) (String.ofList text)]
  | rule {r form node lexemes parts} : (form, node) ∈ g.alternatives r →
      Derives form lexemes parts → Derives (.rule r) lexemes [g.shape r node parts]
  | empty : Derives .empty [] []
  | andThen {first second lexemes parts lexemes' parts'} : Derives first lexemes parts →
      Derives second lexemes' parts' →
      Derives (.andThen first second) (lexemes ++ lexemes') (parts ++ parts')
  | orElseLeft {first second lexemes parts} : Derives first lexemes parts →
      Derives (.orElse first second) lexemes parts
  | orElseRight {first second lexemes parts} : Derives second lexemes parts →
      Derives (.orElse first second) lexemes parts
  | without {part} : Derives (.maybe part) [] []
  | once {part lexemes parts} : Derives part lexemes parts → Derives (.maybe part) lexemes parts
  | none {part} : Derives (.many part) [] []
  | more {part lexemes parts lexemes' parts'} : Derives part lexemes parts →
      Derives (.many part) lexemes' parts' →
      Derives (.many part) (lexemes ++ lexemes') (parts ++ parts')

theorem Derives.of_eq {g : Productions ρ τ} {form : Form ρ τ}
    {lexemes lexemes' : List (τ × List Char)} {parts parts' : List Tree}
    (derives : g.Derives form lexemes parts) (sameLexemes : lexemes' = lexemes)
    (sameParts : parts' = parts) : g.Derives form lexemes' parts' := by
  rw [sameLexemes, sameParts]
  exact derives

def Denotes (I : ρ → List (τ × List Char) → List Tree → Prop) :
    Form ρ τ → List (τ × List Char) → List Tree → Prop
  | .literal lexeme, lexemes, parts => lexemes = [lexeme] ∧ parts = []
  | .token t, lexemes, parts =>
    ∃ text, lexemes = [(t, text)] ∧ parts = [.token (g.tokenName t) (String.ofList text)]
  | .rule r, lexemes, parts => I r lexemes parts
  | .empty, lexemes, parts => lexemes = [] ∧ parts = []
  | .andThen first second, lexemes, parts =>
    ∃ l t, Denotes I first l t ∧
      ∃ l' t', Denotes I second l' t' ∧ lexemes = l ++ l' ∧ parts = t ++ t'
  | .orElse first second, lexemes, parts =>
    Denotes I first lexemes parts ∨ Denotes I second lexemes parts
  | .maybe part, lexemes, parts => lexemes = [] ∧ parts = [] ∨ Denotes I part lexemes parts
  | .many part, lexemes, parts =>
    ∃ each : List (List (τ × List Char) × List Tree), (∀ e ∈ each, Denotes I part e.1 e.2) ∧
      lexemes = (each.map Prod.fst).flatten ∧ parts = (each.map Prod.snd).flatten

variable {g}

theorem Derives.denotes {I : ρ → List (τ × List Char) → List Tree → Prop}
    (closed : ∀ r form node, (form, node) ∈ g.alternatives r → ∀ lexemes parts,
      g.Denotes I form lexemes parts → I r lexemes [g.shape r node parts])
    {form : Form ρ τ} {lexemes : List (τ × List Char)} {parts : List Tree}
    (derives : g.Derives form lexemes parts) : g.Denotes I form lexemes parts := by
  induction derives with
  | literal => exact ⟨rfl, rfl⟩
  | token => exact ⟨_, rfl, rfl⟩
  | rule member _ ih => exact closed _ _ _ member _ _ ih
  | empty => exact ⟨rfl, rfl⟩
  | andThen _ _ first second => exact ⟨_, _, first, _, _, second, rfl, rfl⟩
  | orElseLeft _ ih => exact Or.inl ih
  | orElseRight _ ih => exact Or.inr ih
  | without => exact Or.inl ⟨rfl, rfl⟩
  | once _ ih => exact Or.inr ih
  | none => exact ⟨[], by simp, rfl, rfl⟩
  | @more _ lexemes parts _ _ _ _ first rest =>
      obtain ⟨each, all, rfl, rfl⟩ := rest
      exact ⟨(lexemes, parts) :: each, List.forall_mem_cons.mpr ⟨first, all⟩, rfl, rfl⟩

section Steps

variable {I : ρ → List (τ × List Char) → List Tree → Prop} {rest : List (Form ρ τ)}
  {lexemes : List (τ × List Char)} {parts : List Tree}

theorem Denotes.after_literal {lexeme : τ × List Char}
    (denotes : g.Denotes I (.inOrder (.literal lexeme :: rest)) lexemes parts) :
    ∃ behind, lexemes = lexeme :: behind ∧ g.Denotes I (.inOrder rest) behind parts := by
  obtain ⟨_, _, ⟨rfl, rfl⟩, behind, left, later, rfl, rfl⟩ := denotes
  exact ⟨behind, rfl, later⟩

theorem Denotes.after_token {t : τ}
    (denotes : g.Denotes I (.inOrder (.token t :: rest)) lexemes parts) :
    ∃ text behind left, lexemes = (t, text) :: behind ∧
      parts = .token (g.tokenName t) (String.ofList text) :: left ∧
      g.Denotes I (.inOrder rest) behind left := by
  obtain ⟨_, _, ⟨text, rfl, rfl⟩, behind, left, later, rfl, rfl⟩ := denotes
  exact ⟨text, behind, left, rfl, rfl, later⟩

end Steps

theorem Denotes.collect {α : Type} {I : ρ → List (τ × List Char) → List Tree → Prop}
    {part : Form ρ τ} (written : α → List (τ × List Char)) (shown : α → Tree)
    (one : ∀ lexemes parts, g.Denotes I part lexemes parts →
      ∃ a, lexemes = written a ∧ parts = [shown a])
    {lexemes : List (τ × List Char)} {parts : List Tree}
    (many : g.Denotes I (.many part) lexemes parts) :
    ∃ as : List α, lexemes = as.flatMap written ∧ parts = as.map shown := by
  obtain ⟨each, all, rfl, rfl⟩ := many
  induction each with
  | nil => exact ⟨[], rfl, rfl⟩
  | cons first rest ih =>
      obtain ⟨a, here, shownHere⟩ := one first.1 first.2 (all first (by simp))
      obtain ⟨as, later, shownLater⟩ := ih fun e member => all e (by simp [member])
      exact ⟨a :: as, by simp [here, later], by simp [shownHere, shownLater]⟩

end Productions

end ThrustBench.Grammar

namespace ThrustBench.Routine

open Grammar (Form Productions Tree)

inductive RuleName where
  | start
  | statement
  | setPwm
  | wait
  | readStmt
  | assign
  | ifStmt
  | loop
  | block
  | expr
  | sum
  | product
  | atom
  | compOp

def RuleName.text : RuleName → String
  | start => "start"
  | statement => "statement"
  | setPwm => "set_pwm"
  | wait => "wait"
  | readStmt => "read_stmt"
  | assign => "assign"
  | ifStmt => "if_stmt"
  | loop => "repeat"
  | block => "block"
  | expr => "expr"
  | sum => "sum"
  | product => "product"
  | atom => "atom"
  | compOp => "comp_op"

def RuleName.inlined : RuleName → Bool
  | start | statement | expr | sum | product | atom => true
  | setPwm | wait | readStmt | assign | ifStmt | loop | block | compOp => false

abbrev keywordForm (k : Keyword) : Form RuleName Terminal := .literal (lexKeyword k)
abbrev signForm (s : Sign) : Form RuleName Terminal := .literal (lexSign s)

def RuleName.alternatives : RuleName → List (Form RuleName Terminal × Option String)
  | start => [(.many (.rule statement), none)]
  | statement =>
    [(.rule setPwm, none), (.rule wait, none), (.rule readStmt, none), (.rule assign, none),
     (.rule ifStmt, none), (.rule loop, none), (.rule block, some "bare_block")]
  | setPwm => [(.inOrder [keywordForm .setPwm, .token .name, .token .number], some "set_pwm")]
  | wait => [(.inOrder [keywordForm .wait, .token .number], some "wait")]
  | readStmt =>
    [(.inOrder [keywordForm .readSensor, .token .name], some "read_sensor"),
     (.inOrder [.token .name, signForm .assign, keywordForm .readSensor, .token .name],
      some "read_assign")]
  | assign => [(.inOrder [.token .name, signForm .assign, .rule expr], some "assign")]
  | ifStmt =>
    [(.inOrder [keywordForm .branch, .rule expr, keywordForm .whenTrue, .rule block,
        .maybe (.inOrder [keywordForm .whenFalse, .rule block])], some "if_stmt")]
  | loop => [(.inOrder [keywordForm .loop, .token .number, .rule block], some "repeat")]
  | block =>
    [(.inOrder [signForm .openBrace, .many (.rule statement), signForm .closeBrace], none)]
  | expr => [(.inOrder [.rule sum, .maybe (.inOrder [.rule compOp, .rule sum])], some "cmp")]
  | sum =>
    [(.inOrder [.rule product,
        .many (.inOrder [.orElse (signForm .plus) (signForm .minus), .rule product])],
      some "fold_bin")]
  | product =>
    [(.inOrder [.rule atom,
        .many (.inOrder [.orElse (signForm .times) (signForm .divide), .rule atom])],
      some "fold_bin")]
  | atom =>
    [(.token .number, some "number"), (.token .name, some "var"),
     (.inOrder [signForm .openParen, .rule expr, signForm .closeParen], none)]
  | compOp => Comparison.all.map fun c => (.literal (.comparison c, c.text.toList), none)

def productions : Productions RuleName Terminal :=
  ⟨Terminal.label, RuleName.text, RuleName.inlined, RuleName.alternatives⟩

def Means : RuleName → List Lexeme → List Tree → Prop
  | .start, lexemes, parts => ∃ program, lexemes = lexemesAll program ∧ parts = [tree program]
  | .block, lexemes, parts =>
    ∃ body, lexemes = braced (lexemesAll body) ∧ parts = [.node "block" (trees body)]
  | .expr, lexemes, parts => ∃ e : Expr, lexemes = e.lexemes ∧ parts = [e.tree]
  | .sum, lexemes, parts => ∃ s : Sum, lexemes = s.lexemes ∧ parts = [s.tree]
  | .product, lexemes, parts => ∃ p : Product, lexemes = p.lexemes ∧ parts = [p.tree]
  | .atom, lexemes, parts => ∃ a : Atom, lexemes = a.lexemes ∧ parts = [a.tree]
  | .compOp, lexemes, parts =>
    ∃ c : Comparison, lexemes = [(.comparison c, c.text.toList)] ∧ parts = [.node "comp_op" []]
  | .statement, lexemes, parts | .setPwm, lexemes, parts | .wait, lexemes, parts
  | .readStmt, lexemes, parts | .assign, lexemes, parts | .ifStmt, lexemes, parts
  | .loop, lexemes, parts => ∃ s : Stmt, lexemes = s.lexemes ∧ parts = [s.tree]

theorem lexemesAll_eq_flatMap (body : List Stmt) : lexemesAll body = body.flatMap Stmt.lexemes := by
  induction body with
  | nil => simp [lexemesAll]
  | cons s body ih => simp [lexemesAll, ih]

theorem trees_eq_map (body : List Stmt) : trees body = body.map Stmt.tree := by
  induction body with
  | nil => simp [trees]
  | cons s body ih => simp [trees, ih]

theorem Terms.lexemes_ofList (ts : List (AddOp × Product)) :
    (ofList ts).lexemes = ts.flatMap fun t => lexSign t.1.sign :: t.2.lexemes := by
  induction ts with
  | nil => simp [ofList, Terms.lexemes]
  | cons t ts ih => simp [ofList, Terms.lexemes, ih]

theorem Terms.trees_ofList (ts : List (AddOp × Product)) :
    (ofList ts).trees = ts.map fun t => t.2.tree := by
  induction ts with
  | nil => simp [ofList, Terms.trees]
  | cons t ts ih => simp [ofList, Terms.trees, ih]

theorem Factors.lexemes_ofList (fs : List (MulOp × Atom)) :
    (ofList fs).lexemes = fs.flatMap fun f => lexSign f.1.sign :: f.2.lexemes := by
  induction fs with
  | nil => simp [ofList, Factors.lexemes]
  | cons f fs ih => simp [ofList, Factors.lexemes, ih]

theorem Factors.trees_ofList (fs : List (MulOp × Atom)) :
    (ofList fs).trees = fs.map fun f => f.2.tree := by
  induction fs with
  | nil => simp [ofList, Factors.trees]
  | cons f fs ih => simp [ofList, Factors.trees, ih]

theorem means_statements {lexemes : List Lexeme} {parts : List Tree}
    (many : productions.Denotes Means (.many (.rule .statement)) lexemes parts) :
    ∃ body, lexemes = lexemesAll body ∧ parts = trees body := by
  simp only [lexemesAll_eq_flatMap, trees_eq_map]
  refine many.collect Stmt.lexemes Stmt.tree ?_
  intro _ _ one
  exact one

theorem means_term {lexemes : List Lexeme} {parts : List Tree}
    (one : productions.Denotes Means
      (.inOrder [.orElse (signForm .plus) (signForm .minus), .rule .product]) lexemes parts) :
    ∃ t : AddOp × Product, lexemes = lexSign t.1.sign :: t.2.lexemes ∧ parts = [t.2.tree] := by
  obtain ⟨_, _, sign, _, _, ⟨_, _, ⟨p, rfl, rfl⟩, _, _, ⟨rfl, rfl⟩, rfl, rfl⟩, rfl, rfl⟩ := one
  rcases sign with ⟨rfl, rfl⟩ | ⟨rfl, rfl⟩
  · exact ⟨(.plus, p), by simp [AddOp.sign], by simp⟩
  · exact ⟨(.minus, p), by simp [AddOp.sign], by simp⟩

theorem means_factor {lexemes : List Lexeme} {parts : List Tree}
    (one : productions.Denotes Means
      (.inOrder [.orElse (signForm .times) (signForm .divide), .rule .atom]) lexemes parts) :
    ∃ f : MulOp × Atom, lexemes = lexSign f.1.sign :: f.2.lexemes ∧ parts = [f.2.tree] := by
  obtain ⟨_, _, sign, _, _, ⟨_, _, ⟨a, rfl, rfl⟩, _, _, ⟨rfl, rfl⟩, rfl, rfl⟩, rfl, rfl⟩ := one
  rcases sign with ⟨rfl, rfl⟩ | ⟨rfl, rfl⟩
  · exact ⟨(.times, a), by simp [MulOp.sign], by simp⟩
  · exact ⟨(.divide, a), by simp [MulOp.sign], by simp⟩

theorem shape_start (program : List Stmt) :
    productions.shape .start none (trees program) = tree program := by
  match program with
  | [] => rfl
  | [s] => simp [trees, tree, Productions.shape, productions, RuleName.inlined]
  | s :: s' :: ss => simp [trees, tree, Productions.shape, productions, RuleName.text]

theorem shape_block (parts : List Tree) :
    productions.shape .block none parts = .node "block" parts := by
  match parts with
  | [] => rfl
  | [_] => rfl
  | _ :: _ :: _ => rfl

theorem means_closed : ∀ r form node, (form, node) ∈ productions.alternatives r →
    ∀ lexemes parts, productions.Denotes Means form lexemes parts →
      Means r lexemes [productions.shape r node parts] := by
  intro r form node member lexemes parts denotes
  cases r with
  | start =>
      obtain ⟨rfl, rfl⟩ := Prod.mk.inj (List.mem_singleton.mp member)
      obtain ⟨program, rfl, rfl⟩ := means_statements denotes
      exact ⟨program, rfl, by rw [shape_start]⟩
  | statement =>
      simp only [productions, RuleName.alternatives, List.mem_cons, List.not_mem_nil, or_false,
        Prod.mk.injEq] at member
      -- only the last alternative has a name; the others leave what their rules leave
      rcases member with plain | plain | plain | plain | plain | plain | ⟨rfl, rfl⟩
      case inr.inr.inr.inr.inr.inr =>
        obtain ⟨body, rfl, rfl⟩ := denotes
        exact ⟨.block body, by simp [Stmt.lexemes], by simp [Stmt.tree, Productions.shape]⟩
      all_goals
        obtain ⟨rfl, rfl⟩ := plain
        obtain ⟨s, rfl, rfl⟩ := denotes
        exact ⟨s, rfl, rfl⟩
  | setPwm =>
      obtain ⟨rfl, rfl⟩ := Prod.mk.inj (List.mem_singleton.mp member)
      obtain ⟨_, rfl, later⟩ := denotes.after_literal
      obtain ⟨channel, _, _, rfl, rfl, last⟩ := later.after_token
      obtain ⟨value, _, _, rfl, rfl, rfl, rfl⟩ := last.after_token
      exact ⟨.setPwm channel value, by rw [Stmt.lexemes]; rfl, by rw [Stmt.tree]; rfl⟩
  | wait =>
      obtain ⟨rfl, rfl⟩ := Prod.mk.inj (List.mem_singleton.mp member)
      obtain ⟨_, rfl, last⟩ := denotes.after_literal
      obtain ⟨seconds, _, _, rfl, rfl, rfl, rfl⟩ := last.after_token
      exact ⟨.wait seconds, by rw [Stmt.lexemes]; rfl, by rw [Stmt.tree]; rfl⟩
  | readStmt =>
      rcases List.mem_cons.mp member with plain | member
      · obtain ⟨rfl, rfl⟩ := Prod.mk.inj plain
        obtain ⟨_, rfl, last⟩ := denotes.after_literal
        obtain ⟨sensor, _, _, rfl, rfl, rfl, rfl⟩ := last.after_token
        exact ⟨.readSensor sensor, by rw [Stmt.lexemes]; rfl, by rw [Stmt.tree]; rfl⟩
      · obtain ⟨rfl, rfl⟩ := Prod.mk.inj (List.mem_singleton.mp member)
        obtain ⟨target, _, _, rfl, rfl, later⟩ := denotes.after_token
        obtain ⟨_, rfl, further⟩ := later.after_literal
        obtain ⟨_, rfl, last⟩ := further.after_literal
        obtain ⟨sensor, _, _, rfl, rfl, rfl, rfl⟩ := last.after_token
        exact ⟨.readAssign target sensor, by rw [Stmt.lexemes]; rfl, by rw [Stmt.tree]; rfl⟩
  | assign =>
      obtain ⟨rfl, rfl⟩ := Prod.mk.inj (List.mem_singleton.mp member)
      obtain ⟨target, _, _, rfl, rfl, later⟩ := denotes.after_token
      obtain ⟨_, rfl, _, _, ⟨value, rfl, rfl⟩, _, _, ⟨rfl, rfl⟩, rfl, rfl⟩ := later.after_literal
      exact ⟨.assign target value, by simp [Stmt.lexemes, lexName],
        by simp [Stmt.tree, Productions.shape, nameToken, productions, Terminal.label]⟩
  | ifStmt =>
      obtain ⟨rfl, rfl⟩ := Prod.mk.inj (List.mem_singleton.mp member)
      obtain ⟨_, rfl, _, _, ⟨condition, rfl, rfl⟩, _, _, later, rfl, rfl⟩ := denotes.after_literal
      obtain ⟨_, rfl, _, _, ⟨whenTrue, rfl, rfl⟩, _, _, ⟨_, _, last, _, _, ⟨rfl, rfl⟩, rfl, rfl⟩,
        rfl, rfl⟩ := later.after_literal
      rcases last with ⟨rfl, rfl⟩ | otherwise
      · exact ⟨.branch condition whenTrue, by simp [Stmt.lexemes],
          by simp [Stmt.tree, Productions.shape]⟩
      · obtain ⟨_, rfl, _, _, ⟨whenFalse, rfl, rfl⟩, _, _, ⟨rfl, rfl⟩, rfl, rfl⟩ :=
          otherwise.after_literal
        exact ⟨.branchElse condition whenTrue whenFalse, by simp [Stmt.lexemes],
          by simp [Stmt.tree, Productions.shape]⟩
  | loop =>
      obtain ⟨rfl, rfl⟩ := Prod.mk.inj (List.mem_singleton.mp member)
      obtain ⟨_, rfl, later⟩ := denotes.after_literal
      obtain ⟨count, _, _, rfl, rfl, _, _, ⟨body, rfl, rfl⟩, _, _, ⟨rfl, rfl⟩, rfl, rfl⟩ :=
        later.after_token
      exact ⟨.loop count body, by simp [Stmt.lexemes, lexNumber],
        by simp [Stmt.tree, Productions.shape, numberToken, productions, Terminal.label]⟩
  | block =>
      obtain ⟨rfl, rfl⟩ := Prod.mk.inj (List.mem_singleton.mp member)
      obtain ⟨_, rfl, _, _, many, _, _, last, rfl, rfl⟩ := denotes.after_literal
      obtain ⟨_, rfl, rfl, rfl⟩ := last.after_literal
      obtain ⟨body, rfl, rfl⟩ := means_statements many
      exact ⟨body, by simp [braced], by simp [shape_block]⟩
  | expr =>
      obtain ⟨rfl, rfl⟩ := Prod.mk.inj (List.mem_singleton.mp member)
      obtain ⟨_, _, ⟨left, rfl, rfl⟩, _, _, ⟨_, _, last, _, _, ⟨rfl, rfl⟩, rfl, rfl⟩, rfl, rfl⟩ :=
        denotes
      rcases last with ⟨rfl, rfl⟩ | ⟨_, _, ⟨c, rfl, rfl⟩, _, _,
        ⟨_, _, ⟨right, rfl, rfl⟩, _, _, ⟨rfl, rfl⟩, rfl, rfl⟩, rfl, rfl⟩
      · exact ⟨.plain left, by simp [Expr.lexemes], by simp [Expr.tree, Productions.shape]⟩
      · exact ⟨.compare left c right, by simp [Expr.lexemes],
          by simp [Expr.tree, Productions.shape]⟩
  | sum =>
      obtain ⟨rfl, rfl⟩ := Prod.mk.inj (List.mem_singleton.mp member)
      obtain ⟨_, _, ⟨first, rfl, rfl⟩, _, _, ⟨_, _, many, _, _, ⟨rfl, rfl⟩, rfl, rfl⟩, rfl, rfl⟩ :=
        denotes
      obtain ⟨ts, rfl, rfl⟩ := many.collect _ _ fun _ _ one => means_term one
      exact ⟨.mk first (.ofList ts), by simp [Sum.lexemes, Terms.lexemes_ofList],
        by simp [Sum.tree, Productions.shape, Terms.trees_ofList]⟩
  | product =>
      obtain ⟨rfl, rfl⟩ := Prod.mk.inj (List.mem_singleton.mp member)
      obtain ⟨_, _, ⟨first, rfl, rfl⟩, _, _, ⟨_, _, many, _, _, ⟨rfl, rfl⟩, rfl, rfl⟩, rfl, rfl⟩ :=
        denotes
      obtain ⟨fs, rfl, rfl⟩ := many.collect _ _ fun _ _ one => means_factor one
      exact ⟨.mk first (.ofList fs), by simp [Product.lexemes, Factors.lexemes_ofList],
        by simp [Product.tree, Productions.shape, Factors.trees_ofList]⟩
  | atom =>
      rcases List.mem_cons.mp member with plain | member
      · obtain ⟨rfl, rfl⟩ := Prod.mk.inj plain
        obtain ⟨text, rfl, rfl⟩ := denotes
        exact ⟨.number text, rfl, rfl⟩
      · rcases List.mem_cons.mp member with plain | member
        · obtain ⟨rfl, rfl⟩ := Prod.mk.inj plain
          obtain ⟨text, rfl, rfl⟩ := denotes
          exact ⟨.name text, rfl, rfl⟩
        · obtain ⟨rfl, rfl⟩ := Prod.mk.inj (List.mem_singleton.mp member)
          obtain ⟨_, rfl, _, _, ⟨inner, rfl, rfl⟩, _, _, last, rfl, rfl⟩ := denotes.after_literal
          obtain ⟨_, rfl, rfl, rfl⟩ := last.after_literal
          exact ⟨.group inner, by simp [Atom.lexemes], by simp [Atom.tree]; rfl⟩
  | compOp =>
      obtain ⟨c, _, same⟩ := List.mem_map.mp member
      obtain ⟨rfl, rfl⟩ := Prod.mk.inj same
      obtain ⟨rfl, rfl⟩ := denotes
      exact ⟨c, rfl, rfl⟩

theorem AddOp.derives (op : AddOp) :
    productions.Derives (.orElse (signForm .plus) (signForm .minus)) [lexSign op.sign] [] := by
  cases op with
  | plus => exact .orElseLeft .literal
  | minus => exact .orElseRight .literal

theorem MulOp.derives (op : MulOp) :
    productions.Derives (.orElse (signForm .times) (signForm .divide)) [lexSign op.sign] [] := by
  cases op with
  | times => exact .orElseLeft .literal
  | divide => exact .orElseRight .literal

theorem Comparison.derives (c : Comparison) :
    productions.Derives (.rule .compOp) [(.comparison c, c.text.toList)] [.node "comp_op" []] := by
  have listed : c ∈ Comparison.all := by cases c <;> simp [Comparison.all]
  have member : (Form.literal (.comparison c, c.text.toList), none) ∈
      productions.alternatives .compOp := List.mem_map.mpr ⟨c, listed, rfl⟩
  exact .rule member .literal

mutual

theorem Expr.derives : ∀ e : Expr, productions.Derives (.rule .expr) e.lexemes [e.tree]
  | .plain sum =>
      .of_eq (.rule (.head _) (.andThen sum.derives (.andThen .without .empty)))
        (by simp [Expr.lexemes]) (by simp [Expr.tree, Productions.shape])
  | .compare left c right =>
      .of_eq (.rule (.head _) (.andThen left.derives
        (.andThen (.once (.andThen c.derives (.andThen right.derives .empty))) .empty)))
        (by simp [Expr.lexemes]) (by simp [Expr.tree, Productions.shape])

theorem Sum.derives : ∀ s : Sum, productions.Derives (.rule .sum) s.lexemes [s.tree]
  | .mk first rest =>
      .of_eq (.rule (.head _) (.andThen first.derives (.andThen rest.derives .empty)))
        (by simp [Sum.lexemes]) (by simp [Sum.tree, Productions.shape])

theorem Terms.derives : ∀ ts : Terms, productions.Derives
    (.many (.inOrder [.orElse (signForm .plus) (signForm .minus), .rule .product]))
    ts.lexemes ts.trees
  | .nil => .of_eq .none (by simp [Terms.lexemes]) (by simp [Terms.trees])
  | .cons op next rest =>
      .of_eq (.more (.andThen op.derives (.andThen next.derives .empty)) rest.derives)
        (by simp [Terms.lexemes]) (by simp [Terms.trees])

theorem Product.derives : ∀ p : Product, productions.Derives (.rule .product) p.lexemes [p.tree]
  | .mk first rest =>
      .of_eq (.rule (.head _) (.andThen first.derives (.andThen rest.derives .empty)))
        (by simp [Product.lexemes]) (by simp [Product.tree, Productions.shape])

theorem Factors.derives : ∀ fs : Factors, productions.Derives
    (.many (.inOrder [.orElse (signForm .times) (signForm .divide), .rule .atom]))
    fs.lexemes fs.trees
  | .nil => .of_eq .none (by simp [Factors.lexemes]) (by simp [Factors.trees])
  | .cons op next rest =>
      .of_eq (.more (.andThen op.derives (.andThen next.derives .empty)) rest.derives)
        (by simp [Factors.lexemes]) (by simp [Factors.trees])

theorem Atom.derives : ∀ a : Atom, productions.Derives (.rule .atom) a.lexemes [a.tree]
  | .number text =>
      .of_eq (.rule (.head _) .token) (by simp [Atom.lexemes]; rfl) (by simp [Atom.tree]; rfl)
  | .name text =>
      .of_eq (.rule (.tail _ (.head _)) .token) (by simp [Atom.lexemes]; rfl)
        (by simp [Atom.tree]; rfl)
  | .group inner =>
      .of_eq (.rule (.tail _ (.tail _ (.head _)))
        (.andThen .literal (.andThen inner.derives (.andThen .literal .empty))))
        (by simp [Atom.lexemes]) (by simp [Atom.tree]; rfl)

end

mutual

theorem Stmt.derives : ∀ s : Stmt, productions.Derives (.rule .statement) s.lexemes [s.tree]
  | .setPwm channel value =>
      .of_eq (.rule (.head _) (.rule (.head _)
        (.andThen .literal (.andThen .token (.andThen .token .empty)))))
        (by rw [Stmt.lexemes]; rfl) (by rw [Stmt.tree]; rfl)
  | .wait seconds =>
      .of_eq (.rule (.tail _ (.head _)) (.rule (.head _)
        (.andThen .literal (.andThen .token .empty))))
        (by rw [Stmt.lexemes]; rfl) (by rw [Stmt.tree]; rfl)
  | .readSensor sensor =>
      .of_eq (.rule (.tail _ (.tail _ (.head _))) (.rule (.head _)
        (.andThen .literal (.andThen .token .empty))))
        (by rw [Stmt.lexemes]; rfl) (by rw [Stmt.tree]; rfl)
  | .readAssign target sensor =>
      .of_eq (.rule (.tail _ (.tail _ (.head _))) (.rule (.tail _ (.head _))
        (.andThen .token (.andThen .literal (.andThen .literal (.andThen .token .empty))))))
        (by rw [Stmt.lexemes]; rfl) (by rw [Stmt.tree]; rfl)
  | .assign target value =>
      .of_eq (.rule (.tail _ (.tail _ (.tail _ (.head _)))) (.rule (.head _)
        (.andThen .token (.andThen .literal (.andThen value.derives .empty)))))
        (by simp [Stmt.lexemes]; rfl) (by rw [Stmt.tree]; rfl)
  | .branch condition whenTrue =>
      .of_eq (.rule (.tail _ (.tail _ (.tail _ (.tail _ (.head _))))) (.rule (.head _)
        (.andThen .literal (.andThen condition.derives (.andThen .literal
          (.andThen (braced_derives whenTrue) (.andThen .without .empty)))))))
        (by simp [Stmt.lexemes]) (by rw [Stmt.tree]; rfl)
  | .branchElse condition whenTrue whenFalse =>
      .of_eq (.rule (.tail _ (.tail _ (.tail _ (.tail _ (.head _))))) (.rule (.head _)
        (.andThen .literal (.andThen condition.derives (.andThen .literal
          (.andThen (braced_derives whenTrue)
            (.andThen (.once (.andThen .literal (.andThen (braced_derives whenFalse) .empty)))
              .empty)))))))
        (by simp [Stmt.lexemes]) (by rw [Stmt.tree]; rfl)
  | .loop count body =>
      .of_eq (.rule (.tail _ (.tail _ (.tail _ (.tail _ (.tail _ (.head _)))))) (.rule (.head _)
        (.andThen .literal (.andThen .token (.andThen (braced_derives body) .empty)))))
        (by simp [Stmt.lexemes]; rfl) (by rw [Stmt.tree]; rfl)
  | .block body =>
      .of_eq (.rule (.tail _ (.tail _ (.tail _ (.tail _ (.tail _ (.tail _ (.head _)))))))
        (braced_derives body))
        (by rw [Stmt.lexemes]) (by rw [Stmt.tree]; rfl)

theorem braced_derives (body : List Stmt) :
    productions.Derives (.rule .block) (braced (lexemesAll body)) [.node "block" (trees body)] :=
  .of_eq (.rule (.head _)
    (.andThen .literal (.andThen (lexemesAll_derives body) (.andThen .literal .empty))))
    (by simp [braced]) (by simp [shape_block])

theorem lexemesAll_derives : ∀ body : List Stmt,
    productions.Derives (.many (.rule .statement)) (lexemesAll body) (trees body)
  | [] => .of_eq .none (by simp [lexemesAll]) (by simp [trees])
  | s :: ss =>
      .of_eq (.more s.derives (lexemesAll_derives ss)) (by simp [lexemesAll]) (by simp [trees])

end

theorem derives_start_iff {lexemes : List Lexeme} {parts : List Tree} :
    productions.Derives (.rule .start) lexemes parts ↔
      ∃ program, lexemes = lexemesAll program ∧ parts = [tree program] := by
  constructor
  · intro derives
    exact derives.denotes means_closed
  · rintro ⟨program, rfl, rfl⟩
    exact .of_eq (.rule (.head _) (lexemesAll_derives program)) rfl (by rw [shape_start])

end ThrustBench.Routine
