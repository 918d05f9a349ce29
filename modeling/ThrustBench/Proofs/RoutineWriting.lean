import ThrustBench.Proofs.RoutineTerms

/-!
Writing routines and reading them back.  Terminals are written in order with gaps between them.
Where one terminal stands, another can be taken for it: a name for a word, a minus for a negative
number, the beginning of a comparison for the whole.  What must follow the other terminal then
does not follow, so that a written routine is read in one way (`covers_unique`).
-/

namespace ThrustBench.Routine

/-- A terminal with a text of its pattern; a name begins with no word of the language. -/
def Plain (l : Lexeme) : Prop :=
  l.1.Fits l.2 ∧ (l.1 = .name → ∀ k : Keyword, ¬ k.text.toList <+: l.2)

inductive Behind : List Lexeme → List Char → Prop
  | done {cs} : FinalGap cs → Behind [] cs
  | next {l lexemes gap rest} : Gap gap → gap ≠ [] → Behind lexemes rest →
      Behind (l :: lexemes) (gap ++ (l.2 ++ rest))

/-- Terminals written out.  There need be no gap before the first. -/
inductive Written : List Lexeme → List Char → Prop
  | done {cs} : FinalGap cs → Written [] cs
  | next {l lexemes gap rest} : Gap gap → Behind lexemes rest →
      Written (l :: lexemes) (gap ++ (l.2 ++ rest))

section Confusion

def Stops (rest : List Char) : Prop := ∀ c ∈ rest.head?, ¬ Solid c

theorem stops_of_gap {gap : List Char} (given : Gap gap) (some : gap ≠ []) (rest : List Char) :
    Stops (gap ++ rest) := by
  intro c first
  cases given with
  | nil => exact absurd rfl some
  | space blank _ =>
      rw [← Option.some.inj first]
      intro solid
      simp [solid.1] at blank
  | comment _ _ =>
      rw [← Option.some.inj first]
      intro solid
      exact solid.2 rfl

theorem FinalGap.stops {cs : List Char} (ending : FinalGap cs) : Stops cs := by
  cases ending with
  | gap given =>
      by_cases none : cs = []
      · simp [none, Stops]
      · simpa using stops_of_gap given none []
  | @comment gap body given _ =>
      by_cases none : gap = []
      · intro c first
        rw [none] at first
        rw [← Option.some.inj first]
        intro solid
        exact solid.2 rfl
      · exact stops_of_gap given none _

theorem Behind.stops {lexemes : List Lexeme} {rest : List Char} (behind : Behind lexemes rest) :
    Stops rest := by
  cases behind with
  | done ending => exact ending.stops
  | next given some _ => exact stops_of_gap given some _

theorem Terminal.Fits.prefix_of_stops {t : Terminal} {other text rest : List Char}
    (fits : t.Fits other) (stops : Stops rest) (begins : other <+: text ++ rest) :
    other <+: text := by
  rcases List.prefix_or_prefix_of_prefix begins (List.prefix_append text rest) with inside | beyond
  · exact inside
  · obtain ⟨more, rfl⟩ := beyond
    cases more with
    | nil => simp
    | cons c more =>
        obtain ⟨left, same⟩ := begins
        have first : c ∈ rest.head? := by
          rw [List.append_assoc, List.append_cancel_left_eq] at same
          simp [← same]
        exact absurd (fits.solid c (by simp)) (stops c first)

theorem longest_of_stops {t : Terminal} {text rest : List Char} (fits : t.Fits text)
    (stops : Stops rest) : Longest t.Fits text rest := by
  refine ⟨fits, ?_⟩
  intro other fitsToo begins
  exact (fitsToo.prefix_of_stops stops begins).length_le

def Terminal.Starts : Terminal → Char → Prop
  | .keyword _, c | .name, c => startsName c = true
  | .number, c => Text.isDigit c = true ∨ c = '-'
  | .sign _, c | .comparison _, c => startsName c = false ∧ Text.isDigit c = false

theorem Terminal.Fits.starts {t : Terminal} {c : Char} {cs : List Char} (fits : t.Fits (c :: cs)) :
    t.Starts c := by
  match t, fits with
  | .keyword k, same =>
      have first : c = k.text.toList.head (by cases k <;> simp [Keyword.text]) := by
        simp [← show c :: cs = _ from same]
      rw [first]
      cases k <;> rfl
  | .name, ⟨first, rest, same, starts, _⟩ =>
      rw [(List.cons.inj same).1]
      exact starts
  | .number, Or.inl plain =>
      obtain ⟨d, ds, same, digit⟩ := plain.digit
      rw [(List.cons.inj same).1]
      exact Or.inl digit
  | .number, Or.inr ⟨digits, _, same⟩ => exact Or.inr (List.cons.inj same).1
  | .sign s, same =>
      have first : c = s.text.toList.head (by cases s <;> simp [Sign.text]) := by
        simp [← show c :: cs = _ from same]
      rw [first]
      cases s <;> exact ⟨rfl, rfl⟩
  | .comparison d, same =>
      have first : c = d.text.toList.head (by cases d <;> simp [Comparison.text]) := by
        simp [← show c :: cs = _ from same]
      rw [first]
      cases d <;> exact ⟨rfl, rfl⟩

theorem startsName_range {c : Char} (starts : startsName c = true) :
    65 ≤ c.toNat ∧ c.toNat ≤ 122 := by
  rcases Bool.or_eq_true_iff.mp starts with letter | line
  · rcases Bool.or_eq_true_iff.mp letter with upper | lower
    · have range := of_decide_eq_true upper
      exact ⟨range.1, Nat.le_trans range.2 (by decide)⟩
    · have range := Bool.and_eq_true_iff.mp lower
      exact ⟨Nat.le_trans (by decide) (of_decide_eq_true range.1), of_decide_eq_true range.2⟩
  · rw [beq_iff_eq.mp line]
    decide

theorem startsName_ne_number {c : Char} (starts : startsName c = true) :
    ¬ Terminal.number.Starts c := by
  have range := startsName_range starts
  rintro (digit | rfl)
  · rcases Text.isDigit_range digit with plain | far <;> omega
  · simp [startsName] at starts

theorem keyword_prefixes {k other : Keyword} (begins : other.text.toList <+: k.text.toList) :
    other = k := by
  cases k <;> cases other <;> simp [Keyword.text] at begins ⊢

theorem sign_prefixes {s other : Sign} (begins : other.text.toList <+: s.text.toList) :
    other = s := by
  cases s <;> cases other <;> simp [Sign.text] at begins ⊢

theorem comparison_prefixes {c other : Comparison} (begins : other.text.toList <+: c.text.toList) :
    other = c ∨ c.text.toList = other.text.toList ++ ['='] := by
  cases c <;> cases other <;> simp [Comparison.text] at begins ⊢

theorem sign_of_comparison {s : Sign} {c : Comparison} (begins : s.text.toList <+: c.text.toList) :
    s = .assign ∧ c = .equal := by
  cases s <;> cases c <;> simp [Sign.text, Comparison.text] at begins ⊢

theorem comparison_of_sign (c : Comparison) (s : Sign) : ¬ c.text.toList <+: s.text.toList := by
  cases c <;> cases s <;> simp [Sign.text, Comparison.text]

theorem keyword_name (k : Keyword) : IsName k.text.toList := by
  have all : k.text.toList.all continuesName = true := by cases k <;> rfl
  have fits : (Terminal.keyword k).Fits k.text.toList := rfl
  obtain ⟨c, cs, same⟩ := List.exists_cons_of_ne_nil fits.ne_nil
  rw [same] at fits all ⊢
  exact ⟨c, cs, rfl, fits.starts, fun d later => List.all_eq_true.mp all d (by simp [later])⟩

theorem not_number_sign {s : Sign} {text : List Char} (begins : text <+: s.text.toList) :
    ¬ IsNumber text := by
  have single : text.length ≤ 1 := by
    have := begins.length_le
    cases s <;> simpa [Sign.text] using this
  rintro (plain | ⟨digits, plain, rfl⟩)
  · obtain ⟨d, ds, rfl, digit⟩ := plain.digit
    obtain ⟨rest, same⟩ := begins
    have starts : (Terminal.sign s).Starts d := Terminal.Fits.starts (t := .sign s) same
    simp [starts.2] at digit
  · obtain ⟨d, ds, rfl, _⟩ := plain.digit
    simp at single

theorem minus_first {s : Sign} {cs : List Char} (same : '-' :: cs = s.text.toList) :
    s = .minus := by
  cases s <;> simp [Sign.text] at same ⊢

theorem comparison_ne_minus (d : Comparison) (cs : List Char) : '-' :: cs ≠ d.text.toList := by
  cases d <;> simp [Comparison.text]

/-- What can be taken for a terminal at its place: a name for a word, a minus for a number, and the
beginning of a comparison for the whole. -/
theorem Plain.taken_for {t t' : Terminal} {text text' rest rest' : List Char}
    (plain : Plain (t, text)) (stops : Stops rest) (longest : Longest t'.Fits text' rest')
    (same : text ++ rest = text' ++ rest') :
    t' = t ∧ text' = text ∨ (∃ k, t = .keyword k ∧ t' = .name ∧ text' = text) ∨
      t = .number ∧ t' = .sign .minus ∨
      (∃ c c', t = .comparison c ∧ t' = .comparison c' ∧ text = text' ++ ['=']) ∨
      t = .comparison .equal ∧ t' = .sign .assign := by
  have fits : t.Fits text := plain.1
  have fits' : t'.Fits text' := longest.1
  have inside : text' <+: text := fits'.prefix_of_stops stops ⟨rest', same.symm⟩
  by_cases alike : t' = t
  · subst alike
    exact Or.inl ⟨rfl, ((longest_of_stops fits stops).unique longest same).1.symm⟩
  obtain ⟨c, cs', rfl⟩ := List.exists_cons_of_ne_nil fits'.ne_nil
  obtain ⟨cs, rfl⟩ : ∃ cs, text = c :: cs := by
    obtain ⟨more, rfl⟩ := inside
    exact ⟨_, rfl⟩
  have starts := fits.starts
  have starts' := fits'.starts
  have clash (yes : startsName c = true) (no : startsName c = false) : False := by
    simp [yes] at no
  match t, t' with
  | .keyword k, .keyword k' =>
      rw [show c :: cs = _ from fits, show c :: cs' = _ from fits'] at inside
      exact absurd (congrArg Terminal.keyword (keyword_prefixes inside)) alike
  | .keyword k, .name =>
      have named : IsName (c :: cs) := by
        rw [show c :: cs = _ from fits]
        exact keyword_name k
      have longer := longest.2 (c :: cs) named (same ▸ List.prefix_append _ _)
      exact Or.inr (Or.inl ⟨k, rfl, rfl, inside.eq_of_length_le longer⟩)
  | .keyword _, .number => exact absurd starts' (startsName_ne_number starts)
  | .keyword _, .sign _ => exact (clash starts starts'.1).elim
  | .keyword _, .comparison _ => exact (clash starts starts'.1).elim
  | .name, .keyword k =>
      rw [show c :: cs' = _ from fits'] at inside
      exact absurd inside (plain.2 rfl k)
  | .name, .name => exact absurd rfl alike
  | .name, .number => exact absurd starts' (startsName_ne_number starts)
  | .name, .sign _ => exact (clash starts starts'.1).elim
  | .name, .comparison _ => exact (clash starts starts'.1).elim
  | .number, .keyword _ => exact absurd starts (startsName_ne_number starts')
  | .number, .name => exact absurd starts (startsName_ne_number starts')
  | .number, .number => exact absurd rfl alike
  | .number, .sign s =>
      rcases starts with digit | rfl
      · simp [starts'.2] at digit
      · exact Or.inr (Or.inr (Or.inl ⟨rfl, congrArg Terminal.sign (minus_first fits')⟩))
  | .number, .comparison d =>
      rcases starts with digit | rfl
      · simp [starts'.2] at digit
      · exact absurd fits' (comparison_ne_minus d cs')
  | .sign _, .keyword _ => exact (clash starts' starts.1).elim
  | .sign _, .name => exact (clash starts' starts.1).elim
  | .sign _, .number =>
      rw [show c :: cs = _ from fits] at inside
      exact absurd fits' (not_number_sign inside)
  | .sign _, .sign _ =>
      rw [show c :: cs = _ from fits, show c :: cs' = _ from fits'] at inside
      exact absurd (congrArg Terminal.sign (sign_prefixes inside)) alike
  | .sign s, .comparison d =>
      rw [show c :: cs = _ from fits, show c :: cs' = _ from fits'] at inside
      exact absurd inside (comparison_of_sign d s)
  | .comparison _, .keyword _ => exact (clash starts' starts.1).elim
  | .comparison _, .name => exact (clash starts' starts.1).elim
  | .comparison d, .number =>
      rcases starts' with digit | rfl
      · simp [starts.2] at digit
      · exact absurd fits (comparison_ne_minus d cs)
  | .comparison _, .sign _ =>
      rw [show c :: cs = _ from fits, show c :: cs' = _ from fits'] at inside
      obtain ⟨rfl, rfl⟩ := sign_of_comparison inside
      exact Or.inr (Or.inr (Or.inr (Or.inr ⟨rfl, rfl⟩)))
  | .comparison d, .comparison d' =>
      rw [show c :: cs = _ from fits, show c :: cs' = _ from fits'] at inside
      rcases comparison_prefixes inside with rfl | longer
      · exact absurd rfl alike
      · rw [← show c :: cs = _ from fits, ← show c :: cs' = _ from fits'] at longer
        exact Or.inr (Or.inr (Or.inr (Or.inl ⟨d, d', rfl, rfl, longer⟩)))

end Confusion

/-- What can come next in a routine.  Nesting is left out of account. -/
inductive Expecting where
  | statement
  | channel
  | value
  | seconds
  | sensor
  | equals
  | source
  | operand
  | operator
  | brace
  | count

namespace Expecting

def opening : Terminal → Option Expecting
  | .keyword .setPwm => some channel
  | .keyword .wait => some seconds
  | .keyword .readSensor => some sensor
  | .keyword .branch => some operand
  | .keyword .whenFalse => some brace
  | .keyword .loop => some count
  | .name => some equals
  | .sign .openBrace | .sign .closeBrace => some statement
  | _ => none

def next : Expecting → Terminal → Option Expecting
  | statement, t => opening t
  | channel, .name => some value
  | value, .number => some statement
  | seconds, .number => some statement
  | sensor, .name => some statement
  | equals, .sign .assign => some source
  | source, .keyword .readSensor => some sensor
  | source, .number | source, .name | operand, .number | operand, .name => some operator
  | source, .sign .openParen | operand, .sign .openParen => some operand
  | operator, .sign .plus | operator, .sign .minus => some operand
  | operator, .sign .times | operator, .sign .divide => some operand
  | operator, .comparison _ => some operand
  | operator, .sign .closeParen => some operator
  | operator, .keyword .whenTrue => some brace
  | operator, t => opening t
  | brace, .sign .openBrace => some statement
  | count, .number => some brace
  | _, _ => none

def run : Expecting → List Lexeme → Option Expecting
  | e, [] => some e
  | e, l :: ls => (e.next l.1).bind fun f => f.run ls

def Done (e : Expecting) : Prop := e = statement ∨ e = operator

theorem run_append (e : Expecting) (ls ls' : List Lexeme) :
    e.run (ls ++ ls') = (e.run ls).bind fun f => f.run ls' := by
  induction ls generalizing e with
  | nil => rfl
  | cons l ls ih =>
      simp only [List.cons_append, run, Option.bind_assoc]
      congr 1
      funext f
      exact ih f

end Expecting

section Paths

open Expecting (run run_append next opening)

mutual

theorem Expr.path : ∀ e : Expr, Expecting.operand.run e.lexemes = some .operator
  | .plain sum => by rw [Expr.lexemes, sum.path]
  | .compare left c right => by
      simp [Expr.lexemes, run_append, left.path, run, next, right.path]

theorem Sum.path : ∀ s : Sum, Expecting.operand.run s.lexemes = some .operator
  | .mk first rest => by simp [Sum.lexemes, run_append, first.path, rest.path]

theorem Terms.path : ∀ ts : Terms, Expecting.operator.run ts.lexemes = some .operator
  | .nil => by simp [Terms.lexemes, run]
  | .cons op term rest => by
      cases op <;>
        simp [Terms.lexemes, AddOp.sign, lexSign, run, next, run_append, term.path, rest.path]

theorem Product.path : ∀ p : Product, Expecting.operand.run p.lexemes = some .operator
  | .mk first rest => by simp [Product.lexemes, run_append, first.path, rest.path]

theorem Factors.path : ∀ fs : Factors, Expecting.operator.run fs.lexemes = some .operator
  | .nil => by simp [Factors.lexemes, run]
  | .cons op factor rest => by
      cases op <;>
        simp [Factors.lexemes, MulOp.sign, lexSign, run, next, run_append, factor.path, rest.path]

theorem Atom.path : ∀ a : Atom, Expecting.operand.run a.lexemes = some .operator
  | .number text => rfl
  | .name text => rfl
  | .group inner => by
      simp [Atom.lexemes, lexSign, run, next, run_append, inner.path]

end

theorem Expr.path_source (e : Expr) : Expecting.source.run e.lexemes = some .operator := by
  have atom (a : Atom) (behind : List Lexeme) : Expecting.source.run (a.lexemes ++ behind) =
      Expecting.operand.run (a.lexemes ++ behind) := by
    cases a <;> rfl
  have path := e.path
  rcases e with ⟨⟨⟨a, _⟩, _⟩⟩ | ⟨⟨⟨a, _⟩, _⟩, _, _⟩
  · simp only [Expr.lexemes, Sum.lexemes, Product.lexemes, List.append_assoc] at path ⊢
    rw [atom, path]
  · simp only [Expr.lexemes, Sum.lexemes, Product.lexemes, List.append_assoc] at path ⊢
    rw [atom, path]

theorem Expecting.Done.run_statement {e : Expecting} (done : e.Done) (s : Stmt)
    (behind : List Lexeme) :
    e.run (s.lexemes ++ behind) = Expecting.statement.run (s.lexemes ++ behind) := by
  rcases done with rfl | rfl
  · rfl
  · cases s <;> simp [Stmt.lexemes, braced, lexKeyword, lexName, lexSign, run, next, opening]

theorem Expecting.Done.run_brace {e : Expecting} (done : e.Done) (behind : List Lexeme) :
    e.run (lexSign .closeBrace :: behind) = Expecting.statement.run behind := by
  rcases done with rfl | rfl <;> rfl

mutual

theorem Stmt.path : ∀ s : Stmt, ∃ e : Expecting, e.Done ∧ Expecting.statement.run s.lexemes = some e
  | .setPwm channel value => ⟨.statement, Or.inl rfl, by rw [Stmt.lexemes]; rfl⟩
  | .wait seconds => ⟨.statement, Or.inl rfl, by rw [Stmt.lexemes]; rfl⟩
  | .readSensor sensor => ⟨.statement, Or.inl rfl, by rw [Stmt.lexemes]; rfl⟩
  | .readAssign target sensor => ⟨.statement, Or.inl rfl, by rw [Stmt.lexemes]; rfl⟩
  | .assign target value => ⟨.operator, Or.inr rfl, by
      rw [Stmt.lexemes]
      exact value.path_source⟩
  | .branch condition whenTrue => ⟨.statement, Or.inl rfl, by
      simp [Stmt.lexemes, lexKeyword, run, next, opening, run_append, condition.path,
        braced_path whenTrue]⟩
  | .branchElse condition whenTrue whenFalse => ⟨.statement, Or.inl rfl, by
      simp [Stmt.lexemes, lexKeyword, run, next, opening, run_append, condition.path,
        braced_path whenTrue, braced_path whenFalse]⟩
  | .loop count body => ⟨.statement, Or.inl rfl, by
      rw [Stmt.lexemes]
      exact braced_path body⟩
  | .block body => ⟨.statement, Or.inl rfl, by
      have path := braced_path body
      rw [braced] at path
      rw [Stmt.lexemes, braced]
      exact path⟩

theorem braced_path (body : List Stmt) :
    Expecting.brace.run (braced (lexemesAll body)) = some .statement := by
  obtain ⟨e, done, path⟩ := lexemesAll_path body
  rw [braced]
  change Expecting.statement.run (lexemesAll body ++ [lexSign .closeBrace]) = _
  rw [run_append, path]
  exact done.run_brace []

theorem lexemesAll_path : ∀ body : List Stmt,
    ∃ e : Expecting, e.Done ∧ Expecting.statement.run (lexemesAll body) = some e
  | [] => ⟨.statement, Or.inl rfl, by rw [lexemesAll]; rfl⟩
  | s :: body => by
      obtain ⟨e, done, path⟩ := s.path
      obtain ⟨f, doneToo, pathToo⟩ := lexemesAll_path body
      rw [lexemesAll, run_append, path]
      cases body with
      | nil => exact ⟨e, done, by rw [lexemesAll]; rfl⟩
      | cons s' body =>
          refine ⟨f, doneToo, ?_⟩
          rw [lexemesAll] at pathToo ⊢
          exact (done.run_statement s' _).trans pathToo

end

end Paths

section Unique

theorem Covers.uncons {t : Terminal} {text cs : List Char} {lexemes : List Lexeme}
    (covers : Covers ((t, text) :: lexemes) cs) :
    ∃ rest, skip cs = text ++ rest ∧ Longest t.Fits text rest ∧ Covers lexemes rest := by
  cases covers with
  | @next _ _ _ gap rest given longest later =>
      exact ⟨rest, by rw [skip_gap given, skip_fits longest.1], longest, later⟩

theorem Covers.skip_nil {cs : List Char} (covers : Covers [] cs) : skip cs = [] := by
  cases covers with
  | done ending => exact skip_finalGap ending

theorem Written.uncons {t : Terminal} {text cs : List Char} {lexemes : List Lexeme}
    (fits : t.Fits text) (written : Written ((t, text) :: lexemes) cs) :
    ∃ rest, skip cs = text ++ rest ∧ Behind lexemes rest := by
  cases written with
  | @next _ _ gap rest given later => exact ⟨rest, by rw [skip_gap given, skip_fits fits], later⟩

theorem Behind.written {lexemes : List Lexeme} {cs : List Char} (behind : Behind lexemes cs) :
    Written lexemes cs := by
  cases behind with
  | done ending => exact .done ending
  | next given _ later => exact .next given later

theorem Behind.covers {lexemes : List Lexeme} {cs : List Char} (behind : Behind lexemes cs)
    (plain : ∀ l ∈ lexemes, Plain l) : Covers lexemes cs := by
  induction behind with
  | done ending => exact .done ending
  | next given _ later ih =>
      have first := plain _ (List.mem_cons_self ..)
      exact .next given (longest_of_stops first.1 later.stops)
        (ih fun l inside => plain l (by simp [inside]))

theorem Written.covers {lexemes : List Lexeme} {cs : List Char} (written : Written lexemes cs)
    (plain : ∀ l ∈ lexemes, Plain l) : Covers lexemes cs := by
  cases written with
  | done ending => exact .done ending
  | next given later =>
      have first := plain _ (List.mem_cons_self ..)
      exact .next given (longest_of_stops first.1 later.stops)
        (later.covers fun l inside => plain l (by simp [inside]))

theorem Terminal.Fits.equals_first {t : Terminal} {cs : List Char} (fits : t.Fits ('=' :: cs)) :
    t = .sign .assign ∨ t = .comparison .equal := by
  have starts := fits.starts
  match t, fits with
  | .keyword _, _ => simp [Terminal.Starts, startsName] at starts
  | .name, _ => simp [Terminal.Starts, startsName] at starts
  | .number, _ => simp [Terminal.Starts, show Text.isDigit '=' = false by decide] at starts
  | .sign s, same => cases s <;> simp_all [Terminal.Fits, Sign.text]
  | .comparison c, same => cases c <;> simp_all [Terminal.Fits, Comparison.text]

theorem Covers.not_equals {e f : Expecting} (noAssign : e.next (.sign .assign) = none)
    (noEqual : e.next (.comparison .equal) = none) {lexemes : List Lexeme}
    (path : e.run lexemes = some f) {cs rest : List Char} (covers : Covers lexemes cs) :
    skip cs ≠ '=' :: rest := by
  intro here
  cases lexemes with
  | nil => simp [covers.skip_nil] at here
  | cons l lexemes =>
      obtain ⟨behind, taken, longest, _⟩ := covers.uncons
      obtain ⟨c, cs', same⟩ := List.exists_cons_of_ne_nil longest.1.ne_nil
      rw [here, same, List.cons_append] at taken
      have first : l.1.Fits ('=' :: cs') := by
        rw [(List.cons.inj taken).1, ← same]
        exact longest.1
      rcases first.equals_first with assign | equal
      · simp [Expecting.run, assign, noAssign] at path
      · simp [Expecting.run, equal, noEqual] at path

theorem Covers.equals {e : Expecting} (done : e.Done) {lexemes : List Lexeme}
    (path : Expecting.equals.run lexemes = some e) {cs : List Char} (covers : Covers lexemes cs) :
    ∃ rest, skip cs = '=' :: rest := by
  cases lexemes with
  | nil =>
      rw [← Option.some.inj path] at done
      simp [Expecting.Done] at done
  | cons l lexemes =>
      obtain ⟨t, text⟩ := l
      have assign : t = .sign .assign := by
        by_contra other
        have refused : Expecting.equals.next t = none := by
          match t with
          | .keyword _ | .name | .number | .comparison _ => rfl
          | .sign s =>
              cases s with
              | assign => exact absurd rfl other
              | _ => rfl
        simp [Expecting.run, refused] at path
      obtain ⟨rest, here, longest, _⟩ := covers.uncons
      subst assign
      rw [show text = ['='] from longest.1] at here
      exact ⟨rest, here⟩

theorem Expecting.next_minus {e f : Expecting} (number : e.next .number = some f) :
    e.next (.sign .minus) = none := by
  cases e <;> simp [next, opening] at number ⊢

theorem Expecting.next_assign {e f : Expecting} (equal : e.next (.comparison .equal) = some f) :
    e.next (.sign .assign) = none := by
  cases e <;> simp [next, opening] at equal ⊢

theorem Expecting.next_comparison {e f : Expecting} {c : Comparison}
    (next : e.next (.comparison c) = some f) : f = .operand := by
  cases e <;> simp [Expecting.next, opening] at next
  exact next.symm

theorem Expecting.next_word {e f f' : Expecting} {k : Keyword}
    (word : e.next (.keyword k) = some f) (name : e.next .name = some f') :
    f' = .equals ∧ f.next (.sign .assign) = none ∧ f.next (.comparison .equal) = none ∨
      f = .sensor ∧ f' = .operator := by
  cases e <;> simp only [next, opening, Option.some.injEq, reduceCtorEq] at name <;>
    cases k <;> simp only [next, opening, Option.some.injEq, reduceCtorEq] at word <;>
    subst name word <;> simp [next]

theorem Expecting.run_cons {e g : Expecting} {l : Lexeme} {lexemes : List Lexeme} :
    e.run (l :: lexemes) = some g ↔ ∃ f, e.next l.1 = some f ∧ f.run lexemes = some g :=
  Option.bind_eq_some_iff

theorem Expecting.run_sensor {g : Expecting} {lexemes : List Lexeme} (done : g.Done)
    (path : sensor.run lexemes = some g) :
    ∃ text behind, lexemes = (.name, text) :: behind ∧ statement.run behind = some g := by
  cases lexemes with
  | nil =>
      rw [← Option.some.inj path] at done
      simp [Done] at done
  | cons l behind =>
      obtain ⟨t, text⟩ := l
      obtain ⟨f, next, further⟩ := run_cons.mp path
      cases t with
      | name => exact ⟨text, behind, rfl, by rw [← further, ← Option.some.inj next]⟩
      | _ => simp [Expecting.next] at next

/-- A name that is read in place of a word leads nowhere: an assignment would have to follow. -/
theorem not_read_as_name {e f g g' : Expecting} {k : Keyword} {lexemes others : List Lexeme}
    {rest : List Char} (word : e.next (.keyword k) = some f) (path : f.run lexemes = some g)
    (plain : ∀ l ∈ lexemes, Plain l) (behind : Behind lexemes rest) {f' : Expecting}
    (name : e.next .name = some f') (path' : f'.run others = some g') (done : g.Done)
    (done' : g'.Done) : ¬ Covers others rest := by
  intro covers
  rcases Expecting.next_word word name with ⟨rfl, noAssign, noEqual⟩ | ⟨rfl, rfl⟩
  · obtain ⟨left, here⟩ := covers.equals done' path'
    exact (behind.covers plain).not_equals noAssign noEqual path here
  · -- here a sensor is read or a variable assigned; its name follows, and then a statement
    obtain ⟨text, further, rfl, pathLater⟩ := Expecting.run_sensor done path
    have first := plain (.name, text) (by simp)
    obtain ⟨left, here, later⟩ := behind.written.uncons first.1
    cases others with
    | nil =>
        rw [covers.skip_nil] at here
        exact first.1.ne_nil (List.append_eq_nil_iff.mp here.symm).1
    | cons l others =>
        obtain ⟨left', here', longest, coversLater⟩ := covers.uncons
        obtain ⟨f, next, pathLater'⟩ := Expecting.run_cons.mp path'
        rcases first.taken_for later.stops longest (here.symm.trans here') with
          ⟨named, sameText⟩ | ⟨_, wrong, _⟩ | ⟨wrong, _⟩ | ⟨_, _, wrong, _⟩ | ⟨wrong, _⟩
        case inl =>
          rw [sameText, here] at here'
          obtain rfl := List.append_cancel_left here'
          rw [named] at next
          obtain rfl := Option.some.inj next
          obtain ⟨_, equals⟩ := coversLater.equals done' pathLater'
          exact (later.covers fun l inside => plain l (by simp [inside])).not_equals rfl rfl
            pathLater equals
        all_goals exact Terminal.noConfusion wrong

theorem covers_unique {lexemes : List Lexeme} : ∀ {e g g' : Expecting} {cs : List Char}
    {others : List Lexeme}, (∀ l ∈ lexemes, Plain l) → e.run lexemes = some g → g.Done →
    Written lexemes cs → e.run others = some g' → g'.Done → Covers others cs →
    others = lexemes := by
  induction lexemes with
  | nil =>
      intro e g g' cs others _ _ _ written _ _ covers
      cases others with
      | nil => rfl
      | cons l others =>
          obtain ⟨rest, here, longest, _⟩ := covers.uncons
          rw [(written.covers (by simp)).skip_nil] at here
          exact absurd (List.append_eq_nil_iff.mp here.symm).1 longest.1.ne_nil
  | cons l lexemes ih =>
      obtain ⟨t, text⟩ := l
      intro e g g' cs others plain path done written path' done' covers
      have first := plain (t, text) (by simp)
      have plainLater : ∀ l ∈ lexemes, Plain l := fun l inside => plain l (by simp [inside])
      obtain ⟨rest, here, behind⟩ := written.uncons first.1
      cases others with
      | nil =>
          rw [covers.skip_nil] at here
          exact absurd (List.append_eq_nil_iff.mp here.symm).1 first.1.ne_nil
      | cons l' others =>
          obtain ⟨t', text'⟩ := l'
          obtain ⟨rest', here', longest, later⟩ := covers.uncons
          obtain ⟨f, next, walk⟩ := Expecting.run_cons.mp path
          obtain ⟨f', next', walk'⟩ := Expecting.run_cons.mp path'
          have same : text ++ rest = text' ++ rest' := here.symm.trans here'
          rcases first.taken_for behind.stops longest same with ⟨rfl, rfl⟩ | ⟨k, rfl, rfl, rfl⟩ |
            ⟨rfl, rfl⟩ | ⟨c, c', rfl, rfl, rfl⟩ | ⟨rfl, rfl⟩
          · obtain rfl := List.append_cancel_left same
            rw [next] at next'
            obtain rfl := Option.some.inj next'
            rw [ih plainLater walk done behind.written walk' done' later]
          · obtain rfl := List.append_cancel_left same
            exact absurd later
              (not_read_as_name next walk plainLater behind next' walk' done done')
          · simp [Expecting.next_minus next] at next'
          · -- the rest of the comparison would have to begin an operand
            obtain rfl := Expecting.next_comparison next'
            rw [List.append_assoc] at same
            obtain rfl := List.append_cancel_left same
            exact absurd (skip_solid ⟨rfl, by decide⟩ rest) (later.not_equals rfl rfl walk')
          · simp [Expecting.next_assign next] at next'

end Unique

/-- A routine that is written with gaps between its terminals is read back, and its text can be
divided and derived in no other way. -/
theorem written_routine_reads_back {program : List Stmt} {text : String}
    (plain : ∀ l ∈ lexemesAll program, Plain l)
    (written : Written (lexemesAll program) text.toList) :
    parse text = .ok program ∧ ∀ lexemes parts, Covers lexemes text.toList →
      productions.Derives (.rule .start) lexemes parts →
      lexemes = lexemesAll program ∧ parts = [tree program] := by
  have unique (other : List Stmt) (covers : Covers (lexemesAll other) text.toList) :
      other = program := by
    obtain ⟨e, done, path⟩ := lexemesAll_path program
    obtain ⟨e', done', path'⟩ := lexemesAll_path other
    exact lexemesAll_injective (covers_unique plain path done written path' done' covers)
  refine ⟨?_, ?_⟩
  · obtain ⟨other, read⟩ := parse_of_covers (written.covers plain)
    rw [read, unique other (parse_ok read)]
  · intro lexemes parts covers derives
    obtain ⟨other, rfl, rfl⟩ := derives_start_iff.mp derives
    rw [unique other covers]
    exact ⟨rfl, rfl⟩

def difference : List Stmt :=
  [.readAssign ['T'] ['b'], .assign ['T'] (.plain
    (.mk (.mk (.number ['1']) .nil) (.cons .minus (.mk (.number ['-', '2']) .nil) .nil)))]

theorem written_routine_reads_back_difference :
    (∀ l ∈ lexemesAll difference, Plain l) ∧
      Written (lexemesAll difference) "T = READ_SENSOR b\nT = 1 -#\n-2".toList ∧
      parse "T = READ_SENSOR b\nT = 1 -#\n-2" = .ok difference := by
  have lexemes : lexemesAll difference = [lexName ['T'], lexSign .assign, lexKeyword .readSensor,
      lexName ['b'], lexName ['T'], lexSign .assign, lexNumber ['1'], lexSign .minus,
      lexNumber ['-', '2']] := by
    simp [difference, lexemesAll, Stmt.lexemes, Expr.lexemes, Sum.lexemes, Terms.lexemes,
      Product.lexemes, Factors.lexemes, Atom.lexemes, AddOp.sign]
  have name (c : Char) (letter : startsName c = true) : Plain (lexName [c]) :=
    ⟨⟨c, [], rfl, letter, by simp⟩, fun _ k => by cases k <;> simp [Keyword.text, lexName]⟩
  have unsigned (c : Char) (digit : Text.isDigit c = true) : IsUnsigned [c] :=
    ⟨[c], [], ⟨by simp, by simpa using digit⟩, Or.inl rfl, rfl⟩
  have plain : ∀ l ∈ lexemesAll difference, Plain l := by
    rw [lexemes]
    simp only [List.mem_cons, List.not_mem_nil, or_false]
    rintro l (rfl | rfl | rfl | rfl | rfl | rfl | rfl | rfl | rfl)
    · exact name 'T' rfl
    · exact ⟨rfl, by simp [lexSign]⟩
    · exact ⟨rfl, by simp [lexKeyword]⟩
    · exact name 'b' rfl
    · exact name 'T' rfl
    · exact ⟨rfl, by simp [lexSign]⟩
    · exact ⟨Or.inl (unsigned '1' rfl), by simp [lexNumber]⟩
    · exact ⟨rfl, by simp [lexSign]⟩
    · exact ⟨Or.inr ⟨['2'], unsigned '2' rfl, rfl⟩, by simp [lexNumber]⟩
  have blank : Gap [' '] := .space rfl .nil
  have line : Gap ['\n'] := .space rfl .nil
  have comment : Gap ('#' :: ([] ++ '\n' :: [])) := .comment (by simp) .nil
  have written : Written (lexemesAll difference) "T = READ_SENSOR b\nT = 1 -#\n-2".toList := by
    rw [lexemes]
    exact .next .nil <| .next blank (by simp) <| .next blank (by simp) <| .next blank (by simp) <|
      .next line (by simp) <| .next blank (by simp) <| .next blank (by simp) <|
      .next blank (by simp) <| .next comment (by simp) <| .done (.gap .nil)
  exact ⟨plain, written, (written_routine_reads_back plain written).1⟩

end ThrustBench.Routine
