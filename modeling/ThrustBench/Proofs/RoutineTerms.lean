import ThrustBench.Proofs.RoutineReading

/-!
The terminals of a routine determine it.  Two terms of one kind whose terminals are followed by
others agree, if what follows could not go on with either of them (`lexemesAll_injective`).
-/

namespace ThrustBench.Routine

def Terminal.binding : Terminal → Nat
  | .comparison _ => 1
  | .sign .plus | .sign .minus => 2
  | .sign .times | .sign .divide => 3
  | _ => 0

def Loose (tightness : Nat) (rest : List Lexeme) : Prop :=
  ∀ l ∈ rest.head?, l.1.binding < tightness

/-- Terms of one kind can be told from what follows them. -/
def Cancels {α : Type} (written : α → List Lexeme) (Follow : List Lexeme → Prop) (P : α → Prop) :
    Prop :=
  ∀ a b rest rest', P a → Follow rest → Follow rest' → written a ++ rest = written b ++ rest' →
    a = b ∧ rest = rest'

section Expressions

theorem Loose.mono {tightness more : Nat} {rest : List Lexeme} (loose : Loose tightness rest)
    (atMost : tightness ≤ more) : Loose more rest := by
  intro l first
  have := loose l first
  omega

section Folded

variable {α ω : Type} {sign : ω → Sign} {written : α → List Lexeme} {tightness n : Nat}

theorem loose_operands (binds : ∀ op, (Terminal.sign (sign op)).binding = tightness)
    {rest : List Lexeme} (loose : Loose tightness rest) (others : List (ω × α)) :
    Loose (tightness + 1)
      (others.flatMap (fun t => lexSign (sign t.1) :: written t.2) ++ rest) := by
  cases others with
  | nil => exact loose.mono (Nat.le_succ _)
  | cons t others =>
      intro l first
      simp only [List.flatMap_cons, List.cons_append, List.head?_cons, Option.mem_def,
        Option.some.injEq] at first
      rw [← first, lexSign, binds]
      exact Nat.lt_succ_self _

theorem operands_cancel (injective : Function.Injective sign)
    (binds : ∀ op, (Terminal.sign (sign op)).binding = tightness)
    (operand : Cancels written (Loose (tightness + 1)) fun a => (written a).length ≤ n)
    {rest rest' : List Lexeme} (loose : Loose tightness rest) (loose' : Loose tightness rest') :
    ∀ others others' : List (ω × α), (∀ t ∈ others, (written t.2).length ≤ n) →
      others.flatMap (fun t => lexSign (sign t.1) :: written t.2) ++ rest =
        others'.flatMap (fun t => lexSign (sign t.1) :: written t.2) ++ rest' →
      others = others' ∧ rest = rest' := by
  -- an operator that belongs to the operands cannot stand first in what follows them
  have apart {rest : List Lexeme} (loose : Loose tightness rest) (op : ω) (behind : List Lexeme) :
      rest ≠ lexSign (sign op) :: behind := by
    rintro rfl
    have := loose (lexSign (sign op)) (by simp)
    rw [lexSign, binds] at this
    omega
  intro others
  induction others with
  | nil =>
      rintro (_ | ⟨t', others'⟩) _ same
      · exact ⟨rfl, by simpa using same⟩
      · exact absurd same (apart loose t'.1 _)
  | cons t others ih =>
      rintro (_ | ⟨t', others'⟩) small same
      · exact absurd same.symm (apart loose' t.1 _)
      · simp only [List.flatMap_cons, List.cons_append, List.append_assoc, List.cons.injEq] at same
        have sameOp : t.1 = t'.1 := injective (Terminal.sign.inj (congrArg Prod.fst same.1))
        obtain ⟨sameNext, behind⟩ := operand t.2 t'.2 _ _ (small t (by simp))
          (loose_operands binds loose others) (loose_operands binds loose' others') same.2
        obtain ⟨rfl, rfl⟩ := ih others' (fun u later => small u (by simp [later])) behind
        exact ⟨by rw [Prod.ext sameOp sameNext], rfl⟩

theorem folded_cancels (injective : Function.Injective sign)
    (binds : ∀ op, (Terminal.sign (sign op)).binding = tightness)
    (operand : Cancels written (Loose (tightness + 1)) fun a => (written a).length ≤ n) :
    Cancels (fun t : α × List (ω × α) => folded sign written t.1 t.2) (Loose tightness)
      fun t => (folded sign written t.1 t.2).length ≤ n := by
  rintro ⟨first, others⟩ ⟨first', others'⟩ rest rest' small loose loose' same
  simp only [folded, List.length_append] at small
  simp only [folded, List.append_assoc] at same
  obtain ⟨rfl, behind⟩ := operand first first' _ _ (by omega) (loose_operands binds loose others)
    (loose_operands binds loose' others') same
  have allSmall (t : ω × α) (member : t ∈ others) : (written t.2).length ≤ n := by
    have inside := length_le_of_mem (fun t : ω × α => lexSign (sign t.1) :: written t.2) member
    rw [List.length_cons] at inside
    omega
  obtain ⟨rfl, rfl⟩ := operands_cancel injective binds operand loose loose' others others' allSmall
    behind
  exact ⟨rfl, rfl⟩

end Folded

variable {n : Nat}

theorem atom_cancels (inner : Cancels Expr.lexemes (Loose 1) fun e => e.lexemes.length < n)
    (Follow : List Lexeme → Prop) :
    Cancels Atom.lexemes Follow fun a => a.lexemes.length ≤ n := by
  intro a b rest rest' small _ _ same
  have closed (behind : List Lexeme) : Loose 1 (lexSign .closeParen :: behind) := by
    intro l first
    rw [← Option.some.inj first]
    decide
  cases a with
  | number text =>
      cases b with
      | number text' => simpa [Atom.lexemes, lexNumber] using same
      | _ => simp [Atom.lexemes, lexNumber, lexName, lexSign] at same
  | name text =>
      cases b with
      | name text' => simpa [Atom.lexemes, lexName] using same
      | _ => simp [Atom.lexemes, lexNumber, lexName, lexSign] at same
  | group e =>
      cases b with
      | group e' =>
          simp only [Atom.lexemes, List.length_cons, List.length_append] at small
          simp only [Atom.lexemes, List.cons_append, List.append_assoc, List.nil_append,
            List.cons.injEq, true_and] at same
          obtain ⟨rfl, behind⟩ := inner e e' _ _ (by omega) (closed rest) (closed rest') same
          exact ⟨rfl, (List.cons.inj behind).2⟩
      | _ => simp [Atom.lexemes, lexNumber, lexName, lexSign] at same

theorem product_cancels (inner : Cancels Expr.lexemes (Loose 1) fun e => e.lexemes.length < n) :
    Cancels Product.lexemes (Loose 3) fun p => p.lexemes.length ≤ n := by
  rintro ⟨first, factors⟩ ⟨first', factors'⟩ rest rest' small loose loose' same
  obtain ⟨others, rfl⟩ := factors.exists_ofList
  obtain ⟨others', rfl⟩ := factors'.exists_ofList
  rw [Product.lexemes, Product.lexemes, Factors.lexemes_ofList, Factors.lexemes_ofList] at same
  rw [Product.lexemes, Factors.lexemes_ofList] at small
  have injective : Function.Injective MulOp.sign := by rintro ⟨⟩ ⟨⟩ <;> simp [MulOp.sign]
  have binds (op : MulOp) : (Terminal.sign op.sign).binding = 3 := by cases op <;> rfl
  obtain ⟨agree, behind⟩ := folded_cancels injective binds (atom_cancels inner _) (first, others)
    (first', others') rest rest' small loose loose' same
  simp only [Prod.mk.injEq] at agree
  exact ⟨by rw [agree.1, agree.2], behind⟩

theorem sum_cancels (inner : Cancels Expr.lexemes (Loose 1) fun e => e.lexemes.length < n) :
    Cancels Sum.lexemes (Loose 2) fun s => s.lexemes.length ≤ n := by
  rintro ⟨first, terms⟩ ⟨first', terms'⟩ rest rest' small loose loose' same
  obtain ⟨others, rfl⟩ := terms.exists_ofList
  obtain ⟨others', rfl⟩ := terms'.exists_ofList
  rw [Sum.lexemes, Sum.lexemes, Terms.lexemes_ofList, Terms.lexemes_ofList] at same
  rw [Sum.lexemes, Terms.lexemes_ofList] at small
  have injective : Function.Injective AddOp.sign := by rintro ⟨⟩ ⟨⟩ <;> simp [AddOp.sign]
  have binds (op : AddOp) : (Terminal.sign op.sign).binding = 2 := by cases op <;> rfl
  obtain ⟨agree, behind⟩ := folded_cancels injective binds (product_cancels inner) (first, others)
    (first', others') rest rest' small loose loose' same
  simp only [Prod.mk.injEq] at agree
  exact ⟨by rw [agree.1, agree.2], behind⟩

theorem expr_cancels_succ (inner : Cancels Expr.lexemes (Loose 1) fun e => e.lexemes.length < n) :
    Cancels Expr.lexemes (Loose 1) fun e => e.lexemes.length < n + 1 := by
  have compared (c : Comparison) (behind : List Lexeme) :
      Loose 2 ((.comparison c, c.text.toList) :: behind) := by
    intro l first
    rw [← Option.some.inj first]
    exact Nat.lt_succ_self 1
  have apart {rest : List Lexeme} (loose : Loose 1 rest) (c : Comparison) (behind : List Lexeme) :
      rest ≠ (.comparison c, c.text.toList) :: behind := by
    rintro rfl
    exact Nat.lt_irrefl 1 (loose (.comparison c, c.text.toList) (by simp))
  have sums := sum_cancels inner
  rintro (left | ⟨left, c, right⟩) (left' | ⟨left', c', right'⟩) rest rest' small loose loose' same
  · obtain ⟨rfl, rfl⟩ := sums left left' rest rest' (Nat.lt_succ_iff.mp small)
      (loose.mono (by omega)) (loose'.mono (by omega)) same
    exact ⟨rfl, rfl⟩
  · rw [Expr.lexemes, Expr.lexemes, List.append_assoc] at same
    obtain ⟨_, behind⟩ := sums left left' rest _ (Nat.lt_succ_iff.mp small)
      (loose.mono (by omega)) (compared c' _) same
    exact absurd behind (apart loose c' _)
  · rw [Expr.lexemes, Expr.lexemes, List.append_assoc] at same
    simp only [Expr.lexemes, List.length_append] at small
    obtain ⟨_, behind⟩ := sums left left' _ rest' (by omega) (compared c _)
      (loose'.mono (by omega)) same
    exact absurd behind.symm (apart loose' c _)
  · rw [Expr.lexemes, Expr.lexemes, List.append_assoc, List.append_assoc] at same
    simp only [Expr.lexemes, List.length_append, List.length_cons] at small
    obtain ⟨rfl, behind⟩ := sums left left' _ _ (by omega) (compared c _) (compared c' _) same
    simp only [List.cons.injEq, Prod.mk.injEq, Terminal.comparison.injEq] at behind
    obtain ⟨⟨rfl, _⟩, behind⟩ := behind
    obtain ⟨rfl, rfl⟩ := sums right right' rest rest' (by omega) (loose.mono (by omega))
      (loose'.mono (by omega)) behind
    exact ⟨rfl, rfl⟩

theorem expr_cancels : Cancels Expr.lexemes (Loose 1) fun _ => True := by
  -- expressions nest through parentheses, which take terminals: induction on their number
  have bounded : ∀ n, Cancels Expr.lexemes (Loose 1) fun e => e.lexemes.length < n := by
    intro n
    induction n with
    | zero => intro e e' rest rest' small; simp at small
    | succ n ih => exact expr_cancels_succ ih
  intro e e' rest rest' _
  exact bounded (e.lexemes.length + 1) e e' rest rest' (Nat.lt_succ_self _)

end Expressions

section Statements

def Terminal.separates : Terminal → Bool
  | .keyword .whenTrue | .keyword .whenFalse => false
  | .keyword _ | .name | .sign .openBrace | .sign .closeBrace => true
  | _ => false

def Separate (rest : List Lexeme) : Prop := ∀ l ∈ rest.head?, l.1.separates = true

def Closed (rest : List Lexeme) : Prop := ∀ l ∈ rest.head?, l.1 = .sign .closeBrace

theorem Separate.loose {rest : List Lexeme} (separate : Separate rest) : Loose 1 rest := by
  intro l first
  have plain : ∀ t : Terminal, t.separates = true → t.binding < 1 := by
    rintro (_ | _ | _ | ⟨_ | _⟩ | _) <;> simp [Terminal.separates, Terminal.binding]
  exact plain l.1 (separate l first)

theorem Stmt.first_separates (s : Stmt) :
    ∃ l ls, s.lexemes = l :: ls ∧ l.1.separates = true ∧ l.1 ≠ .sign .closeBrace := by
  cases s <;> simp [Stmt.lexemes, braced, lexKeyword, lexName, lexSign, Terminal.separates]

theorem separate_lexemesAll {rest : List Lexeme} (closed : Closed rest) (body : List Stmt) :
    Separate (lexemesAll body ++ rest) := by
  cases body with
  | nil =>
      intro l first
      rw [lexemesAll, List.nil_append] at first
      rw [closed l first]
      rfl
  | cons s body =>
      obtain ⟨l, ls, written, separates, _⟩ := s.first_separates
      intro l' first
      rw [lexemesAll, written] at first
      rw [← Option.some.inj first]
      exact separates

theorem Expr.lexemes_ne_keyword (e : Expr) (k : Keyword) (rest behind : List Lexeme) :
    e.lexemes ++ rest ≠ lexKeyword k :: behind := by
  have atom (a : Atom) (rest : List Lexeme) : a.lexemes ++ rest ≠ lexKeyword k :: behind := by
    cases a <;> simp [Atom.lexemes, lexKeyword, lexNumber, lexName, lexSign]
  rcases e with ⟨⟨⟨a, _⟩, _⟩⟩ | ⟨⟨⟨a, _⟩, _⟩, _, _⟩
  · simp only [Expr.lexemes, Sum.lexemes, Product.lexemes, List.append_assoc]
    exact atom a _
  · simp only [Expr.lexemes, Sum.lexemes, Product.lexemes, List.append_assoc]
    exact atom a _

variable {n : Nat}

theorem lexemesAll_cancels (inner : Cancels Stmt.lexemes Separate fun s => s.lexemes.length < n)
    {rest rest' : List Lexeme} (closed : Closed rest) (closed' : Closed rest') :
    ∀ body body' : List Stmt, (∀ s ∈ body, s.lexemes.length < n) →
      lexemesAll body ++ rest = lexemesAll body' ++ rest' → body = body' ∧ rest = rest' := by
  have apart {rest : List Lexeme} (closed : Closed rest) (s : Stmt) (behind : List Lexeme) :
      rest ≠ s.lexemes ++ behind := by
    rintro rfl
    obtain ⟨l, ls, written, _, other⟩ := s.first_separates
    exact other (closed l (by simp [written]))
  intro body
  induction body with
  | nil =>
      rintro (_ | ⟨s', body'⟩) _ same
      · exact ⟨rfl, by simpa [lexemesAll] using same⟩
      · rw [lexemesAll, lexemesAll, List.append_assoc] at same
        exact absurd same (apart closed s' _)
  | cons s body ih =>
      rintro (_ | ⟨s', body'⟩) small same
      · rw [lexemesAll, lexemesAll, List.append_assoc] at same
        exact absurd same.symm (apart closed' s _)
      · rw [lexemesAll, lexemesAll, List.append_assoc, List.append_assoc] at same
        obtain ⟨rfl, behind⟩ := inner s s' _ _ (small s (by simp)) (separate_lexemesAll closed body)
          (separate_lexemesAll closed' body') same
        obtain ⟨rfl, rfl⟩ := ih body' (fun u later => small u (by simp [later])) behind
        exact ⟨rfl, rfl⟩

theorem braced_cancels (inner : Cancels Stmt.lexemes Separate fun s => s.lexemes.length < n) :
    Cancels (fun body => braced (lexemesAll body)) (fun _ => True)
      fun body => (braced (lexemesAll body)).length ≤ n + 1 := by
  intro body body' rest rest' small _ _ same
  have closed (behind : List Lexeme) : Closed (lexSign .closeBrace :: behind) := by
    intro l first
    rw [← Option.some.inj first]
    rfl
  simp only [braced, List.length_cons, List.length_append, List.length_nil] at small
  simp only [braced, List.cons_append, List.append_assoc, List.nil_append, List.cons.injEq,
    true_and] at same
  have allSmall (s : Stmt) (member : s ∈ body) : s.lexemes.length < n := by
    have inside := length_le_of_mem Stmt.lexemes member
    rw [← lexemesAll_eq_flatMap] at inside
    omega
  obtain ⟨rfl, behind⟩ := lexemesAll_cancels inner (closed rest) (closed rest') body body' allSmall
    same
  exact ⟨rfl, (List.cons.inj behind).2⟩

theorem loose_keyword (k : Keyword) (behind : List Lexeme) : Loose 1 (lexKeyword k :: behind) := by
  intro l first
  rw [← Option.some.inj first]
  exact Nat.lt_succ_self 0

theorem branch_cancels (inner : Cancels Stmt.lexemes Separate fun s => s.lexemes.length < n)
    {condition condition' : Expr} {body body' : List Stmt} {rest rest' : List Lexeme}
    (small : (braced (lexemesAll body)).length ≤ n + 1)
    (same : condition.lexemes ++ lexKeyword .whenTrue :: (braced (lexemesAll body) ++ rest) =
      condition'.lexemes ++ lexKeyword .whenTrue :: (braced (lexemesAll body') ++ rest')) :
    condition = condition' ∧ body = body' ∧ rest = rest' := by
  obtain ⟨rfl, behind⟩ := expr_cancels condition condition' _ _ trivial (loose_keyword _ _)
    (loose_keyword _ _) same
  obtain ⟨rfl, rfl⟩ := braced_cancels inner body body' rest rest' small trivial trivial
    (List.cons.inj behind).2
  exact ⟨rfl, rfl, rfl⟩

theorem stmt_cancels_succ (inner : Cancels Stmt.lexemes Separate fun s => s.lexemes.length < n) :
    Cancels Stmt.lexemes Separate fun s => s.lexemes.length < n + 1 := by
  have blocks := braced_cancels inner
  have apart {rest : List Lexeme} (separate : Separate rest) (behind : List Lexeme) :
      rest ≠ lexKeyword .whenFalse :: behind := by
    rintro rfl
    exact Bool.noConfusion (separate (lexKeyword .whenFalse) (by simp))
  intro s s' rest rest' small separate separate' same
  cases s with
  | setPwm channel value =>
      cases s' with
      | setPwm => simpa [Stmt.lexemes, lexKeyword, lexName, lexNumber, and_assoc] using same
      | _ => simp [Stmt.lexemes, braced, lexKeyword, lexName, lexSign] at same
  | wait seconds =>
      cases s' with
      | wait => simpa [Stmt.lexemes, lexKeyword, lexNumber] using same
      | _ => simp [Stmt.lexemes, braced, lexKeyword, lexName, lexSign] at same
  | readSensor sensor =>
      cases s' with
      | readSensor => simpa [Stmt.lexemes, lexKeyword, lexName] using same
      | _ => simp [Stmt.lexemes, braced, lexKeyword, lexName, lexSign] at same
  | readAssign target sensor =>
      cases s' with
      | readAssign =>
          simpa [Stmt.lexemes, lexKeyword, lexName, lexSign, and_assoc] using same
      | assign target' value =>
          simp only [Stmt.lexemes, List.cons_append, List.nil_append, List.cons.injEq] at same
          exact absurd same.2.2.symm (value.lexemes_ne_keyword _ _ _)
      | _ => simp [Stmt.lexemes, braced, lexKeyword, lexName, lexSign] at same
  | assign target value =>
      cases s' with
      | readAssign =>
          simp only [Stmt.lexemes, List.cons_append, List.nil_append, List.cons.injEq] at same
          exact absurd same.2.2 (value.lexemes_ne_keyword _ _ _)
      | assign target' value' =>
          simp only [Stmt.lexemes, List.cons_append, List.cons.injEq, lexName, Prod.mk.injEq,
            true_and] at same
          obtain ⟨rfl, same⟩ := same
          obtain ⟨rfl, rfl⟩ := expr_cancels value value' rest rest' trivial separate.loose
            separate'.loose same
          exact ⟨rfl, rfl⟩
      | _ => simp [Stmt.lexemes, braced, lexKeyword, lexName, lexSign] at same
  | branch condition whenTrue =>
      simp only [Stmt.lexemes, List.length_cons, List.length_append] at small
      cases s' with
      | branch condition' whenTrue' =>
          simp only [Stmt.lexemes, List.cons_append, List.append_assoc, List.cons.injEq,
            true_and] at same
          obtain ⟨rfl, rfl, rfl⟩ := branch_cancels inner (by omega) same
          exact ⟨rfl, rfl⟩
      | branchElse condition' whenTrue' whenFalse =>
          simp only [Stmt.lexemes, List.cons_append, List.append_assoc, List.cons.injEq,
            true_and] at same
          obtain ⟨_, _, behind⟩ := branch_cancels inner (by omega) same
          exact absurd behind (apart separate _)
      | _ => simp [Stmt.lexemes, braced, lexKeyword, lexName, lexSign] at same
  | branchElse condition whenTrue whenFalse =>
      simp only [Stmt.lexemes, List.length_cons, List.length_append] at small
      cases s' with
      | branch condition' whenTrue' =>
          simp only [Stmt.lexemes, List.cons_append, List.append_assoc, List.cons.injEq,
            true_and] at same
          obtain ⟨_, _, behind⟩ := branch_cancels inner (by omega) same
          exact absurd behind.symm (apart separate' _)
      | branchElse condition' whenTrue' whenFalse' =>
          simp only [Stmt.lexemes, List.cons_append, List.append_assoc, List.cons.injEq,
            true_and] at same
          obtain ⟨rfl, rfl, behind⟩ := branch_cancels inner (by omega) same
          obtain ⟨rfl, rfl⟩ := blocks whenFalse whenFalse' rest rest' (by omega) trivial trivial
            (List.cons.inj behind).2
          exact ⟨rfl, rfl⟩
      | _ => simp [Stmt.lexemes, braced, lexKeyword, lexName, lexSign] at same
  | loop count body =>
      simp only [Stmt.lexemes, List.length_cons] at small
      cases s' with
      | loop count' body' =>
          simp only [Stmt.lexemes, List.cons_append, List.cons.injEq, lexNumber, Prod.mk.injEq,
            true_and] at same
          obtain ⟨rfl, same⟩ := same
          obtain ⟨rfl, rfl⟩ := blocks body body' rest rest' (by omega) trivial trivial same
          exact ⟨rfl, rfl⟩
      | _ => simp [Stmt.lexemes, braced, lexKeyword, lexName, lexSign] at same
  | block body =>
      simp only [Stmt.lexemes] at small
      cases s' with
      | block body' =>
          simp only [Stmt.lexemes] at same
          obtain ⟨rfl, rfl⟩ := blocks body body' rest rest' (by omega) trivial trivial same
          exact ⟨rfl, rfl⟩
      | _ => simp [Stmt.lexemes, braced, lexKeyword, lexName, lexSign] at same

theorem lexemesAll_injective : Function.Injective lexemesAll := by
  have bounded : ∀ n, Cancels Stmt.lexemes Separate fun s => s.lexemes.length < n := by
    intro n
    induction n with
    | zero => intro s s' rest rest' small; simp at small
    | succ n ih => exact stmt_cancels_succ ih
  have closed : Closed [] := by simp [Closed]
  intro program program' same
  refine (lexemesAll_cancels (bounded ((lexemesAll program).length + 1)) closed closed program
    program' ?_ (by rw [same])).1
  intro s member
  have inside := length_le_of_mem Stmt.lexemes member
  rw [← lexemesAll_eq_flatMap] at inside
  omega

theorem parse_of_lexemes {text : String} {program : List Stmt}
    (same : (parse text).toOption.map lexemesAll = some (lexemesAll program)) :
    parse text = .ok program := by
  cases read : parse text with
  | error fault => simp [read, Except.toOption] at same
  | ok other =>
      simp only [read, Except.toOption, Option.map_some, Option.some.injEq] at same
      rw [lexemesAll_injective same]

end Statements

end ThrustBench.Routine
