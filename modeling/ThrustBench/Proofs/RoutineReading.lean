import ThrustBench.Proofs.Productions
import ThrustBench.Proofs.RoutineTerminals

/-!
Reading routines, against their grammar.  Each rule of the reader finds what is written with the
terminals of a term, and nothing else; the depth to which it looks for nested terms is bounded by
the number of their terminals, and so by the length of the text.
-/

namespace ThrustBench.Routine

open Grammar (Rule)
open Grammar.Rule (Exact Chain)

abbrev Reads (lexemes : List Lexeme) : List Char → List Char → Prop := Chain lexicon.Takes lexemes

theorem reads_singleton {lexeme : Lexeme} {cs rest : List Char} :
    Reads [lexeme] cs rest ↔ lexicon.Takes lexeme cs rest := by
  constructor
  · rintro (_ | ⟨takes, _ | _⟩)
    exact takes
  · intro takes
    exact .cons takes .nil

theorem Reads.split_first {lexeme : Lexeme} {lexemes : List Lexeme} {cs rest : List Char}
    (reads : Reads (lexeme :: lexemes) cs rest) :
    ∃ middle, Reads [lexeme] cs middle ∧ Reads lexemes middle rest :=
  Chain.split (show Reads ([lexeme] ++ lexemes) cs rest from reads)

theorem Reads.trims {lexemes : List Lexeme} {cs rest : List Char} (reads : Reads lexemes cs rest) :
    rest <:+ cs :=
  (chain_shrinks reads).1

theorem Reads.shrinks {lexemes : List Lexeme} {cs rest : List Char} (some : lexemes ≠ [])
    (reads : Reads lexemes cs rest) : rest <:+ cs ∧ rest.length < cs.length := by
  obtain ⟨trims, bound⟩ := chain_shrinks reads
  have := List.length_pos_iff.mpr some
  exact ⟨trims, by omega⟩

theorem reads_flatMap_iff {α : Type} {written : α → List Lexeme} {as : List α}
    {cs rest : List Char} :
    Reads (as.flatMap written) cs rest ↔ Chain (fun a => Reads (written a)) as cs rest := by
  constructor
  · intro reads
    induction as generalizing cs with
    | nil => cases reads; exact .nil
    | cons a as ih =>
        rw [List.flatMap_cons] at reads
        obtain ⟨middle, here, later⟩ := Chain.split reads
        exact .cons here (ih later)
  · intro chain
    induction chain with
    | nil => exact .nil
    | cons here _ ih => rw [List.flatMap_cons]; exact Chain.append here ih

/-- A rule reads terms of one kind, among them all that are as small as stated. -/
abbrev Parses {α : Type} (p : Rule Terminal α) (written : α → List Lexeme) (P : α → Prop) : Prop :=
  Exact p (fun a => Reads (written a)) fun cs rest => ∃ a, P a ∧ Reads (written a) cs rest

section Words

theorem take_exact (t : Terminal) :
    Exact (take t) (fun text => Reads [(t, text)])
      fun cs rest => ∃ text, Reads [(t, text)] cs rest := by
  refine (Exact.terminal lexicon t).mono ?_ ?_
  · intro text cs rest takes
    exact reads_singleton.mpr takes
  · rintro cs rest ⟨text, reads⟩
    exact ⟨text, reads_singleton.mp reads⟩

theorem takeSign_exact (s : Sign) :
    Exact (takeSign s) (fun _ => Reads [lexSign s]) (Reads [lexSign s]) := by
  refine ((take_exact (.sign s)).bind fun _ => .pure ()).mono ?_ ?_
  · rintro _ cs rest ⟨text, _, reads, _, rfl⟩
    obtain ⟨_, longest⟩ := takes_iff_skip.mp (reads_singleton.mp reads)
    rwa [show text = s.text.toList from longest.1] at reads
  · intro cs rest reads
    exact ⟨rest, ⟨_, reads⟩, rfl⟩

theorem takeKeyword_exact (k : Keyword) :
    Exact (takeKeyword k) (fun _ => Reads [lexKeyword k]) (Reads [lexKeyword k]) := by
  refine ((take_exact (.keyword k)).bind fun _ => .pure ()).mono ?_ ?_
  · rintro _ cs rest ⟨text, _, reads, _, rfl⟩
    obtain ⟨_, longest⟩ := takes_iff_skip.mp (reads_singleton.mp reads)
    rwa [show text = k.text.toList from longest.1] at reads
  · intro cs rest reads
    exact ⟨rest, ⟨_, reads⟩, rfl⟩

theorem operator_exact {ω : Type} (sign : ω → Sign) (one other : ω)
    (only : ∀ op, op = one ∨ op = other) :
    Exact (Rule.either (do takeSign (sign one); return one)
        (do takeSign (sign other); return other))
      (fun op => Reads [lexSign (sign op)])
      fun cs rest => ∃ op, Reads [lexSign (sign op)] cs rest := by
  refine (Exact.either (fun _ _ _ reads => reads.trims)
    (((takeSign_exact (sign one)).bind fun _ => .pure one).weaken ?_)
    (((takeSign_exact (sign other)).bind fun _ => .pure other).weaken ?_)).mono
      (fun _ _ _ reads => reads) ?_
  · rintro op cs rest ⟨_, _, reads, rfl, rfl⟩
    exact reads
  · rintro op cs rest ⟨_, _, reads, rfl, rfl⟩
    exact reads
  · rintro cs rest ⟨op, reads⟩
    rcases only op with rfl | rfl
    · exact Or.inl ⟨rest, reads, rfl⟩
    · exact Or.inr ⟨rest, reads, rfl⟩

theorem addOp_exact :
    Exact addOp (fun op => Reads [lexSign op.sign])
      fun cs rest => ∃ op : AddOp, Reads [lexSign op.sign] cs rest :=
  operator_exact AddOp.sign .plus .minus fun op => by cases op <;> simp

theorem mulOp_exact :
    Exact mulOp (fun op => Reads [lexSign op.sign])
      fun cs rest => ∃ op : MulOp, Reads [lexSign op.sign] cs rest :=
  operator_exact MulOp.sign .times .divide fun op => by cases op <;> simp

theorem comparison_exact :
    Exact comparison (fun c => Reads [(.comparison c, c.text.toList)])
      fun cs rest => ∃ c : Comparison, Reads [(.comparison c, c.text.toList)] cs rest := by
  refine (Exact.oneOf_map (fun _ _ _ reads => reads.trims) (fun c =>
    ((take_exact (.comparison c)).bind fun _ => .pure c).weaken ?_) Comparison.all).mono
      (fun _ _ _ reads => reads) ?_
  · rintro _ cs rest ⟨text, _, reads, rfl, rfl⟩
    obtain ⟨_, longest⟩ := takes_iff_skip.mp (reads_singleton.mp reads)
    rwa [show text = _ from longest.1] at reads
  · rintro cs rest ⟨c, reads⟩
    have listed : c ∈ Comparison.all := by cases c <;> simp [Comparison.all]
    exact ⟨c, listed, rest, ⟨_, reads⟩, rfl⟩

end Words

section Expressions

theorem length_le_of_mem {α : Type} (written : α → List Lexeme) {a : α} {as : List α}
    (member : a ∈ as) : (written a).length ≤ (as.flatMap written).length :=
  (List.sublist_flatten_of_mem (List.mem_map_of_mem member)).length_le

def folded {α ω : Type} (sign : ω → Sign) (written : α → List Lexeme) (first : α)
    (others : List (ω × α)) : List Lexeme :=
  written first ++ others.flatMap fun t => lexSign (sign t.1) :: written t.2

theorem folded_exact {α β ω : Type} {p : Rule Terminal α} {operator : Rule Terminal ω}
    {sign : ω → Sign} {written : α → List Lexeme} {n : Nat} (build : α → List (ω × α) → β)
    (operand : Parses p written fun a => (written a).length ≤ n)
    (between : Exact operator (fun op => Reads [lexSign (sign op)])
      fun cs rest => ∃ op, Reads [lexSign (sign op)] cs rest) :
    Exact (do
        let first ← p
        let rest ← Rule.star do
          let op ← operator
          let next ← p
          return (op, next)
        return build first rest)
      (fun b cs rest => ∃ first others, b = build first others ∧
        Reads (folded sign written first others) cs rest)
      fun cs rest => ∃ first others, (folded sign written first others).length ≤ n ∧
        Reads (folded sign written first others) cs rest := by
  have further : Exact (do
        let op ← operator
        let next ← p
        return (op, next))
      (fun t : ω × α => Reads (lexSign (sign t.1) :: written t.2))
      fun cs rest => ∃ t : ω × α, (written t.2).length ≤ n ∧
        Reads (lexSign (sign t.1) :: written t.2) cs rest := by
    refine (between.bind fun op => operand.bind fun next => .pure (op, next)).mono ?_ ?_
    · rintro _ cs rest ⟨op, _, readsOp, next, _, readsNext, rfl, rfl⟩
      exact Chain.append readsOp readsNext
    · rintro cs rest ⟨⟨op, next⟩, small, reads⟩
      obtain ⟨middle, readsOp, readsNext⟩ := reads.split_first
      exact ⟨middle, ⟨op, readsOp⟩, rest, ⟨next, small, readsNext⟩, rfl⟩
  -- only where an operand ends can be asked for, so the bound is on what is written, not on values
  refine (operand.bind fun first => (Exact.star ?_ further).bind fun others =>
    .pure (build first others)).mono ?_ ?_
  · intro t cs rest reads
    exact reads.shrinks (by simp)
  · rintro _ cs rest ⟨first, _, readsFirst, others, _, chain, rfl, rfl⟩
    exact ⟨first, others, rfl, Chain.append readsFirst (reads_flatMap_iff.mpr chain)⟩
  · rintro cs rest ⟨first, others, small, reads⟩
    obtain ⟨middle, readsFirst, readsOthers⟩ := Chain.split reads
    rw [folded, List.length_append] at small
    refine ⟨middle, ⟨first, by omega, readsFirst⟩, rest,
      (reads_flatMap_iff.mp readsOthers).pieces_of ?_, rfl⟩
    intro t member
    have inside := length_le_of_mem (fun t : ω × α => lexSign (sign t.1) :: written t.2) member
    rw [List.length_cons] at inside
    omega

theorem Terms.exists_ofList (ts : Terms) : ∃ list, ts = .ofList list := by
  cases ts with
  | nil => exact ⟨[], rfl⟩
  | cons op next rest =>
      obtain ⟨list, rfl⟩ := rest.exists_ofList
      exact ⟨(op, next) :: list, rfl⟩

theorem Factors.exists_ofList (fs : Factors) : ∃ list, fs = .ofList list := by
  cases fs with
  | nil => exact ⟨[], rfl⟩
  | cons op next rest =>
      obtain ⟨list, rfl⟩ := rest.exists_ofList
      exact ⟨(op, next) :: list, rfl⟩

variable {inner : Rule Terminal Expr} {n : Nat}

theorem atom_parses (parses : Parses inner Expr.lexemes fun e => e.lexemes.length < n) :
    Parses (atom inner) Atom.lexemes fun a => a.lexemes.length ≤ n := by
  have trims (a : Atom) (cs rest : List Char) (reads : Reads a.lexemes cs rest) : rest <:+ cs :=
    reads.trims
  refine (Exact.either trims
    (((take_exact .number).bind fun text => Exact.pure (Atom.number text)).weaken ?_) <|
    Exact.either trims
      (((take_exact .name).bind fun text => Exact.pure (Atom.name text)).weaken ?_) <|
    Exact.either trims (((takeSign_exact .openParen).bind fun _ => parses.bind fun e =>
      (takeSign_exact .closeParen).bind fun _ => Exact.pure (Atom.group e)).weaken ?_) .none).mono
    (fun _ _ _ reads => reads) ?_
  · rintro a cs rest ⟨text, _, reads, rfl, rfl⟩
    exact reads
  · rintro a cs rest ⟨text, _, reads, rfl, rfl⟩
    exact reads
  · rintro a cs rest ⟨_, _, opens, e, _, readsInner, _, _, closes, rfl, rfl⟩
    exact Chain.append opens (Chain.append readsInner closes)
  · rintro cs rest ⟨text | text | e, small, reads⟩
    · exact Or.inl ⟨rest, ⟨text, reads⟩, rfl⟩
    · exact Or.inr (Or.inl ⟨rest, ⟨text, reads⟩, rfl⟩)
    · obtain ⟨_, opens, further⟩ := Reads.split_first reads
      obtain ⟨_, readsInner, closes⟩ := Chain.split further
      have smaller : e.lexemes.length < n := by
        simp only [Atom.lexemes, List.length_cons, List.length_append] at small
        omega
      exact Or.inr (Or.inr (Or.inl ⟨_, opens, _, ⟨e, smaller, readsInner⟩, _, closes, rfl⟩))

theorem product_parses (parses : Parses inner Expr.lexemes fun e => e.lexemes.length < n) :
    Parses (product inner) Product.lexemes fun p => p.lexemes.length ≤ n := by
  refine (folded_exact (fun first others => Product.mk first (.ofList others))
    (atom_parses parses) mulOp_exact).mono ?_ ?_
  · rintro _ cs rest ⟨first, others, rfl, reads⟩
    rwa [Product.lexemes, Factors.lexemes_ofList]
  · rintro cs rest ⟨⟨first, factors⟩, small, reads⟩
    obtain ⟨others, rfl⟩ := factors.exists_ofList
    rw [Product.lexemes, Factors.lexemes_ofList] at small reads
    exact ⟨first, others, small, reads⟩

theorem sum_parses (parses : Parses inner Expr.lexemes fun e => e.lexemes.length < n) :
    Parses (sum inner) Sum.lexemes fun s => s.lexemes.length ≤ n := by
  refine (folded_exact (fun first others => Sum.mk first (.ofList others))
    (product_parses parses) addOp_exact).mono ?_ ?_
  · rintro _ cs rest ⟨first, others, rfl, reads⟩
    rwa [Sum.lexemes, Terms.lexemes_ofList]
  · rintro cs rest ⟨⟨first, terms⟩, small, reads⟩
    obtain ⟨others, rfl⟩ := terms.exists_ofList
    rw [Sum.lexemes, Terms.lexemes_ofList] at small reads
    exact ⟨first, others, small, reads⟩

def compared (t : Comparison × Sum) : List Lexeme :=
  (.comparison t.1, t.1.text.toList) :: t.2.lexemes

theorem compared_exact (parses : Parses inner Expr.lexemes fun e => e.lexemes.length < n) :
    Exact (do
        let c ← comparison
        let right ← sum inner
        return (c, right))
      (fun t => Reads (compared t))
      fun cs rest => ∃ t : Comparison × Sum, t.2.lexemes.length ≤ n ∧
        Reads (compared t) cs rest := by
  refine (comparison_exact.bind fun c => (sum_parses parses).bind fun right =>
    .pure (c, right)).mono ?_ ?_
  · rintro _ cs rest ⟨c, _, readsSign, right, _, readsRight, rfl, rfl⟩
    exact Chain.append readsSign readsRight
  · rintro cs rest ⟨⟨c, right⟩, small, reads⟩
    obtain ⟨middle, readsSign, readsRight⟩ := Reads.split_first reads
    exact ⟨middle, ⟨c, readsSign⟩, rest, ⟨right, small, readsRight⟩, rfl⟩

theorem exprOf_parses (parses : Parses inner Expr.lexemes fun e => e.lexemes.length < n) :
    Parses (exprOf inner) Expr.lexemes fun e => e.lexemes.length < n + 1 := by
  have second := Exact.optional (fun _ _ _ reads => Reads.trims reads) (compared_exact parses)
  refine ((sum_parses parses).bind fun left => second.bind
    (S := fun right e cs rest => rest = cs ∧ e.lexemes = left.lexemes ++ right.elim [] compared)
    (M := fun cs rest => rest = cs) fun right => ?last).mono ?sound ?finds
  case last =>
    rcases right with _ | ⟨c, right⟩
    · refine (Exact.pure _).weaken ?_
      rintro e cs rest ⟨rfl, stays⟩
      exact ⟨stays, by simp [Expr.lexemes]⟩
    · refine (Exact.pure _).weaken ?_
      rintro e cs rest ⟨rfl, stays⟩
      exact ⟨stays, by simp [Expr.lexemes, compared]⟩
  case sound =>
    rintro e cs rest ⟨left, _, readsLeft, right, _, readsRight, rfl, written⟩
    rw [written]
    rcases readsRight with ⟨t, rfl, reads⟩ | ⟨rfl, rfl⟩
    · exact Chain.append readsLeft reads
    · simpa using readsLeft
  case finds =>
    rintro cs rest ⟨left | ⟨left, c, right⟩, small, reads⟩
    · exact ⟨rest, ⟨left, Nat.lt_succ_iff.mp small, reads⟩, rest, Or.inr rfl, rfl⟩
    · obtain ⟨middle, readsLeft, readsRight⟩ := Chain.split reads
      simp only [Expr.lexemes, List.length_append, List.length_cons] at small
      exact ⟨middle, ⟨left, by omega, readsLeft⟩, rest,
        Or.inl ⟨(c, right), by dsimp only; omega, readsRight⟩, rfl⟩

theorem exprTo_parses : ∀ depth,
    Parses (exprTo depth) Expr.lexemes fun e => e.lexemes.length < depth := by
  intro depth
  induction depth with
  | zero => exact Exact.none.mono (fun _ _ _ related => related) (by simp)
  | succ depth ih => exact exprOf_parses ih

/-- A text has no more terminals than characters, so that its length bounds the depth. -/
theorem expr_exact : Exact expr (fun e => Reads e.lexemes)
    fun cs rest => ∃ e : Expr, Reads e.lexemes cs rest := by
  constructor
  · intro cs e rest found
    exact (exprTo_parses _).sound cs e rest found
  · rintro cs rest ⟨e, reads⟩
    have bound := (chain_shrinks reads).2
    exact (exprTo_parses _).finds cs rest ⟨e, by omega, reads⟩

end Expressions

section Statements

theorem Stmt.lexemes_ne_nil (s : Stmt) : s.lexemes ≠ [] := by
  cases s <;> simp [Stmt.lexemes, braced]

theorem reads_lexemesAll_iff {body : List Stmt} {cs rest : List Char} :
    Reads (lexemesAll body) cs rest ↔ Chain (fun s => Reads s.lexemes) body cs rest := by
  rw [lexemesAll_eq_flatMap, reads_flatMap_iff]

variable {inner : Rule Terminal Stmt} {n : Nat}

theorem block_parses (parses : Parses inner Stmt.lexemes fun s => s.lexemes.length < n) :
    Parses (block inner) (fun body => braced (lexemesAll body))
      fun body => (braced (lexemesAll body)).length ≤ n + 1 := by
  have many := Exact.star (fun s cs rest reads => Reads.shrinks s.lexemes_ne_nil reads) parses
  refine ((takeSign_exact .openBrace).bind fun _ => many.bind fun body =>
    (takeSign_exact .closeBrace).bind fun _ => .pure body).mono ?_ ?_
  · rintro _ cs rest ⟨_, _, opens, body, _, chain, _, _, closes, rfl, rfl⟩
    exact Chain.append opens (Chain.append (reads_lexemesAll_iff.mpr chain) closes)
  · rintro cs rest ⟨body, small, reads⟩
    simp only [braced] at small reads
    obtain ⟨_, opens, further⟩ := Reads.split_first reads
    obtain ⟨_, readsBody, closes⟩ := Chain.split further
    refine ⟨_, opens, _, (reads_lexemesAll_iff.mp readsBody).pieces_of ?_, _, closes, rfl⟩
    intro s member
    have inside := length_le_of_mem Stmt.lexemes member
    rw [← lexemesAll_eq_flatMap] at inside
    simp only [List.length_cons, List.length_append, List.length_nil] at small
    omega

def otherwise (body : List Stmt) : List Lexeme := lexKeyword .whenFalse :: braced (lexemesAll body)

theorem otherwise_exact (parses : Parses inner Stmt.lexemes fun s => s.lexemes.length < n) :
    Exact (do takeKeyword .whenFalse; block inner) (fun body => Reads (otherwise body))
      fun cs rest => ∃ body, (braced (lexemesAll body)).length ≤ n + 1 ∧
        Reads (otherwise body) cs rest := by
  refine ((takeKeyword_exact .whenFalse).bind fun _ => block_parses parses).mono ?_ ?_
  · rintro body cs rest ⟨_, _, word, readsBody⟩
    exact Chain.append word readsBody
  · rintro cs rest ⟨body, small, reads⟩
    obtain ⟨_, word, readsBody⟩ := Reads.split_first reads
    exact ⟨_, word, body, small, readsBody⟩

theorem setPwm_exact :
    Exact (do
        takeKeyword .setPwm
        let channel ← take .name
        let value ← take .number
        return .setPwm channel value : Rule Terminal Stmt)
      (fun s => Reads s.lexemes)
      fun cs rest => ∃ channel value, Reads (Stmt.setPwm channel value).lexemes cs rest := by
  refine ((takeKeyword_exact .setPwm).bind fun _ => (take_exact .name).bind fun channel =>
    (take_exact .number).bind fun value => Exact.pure (Stmt.setPwm channel value)).mono ?_ ?_
  · rintro s cs rest ⟨_, _, word, channel, _, name, value, _, number, rfl, rfl⟩
    rw [Stmt.lexemes]
    exact Chain.append word (Chain.append name number)
  · rintro cs rest ⟨channel, value, reads⟩
    rw [Stmt.lexemes] at reads
    obtain ⟨_, word, later⟩ := reads.split_first
    obtain ⟨_, name, number⟩ := later.split_first
    exact ⟨_, word, _, ⟨_, name⟩, _, ⟨_, number⟩, rfl⟩

theorem wait_exact :
    Exact (do
        takeKeyword .wait
        return .wait (← take .number) : Rule Terminal Stmt)
      (fun s => Reads s.lexemes)
      fun cs rest => ∃ seconds, Reads (Stmt.wait seconds).lexemes cs rest := by
  refine ((takeKeyword_exact .wait).bind fun _ => (take_exact .number).bind fun seconds =>
    Exact.pure (Stmt.wait seconds)).mono ?_ ?_
  · rintro s cs rest ⟨_, _, word, seconds, _, number, rfl, rfl⟩
    rw [Stmt.lexemes]
    exact Chain.append word number
  · rintro cs rest ⟨seconds, reads⟩
    rw [Stmt.lexemes] at reads
    obtain ⟨_, word, number⟩ := reads.split_first
    exact ⟨_, word, _, ⟨_, number⟩, rfl⟩

theorem readSensor_exact :
    Exact (do
        takeKeyword .readSensor
        return .readSensor (← take .name) : Rule Terminal Stmt)
      (fun s => Reads s.lexemes)
      fun cs rest => ∃ sensor, Reads (Stmt.readSensor sensor).lexemes cs rest := by
  refine ((takeKeyword_exact .readSensor).bind fun _ => (take_exact .name).bind fun sensor =>
    Exact.pure (Stmt.readSensor sensor)).mono ?_ ?_
  · rintro s cs rest ⟨_, _, word, sensor, _, name, rfl, rfl⟩
    rw [Stmt.lexemes]
    exact Chain.append word name
  · rintro cs rest ⟨sensor, reads⟩
    rw [Stmt.lexemes] at reads
    obtain ⟨_, word, name⟩ := reads.split_first
    exact ⟨_, word, _, ⟨_, name⟩, rfl⟩

theorem readAssign_exact :
    Exact (do
        let target ← take .name
        takeSign .assign
        takeKeyword .readSensor
        return .readAssign target (← take .name) : Rule Terminal Stmt)
      (fun s => Reads s.lexemes)
      fun cs rest => ∃ target sensor, Reads (Stmt.readAssign target sensor).lexemes cs rest := by
  refine ((take_exact .name).bind fun target => (takeSign_exact .assign).bind fun _ =>
    (takeKeyword_exact .readSensor).bind fun _ => (take_exact .name).bind fun sensor =>
      Exact.pure (Stmt.readAssign target sensor)).mono ?_ ?_
  · rintro s cs rest ⟨target, _, name, _, _, sign, _, _, word, sensor, _, nameToo, rfl, rfl⟩
    rw [Stmt.lexemes]
    exact Chain.append name (Chain.append sign (Chain.append word nameToo))
  · rintro cs rest ⟨target, sensor, reads⟩
    rw [Stmt.lexemes] at reads
    obtain ⟨_, name, later⟩ := reads.split_first
    obtain ⟨_, sign, further⟩ := later.split_first
    obtain ⟨_, word, nameToo⟩ := further.split_first
    exact ⟨_, ⟨_, name⟩, _, sign, _, word, _, ⟨_, nameToo⟩, rfl⟩

theorem assign_exact :
    Exact (do
        let target ← take .name
        takeSign .assign
        return .assign target (← expr) : Rule Terminal Stmt)
      (fun s => Reads s.lexemes)
      fun cs rest => ∃ target value, Reads (Stmt.assign target value).lexemes cs rest := by
  refine ((take_exact .name).bind fun target => (takeSign_exact .assign).bind fun _ =>
    expr_exact.bind fun value => Exact.pure (Stmt.assign target value)).mono ?_ ?_
  · rintro s cs rest ⟨target, _, name, _, _, sign, value, _, readsValue, rfl, rfl⟩
    rw [Stmt.lexemes]
    exact Chain.append name (Chain.append sign readsValue)
  · rintro cs rest ⟨target, value, reads⟩
    rw [Stmt.lexemes] at reads
    obtain ⟨_, name, later⟩ := reads.split_first
    obtain ⟨_, sign, readsValue⟩ := later.split_first
    exact ⟨_, ⟨_, name⟩, _, sign, _, ⟨value, readsValue⟩, rfl⟩

def branching (condition : Expr) (whenTrue : List Stmt) (whenFalse : Option (List Stmt)) :
    List Lexeme :=
  lexKeyword .branch :: (condition.lexemes ++ lexKeyword .whenTrue ::
    (braced (lexemesAll whenTrue) ++ whenFalse.elim [] otherwise))

theorem branch_exact (parses : Parses inner Stmt.lexemes fun s => s.lexemes.length < n) :
    Exact (do
        takeKeyword .branch
        let condition ← expr
        takeKeyword .whenTrue
        let whenTrue ← block inner
        let whenFalse ← Rule.optional do
          takeKeyword .whenFalse
          block inner
        match whenFalse with
        | some whenFalse => return .branchElse condition whenTrue whenFalse
        | none => return .branch condition whenTrue : Rule Terminal Stmt)
      (fun s => Reads s.lexemes)
      fun cs rest => ∃ condition whenTrue whenFalse,
        (branching condition whenTrue whenFalse).length ≤ n ∧
          Reads (branching condition whenTrue whenFalse) cs rest := by
  have others := Exact.optional (fun _ _ _ reads => Reads.trims reads) (otherwise_exact parses)
  refine ((takeKeyword_exact .branch).bind fun _ => expr_exact.bind fun condition =>
    (takeKeyword_exact .whenTrue).bind fun _ => (block_parses parses).bind fun whenTrue =>
      others.bind (S := fun whenFalse s cs rest =>
          rest = cs ∧ s.lexemes = branching condition whenTrue whenFalse)
        (M := fun cs rest => rest = cs) fun whenFalse => ?blocks).mono ?sound ?finds
  case blocks =>
    rcases whenFalse with _ | whenFalse
    · refine (Exact.pure _).weaken ?_
      rintro s cs rest ⟨rfl, stays⟩
      exact ⟨stays, by simp [Stmt.lexemes, branching]⟩
    · refine (Exact.pure _).weaken ?_
      rintro s cs rest ⟨rfl, stays⟩
      exact ⟨stays, by simp [Stmt.lexemes, branching, otherwise]⟩
  case sound =>
    rintro s cs rest ⟨_, _, word, condition, _, readsCondition, _, _, wordToo, whenTrue, _,
      readsTrue, whenFalse, _, readsFalse, rfl, written⟩
    rw [written]
    refine Chain.append word (Chain.append readsCondition (Chain.append wordToo
      (Chain.append readsTrue ?_)))
    rcases readsFalse with ⟨body, rfl, reads⟩ | ⟨rfl, rfl⟩
    · exact reads
    · exact .nil
  case finds =>
    rintro cs rest ⟨condition, whenTrue, whenFalse, small, reads⟩
    obtain ⟨_, word, later⟩ := Reads.split_first reads
    obtain ⟨_, readsCondition, further⟩ := Chain.split later
    obtain ⟨_, wordToo, blocks⟩ := Reads.split_first further
    obtain ⟨_, readsTrue, readsFalse⟩ := Chain.split blocks
    simp only [branching, List.length_cons, List.length_append] at small
    refine ⟨_, word, _, ⟨condition, readsCondition⟩, _, wordToo, _, ⟨whenTrue, by omega, readsTrue⟩,
      rest, ?_, rfl⟩
    rcases whenFalse with _ | whenFalse
    · cases readsFalse
      exact Or.inr rfl
    · simp only [Option.elim, otherwise, List.length_cons] at small
      exact Or.inl ⟨whenFalse, by omega, readsFalse⟩

theorem loop_exact (parses : Parses inner Stmt.lexemes fun s => s.lexemes.length < n) :
    Exact (do
        takeKeyword .loop
        let count ← take .number
        return .loop count (← block inner) : Rule Terminal Stmt)
      (fun s => Reads s.lexemes)
      fun cs rest => ∃ count body, (braced (lexemesAll body)).length ≤ n + 1 ∧
        Reads (Stmt.loop count body).lexemes cs rest := by
  refine ((takeKeyword_exact .loop).bind fun _ => (take_exact .number).bind fun count =>
    (block_parses parses).bind fun body => Exact.pure (Stmt.loop count body)).mono ?_ ?_
  · rintro s cs rest ⟨_, _, word, count, _, number, body, _, readsBody, rfl, rfl⟩
    rw [Stmt.lexemes]
    exact Chain.append word (Chain.append number readsBody)
  · rintro cs rest ⟨count, body, small, reads⟩
    rw [Stmt.lexemes] at reads
    obtain ⟨_, word, later⟩ := reads.split_first
    obtain ⟨_, number, readsBody⟩ := later.split_first
    exact ⟨_, word, _, ⟨_, number⟩, _, ⟨body, small, readsBody⟩, rfl⟩

theorem bareBlock_exact (parses : Parses inner Stmt.lexemes fun s => s.lexemes.length < n) :
    Exact (do return .block (← block inner) : Rule Terminal Stmt) (fun s => Reads s.lexemes)
      fun cs rest => ∃ body, (braced (lexemesAll body)).length ≤ n + 1 ∧
        Reads (Stmt.block body).lexemes cs rest := by
  refine ((block_parses parses).bind fun body => Exact.pure (Stmt.block body)).mono ?_ ?_
  · rintro s cs rest ⟨body, _, readsBody, rfl, rfl⟩
    rwa [Stmt.lexemes]
  · rintro cs rest ⟨body, small, reads⟩
    rw [Stmt.lexemes] at reads
    exact ⟨rest, ⟨body, small, reads⟩, rfl⟩

theorem statementOf_parses (parses : Parses inner Stmt.lexemes fun s => s.lexemes.length < n) :
    Parses (statementOf inner) Stmt.lexemes fun s => s.lexemes.length < n + 1 := by
  have trims (s : Stmt) (cs rest : List Char) (reads : Reads s.lexemes cs rest) : rest <:+ cs :=
    reads.trims
  refine (Exact.either trims setPwm_exact <| Exact.either trims wait_exact <|
    Exact.either trims readSensor_exact <| Exact.either trims readAssign_exact <|
    Exact.either trims assign_exact <| Exact.either trims (branch_exact parses) <|
    Exact.either trims (loop_exact parses) <|
    Exact.either trims (bareBlock_exact parses) .none).mono (fun _ _ _ reads => reads) ?_
  rintro cs rest ⟨s, small, reads⟩
  cases s with
  | setPwm channel value => exact Or.inl ⟨_, _, reads⟩
  | wait seconds => exact Or.inr <| Or.inl ⟨_, reads⟩
  | readSensor sensor => exact Or.inr <| Or.inr <| Or.inl ⟨_, reads⟩
  | readAssign target sensor => exact Or.inr <| Or.inr <| Or.inr <| Or.inl ⟨_, _, reads⟩
  | assign target value => exact Or.inr <| Or.inr <| Or.inr <| Or.inr <| Or.inl ⟨_, _, reads⟩
  | branch condition whenTrue =>
      have written : (Stmt.branch condition whenTrue).lexemes = branching condition whenTrue none := by
        simp [Stmt.lexemes, branching]
      rw [written] at small reads
      exact Or.inr <| Or.inr <| Or.inr <| Or.inr <| Or.inr <| Or.inl
        ⟨_, _, _, Nat.lt_succ_iff.mp small, reads⟩
  | branchElse condition whenTrue whenFalse =>
      rw [Stmt.lexemes] at small reads
      exact Or.inr <| Or.inr <| Or.inr <| Or.inr <| Or.inr <| Or.inl
        ⟨condition, whenTrue, some whenFalse, Nat.lt_succ_iff.mp small, reads⟩
  | loop count body =>
      simp only [Stmt.lexemes, List.length_cons] at small
      exact Or.inr <| Or.inr <| Or.inr <| Or.inr <| Or.inr <| Or.inr <| Or.inl
        ⟨count, body, by omega, reads⟩
  | block body =>
      rw [Stmt.lexemes] at small
      exact Or.inr <| Or.inr <| Or.inr <| Or.inr <| Or.inr <| Or.inr <| Or.inr <| Or.inl
        ⟨body, by omega, reads⟩

theorem statementTo_parses : ∀ depth,
    Parses (statementTo depth) Stmt.lexemes fun s => s.lexemes.length < depth := by
  intro depth
  induction depth with
  | zero => exact Exact.none.mono (fun _ _ _ related => related) (by simp)
  | succ depth ih => exact statementOf_parses ih

theorem statement_exact : Exact statement (fun s => Reads s.lexemes)
    fun cs rest => ∃ s : Stmt, Reads s.lexemes cs rest := by
  constructor
  · intro cs s rest found
    exact (statementTo_parses _).sound cs s rest found
  · rintro cs rest ⟨s, reads⟩
    have bound := (chain_shrinks reads).2
    exact (statementTo_parses _).finds cs rest ⟨s, by omega, reads⟩

theorem routine_exact : Exact routine (fun program => Reads (lexemesAll program))
    fun cs rest => ∃ program, Reads (lexemesAll program) cs rest := by
  refine (Exact.star (fun s cs rest reads => Reads.shrinks s.lexemes_ne_nil reads)
    statement_exact).mono ?_ ?_
  · intro program cs rest chain
    exact reads_lexemesAll_iff.mpr chain
  · rintro cs rest ⟨program, reads⟩
    exact (reads_lexemesAll_iff.mp reads).pieces

end Statements

theorem parse_ok {text : String} {program : List Stmt} (read : parse text = .ok program) :
    Covers (lexemesAll program) text.toList := by
  simp only [parse] at read
  split at read
  · rename_i found derived
    cases read
    exact covers_iff.mpr (Rule.derive_sound routine_exact.sound derived)
  · simp at read

theorem parse_of_covers {text : String} {program : List Stmt}
    (covers : Covers (lexemesAll program) text.toList) : ∃ other, parse text = .ok other := by
  obtain ⟨rest, reads, whole⟩ := covers_iff.mp covers
  obtain ⟨other, derived⟩ := Rule.derive_finds lexicon routine_exact.finds ⟨program, reads⟩ whole
  exact ⟨other, by rw [parse, derived]⟩

/-- A text is read if it can be divided into terminals that are derived from the grammar, and what
is read has the tree of such a derivation. -/
theorem parse_follows_grammar (text : String) :
    ((∃ program, parse text = .ok program) ↔ ∃ lexemes parts, Covers lexemes text.toList ∧
      productions.Derives (.rule .start) lexemes parts) ∧
    ∀ program, parse text = .ok program → ∃ lexemes, Covers lexemes text.toList ∧
      productions.Derives (.rule .start) lexemes [tree program] := by
  refine ⟨⟨?_, ?_⟩, ?_⟩
  · rintro ⟨program, read⟩
    exact ⟨_, _, parse_ok read, derives_start_iff.mpr ⟨program, rfl, rfl⟩⟩
  · rintro ⟨lexemes, parts, covers, derives⟩
    obtain ⟨program, rfl, _⟩ := derives_start_iff.mp derives
    exact parse_of_covers covers
  · intro program read
    exact ⟨_, parse_ok read, derives_start_iff.mpr ⟨program, rfl, rfl⟩⟩

theorem parse_follows_grammar_unspaced :
    Covers [lexName "WAIT5".toList] "WAIT5".toList ∧ ∃ program, parse "WAIT5" = .ok program ∧
      ∃ lexemes, Covers lexemes "WAIT5".toList ∧
        productions.Derives (.rule .start) lexemes [tree program] := by
  have asName : Covers [lexName "WAIT5".toList] "WAIT5".toList :=
    covers_iff.mpr ⟨[], .cons rfl .nil, rfl⟩
  have asWait : Covers [lexKeyword .wait, lexNumber ['5']] "WAIT5".toList :=
    covers_iff.mpr ⟨[], .cons rfl (.cons rfl .nil), rfl⟩
  have derives : productions.Derives (.rule .start) [lexKeyword .wait, lexNumber ['5']]
      [tree [.wait ['5']]] :=
    derives_start_iff.mpr ⟨[.wait ['5']], by simp [lexemesAll, Stmt.lexemes], rfl⟩
  obtain ⟨program, read⟩ := (parse_follows_grammar "WAIT5").1.mpr ⟨_, _, asWait, derives⟩
  exact ⟨asName, program, read, (parse_follows_grammar "WAIT5").2 program read⟩

end ThrustBench.Routine
