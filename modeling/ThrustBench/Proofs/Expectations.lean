import ThrustBench.Proofs.Attempts
import ThrustBench.Proofs.ScriptLanguage

/-!
What the reader of scripts looks for.  Behind terminals that a script can begin with it looks for
exactly those that such a beginning can go on with (`script_tries`).
-/

namespace ThrustBench.Script

open Grammar (Rule)

def Verb.shape (v : Verb) : List Terminal := .keyword v :: v.signature.map Terminal.argument

/-- Terminals that a script can begin with. -/
def Viable (ts : List Terminal) : Prop :=
  ∃ verbs : List Verb, verbs ≠ [] ∧ ts <+: verbs.flatMap Verb.shape

section Shapes

theorem Viable.start {ts us : List Terminal} (viable : Viable us) (begins : ts <+: us) :
    Viable ts := by
  obtain ⟨verbs, given, goes⟩ := viable
  exact ⟨verbs, given, begins.trans goes⟩

theorem Viable.extend {ts : List Terminal} (viable : Viable ts) : ∃ t, Viable (ts ++ [t]) := by
  obtain ⟨verbs, given, more, whole⟩ := viable
  cases more with
  | nil =>
      refine ⟨.keyword .addPoint, verbs ++ [.addPoint], by simp, [], ?_⟩
      rw [List.flatMap_append, ← whole]
      simp [Verb.shape, Verb.signature]
  | cons t more => exact ⟨t, verbs, given, more, by rw [← whole]; simp⟩

theorem split_flatMap {ts : List Terminal} {t : Terminal} {verbs : List Verb}
    (begins : ts ++ [t] <+: verbs.flatMap Verb.shape) :
    ∃ (done : List Verb) (v : Verb) (us : List Terminal),
      ts = done.flatMap Verb.shape ++ us ∧ us ++ [t] <+: v.shape := by
  induction verbs generalizing ts with
  | nil => simp at begins
  | cons v verbs ih =>
      rw [List.flatMap_cons] at begins
      rcases List.prefix_or_prefix_of_prefix begins (List.prefix_append _ _) with inside | longer
      · exact ⟨[], v, ts, rfl, inside⟩
      · obtain ⟨us, whole⟩ := longer
        rcases List.eq_nil_or_concat us with rfl | ⟨us, u, rfl⟩
        · exact ⟨[], v, ts, rfl, by rw [← whole, List.append_nil]⟩
        · rw [List.concat_eq_append, ← List.append_assoc] at whole
          obtain ⟨rfl, last⟩ := List.append_inj' whole rfl
          obtain rfl : u = t := by simpa using last
          rw [List.append_assoc, List.prefix_append_right_inj] at begins
          obtain ⟨done, w, vs, rfl, inside⟩ := ih begins
          exact ⟨v :: done, w, vs, by simp, inside⟩

theorem Command.WellFormed.shape {c : Command} (wellFormed : c.WellFormed) :
    c.lexemes.map Prod.fst = c.verb.shape := wellFormed.terminals

theorem shape_flatMap {script : List Command} (wellFormed : ∀ c ∈ script, c.WellFormed) :
    (script.flatMap Command.lexemes).map Prod.fst =
      (script.map Command.verb).flatMap Verb.shape := by
  induction script with
  | nil => rfl
  | cons c script ih =>
      rw [List.flatMap_cons, List.map_append, (wellFormed c (by simp)).shape, List.map_cons,
        List.flatMap_cons, ih fun d member => wellFormed d (by simp [member])]

theorem exists_arguments {sorts : List Argument} {ls : List (Terminal × List Char)}
    (terminals : ls.map Prod.fst = sorts.map Terminal.argument) (fits : ∀ l ∈ ls, l.1.Fits l.2) :
    ∃ texts, List.Forall₂ Argument.Fits sorts texts ∧
      List.zip (sorts.map Terminal.argument) texts = ls := by
  induction sorts generalizing ls with
  | nil =>
      obtain rfl : ls = [] := by simpa using terminals
      exact ⟨[], .nil, rfl⟩
  | cons sort sorts ih =>
      obtain ⟨⟨t, text⟩, ls, rfl, rfl, later⟩ := List.map_eq_cons_iff.mp terminals
      obtain ⟨texts, fitting, rfl⟩ := ih later fun l member => fits l (by simp [member])
      exact ⟨text :: texts, .cons (fits (.argument sort, text) (by simp)) fitting, rfl⟩

theorem exists_command {v : Verb} {ls : List (Terminal × List Char)}
    (terminals : ls.map Prod.fst = v.shape) (fits : ∀ l ∈ ls, l.1.Fits l.2) :
    ∃ c : Command, c.verb = v ∧ c.WellFormed ∧ c.lexemes = ls := by
  obtain ⟨⟨t, text⟩, ls, rfl, rfl, later⟩ := List.map_eq_cons_iff.mp terminals
  obtain ⟨texts, fitting, rfl⟩ := exists_arguments later fun l member => fits l (by simp [member])
  obtain rfl : text = v.keyword.toList := fits (.keyword v, text) (by simp)
  exact ⟨⟨v, texts⟩, rfl, fitting, rfl⟩

theorem exists_commands {verbs : List Verb} {ls : List (Terminal × List Char)}
    (terminals : ls.map Prod.fst = verbs.flatMap Verb.shape) (fits : ∀ l ∈ ls, l.1.Fits l.2) :
    ∃ script : List Command, script.map Command.verb = verbs ∧ (∀ c ∈ script, c.WellFormed) ∧
      script.flatMap Command.lexemes = ls := by
  induction verbs generalizing ls with
  | nil =>
      obtain rfl : ls = [] := by simpa using terminals
      exact ⟨[], rfl, by simp, rfl⟩
  | cons v verbs ih =>
      rw [List.flatMap_cons] at terminals
      obtain ⟨first, later, rfl, own, others⟩ := List.map_eq_append_iff.mp terminals
      obtain ⟨c, rfl, wellFormed, rfl⟩ :=
        exists_command own fun l member => fits l (by simp [member])
      obtain ⟨script, rfl, allWellFormed, rfl⟩ :=
        ih others fun l member => fits l (by simp [member])
      exact ⟨c :: script, rfl, by simpa [wellFormed] using allWellFormed, by simp⟩

end Shapes

section Attempts

def Within (ts : List Terminal) (cs : List Char) (left : Nat) (t : Terminal) : Prop :=
  ∃ ls rest, Rule.Chain lexicon.Takes ls cs rest ∧ left = (lexicon.skip rest).length ∧
    ls.map Prod.fst ++ [t] <+: ts

theorem within_cons {t u : Terminal} {ts : List Terminal} {cs : List Char} {left : Nat} :
    Within (t :: ts) cs left u ↔ (left = (lexicon.skip cs).length ∧ u = t) ∨
      ∃ middle, (∃ text, lexicon.Takes (t, text) cs middle) ∧ Within ts middle left u := by
  constructor
  · rintro ⟨ls, rest, chain, rfl, begins⟩
    cases chain with
    | nil =>
        obtain ⟨rfl, _⟩ := List.cons_prefix_cons.mp begins
        exact .inl ⟨rfl, rfl⟩
    | @cons l ls _ middle _ here later =>
        obtain ⟨rfl, inside⟩ := List.cons_prefix_cons.mp begins
        exact .inr ⟨middle, ⟨l.2, here⟩, ls, rest, later, rfl, inside⟩
  · rintro (⟨rfl, rfl⟩ | ⟨middle, ⟨text, here⟩, ls, rest, later, rfl, begins⟩)
    · exact ⟨[], cs, .nil, rfl, ts, rfl⟩
    · exact ⟨(t, text) :: ls, rest, .cons here later, rfl, List.cons_prefix_cons.mpr ⟨rfl, begins⟩⟩

theorem arguments_tries (sorts : List Argument) :
    Rule.Tries (arguments sorts) (Within (sorts.map Terminal.argument)) := by
  induction sorts with
  | nil =>
      change Rule.Tries (Rule.pure []) _
      refine (Rule.Tries.pure []).congr fun cs left t => ?_
      simp [Within]
  | cons sort sorts ih =>
      change Rule.Tries (Rule.bind (Rule.terminal lexicon (.argument sort)) fun text =>
        (arguments sorts).bind fun texts => Rule.pure (text :: texts)) _
      exact (Rule.Tries.bind (Rule.Leads.terminal lexicon _)
        (Rule.Tries.terminal lexicon (.argument sort)) fun text => ih.map (text :: ·)).congr
          fun cs left t => within_cons.symm

theorem command_tries (v : Verb) : Rule.Tries (command v) (Within v.shape) := by
  change Rule.Tries (Rule.bind (Rule.terminal lexicon (.keyword v)) fun _ =>
    (arguments v.signature).bind fun texts => Rule.pure (⟨v, texts⟩ : Command)) _
  exact (Rule.Tries.bind (Rule.Leads.terminal lexicon _) (Rule.Tries.terminal lexicon (.keyword v))
    fun _ => (arguments_tries v.signature).map (Command.mk v)).congr
      fun cs left t => within_cons.symm

/-- Behind some terminals of a text, with so many characters left, one can come that goes on with
the beginning of a script. -/
def Tried (cs : List Char) (left : Nat) (t : Terminal) : Prop :=
  ∃ ls rest, Rule.Chain lexicon.Takes ls cs rest ∧ left = (lexicon.skip rest).length ∧
    Viable (ls.map Prod.fst ++ [t])

theorem chain_fits {ls : List (Terminal × List Char)} {cs rest : List Char}
    (chain : Rule.Chain lexicon.Takes ls cs rest) : ∀ l ∈ ls, l.1.Fits l.2 := by
  induction chain with
  | nil => simp
  | cons here _ ih =>
      intro l member
      rcases List.mem_cons.mp member with rfl | later
      · exact (takes_iff.mp here).1
      · exact ih l later

theorem script_tries : Rule.Tries script Tried := by
  refine (Rule.Tries.plus statement_shrinks ⟨statement_sound, statement_finds⟩
    (Rule.Tries.oneOf command_tries Verb.all)).congr fun cs left t => ⟨?_, ?_⟩
  · rintro ⟨middle, pieces, v, _, ls, rest, later, rfl, begins⟩
    obtain ⟨commands, derives⟩ := Rule.exists_chain pieces
    obtain ⟨wellFormed, chain⟩ := chain_derives_iff.mp derives
    refine ⟨_, rest, chain.append later, rfl, commands.map Command.verb ++ [v], by simp, ?_⟩
    rw [List.map_append, shape_flatMap wellFormed, List.flatMap_append, List.append_assoc,
      List.prefix_append_right_inj]
    simpa using begins
  · rintro ⟨ls, rest, chain, rfl, verbs, _, begins⟩
    obtain ⟨done, v, us, terminals, inside⟩ := split_flatMap begins
    obtain ⟨first, later, rfl, whole, rfl⟩ := List.map_eq_append_iff.mp terminals
    obtain ⟨middle, before, behind⟩ := chain.split
    obtain ⟨commands, _, wellFormed, rfl⟩ := exists_commands whole (chain_fits before)
    exact ⟨middle, (chain_derives_iff.mpr ⟨wellFormed, before⟩).pieces, v, v.mem_all, later, rest,
      behind, rfl, inside⟩

end Attempts

end ThrustBench.Script
