import Mathlib.Data.Set.Function
import ThrustBench.Proofs.Rendering

/-!
The language of scripts.  Reading accepts a text exactly if it is a way to write a script, and gives
back the commands that were written.  The same holds of a file, whatever its line ends.
-/

namespace ThrustBench.Script

open Grammar (Rule)

/-- A text is a way to write a script: one command or more, each with the arguments its verb takes,
and nothing but white space around their terminals. -/
def Renders (script : List Command) (text : List Char) : Prop :=
  script ≠ [] ∧ (∀ c ∈ script, c.WellFormed) ∧ Written (script.flatMap Command.lexemes) text

section Commands

theorem arguments_take (sorts : List Argument) :
    Rule.Sound (arguments sorts) fun texts cs rest =>
      Rule.Chain lexicon.Takes (List.zip (sorts.map Terminal.argument) texts) cs rest := by
  induction sorts with
  | nil =>
      change Rule.Sound (Rule.pure []) _
      refine (Rule.Sound.pure []).mono ?_
      rintro texts cs rest ⟨rfl, rfl⟩
      exact .nil
  | cons sort sorts ih =>
      change Rule.Sound (Rule.bind (Rule.terminal lexicon (.argument sort)) fun text =>
        (arguments sorts).bind fun texts => Rule.pure (text :: texts)) _
      refine ((Rule.Sound.terminal lexicon (.argument sort)).bind fun text =>
        ih.bind fun texts => Rule.Sound.pure (text :: texts)).mono ?_
      rintro all cs rest ⟨text, middle, here, texts, left, later, rfl, rfl⟩
      exact .cons here later

theorem arguments_find (sorts : List Argument) :
    Rule.Finds (arguments sorts) fun cs rest => ∃ texts, texts.length = sorts.length ∧
      Rule.Chain lexicon.Takes (List.zip (sorts.map Terminal.argument) texts) cs rest := by
  induction sorts with
  | nil =>
      change Rule.Finds (Rule.pure []) _
      refine (Rule.Finds.pure []).mono ?_
      rintro cs rest ⟨texts, _, chain⟩
      cases chain
      rfl
  | cons sort sorts ih =>
      change Rule.Finds (Rule.bind (Rule.terminal lexicon (.argument sort)) fun text =>
        (arguments sorts).bind fun texts => Rule.pure (text :: texts)) _
      refine ((Rule.Finds.terminal lexicon (.argument sort)).bind fun text =>
        ih.bind fun texts => Rule.Finds.pure (text :: texts)).mono ?_
      rintro cs rest ⟨texts, count, chain⟩
      obtain ⟨text, texts, rfl⟩ := List.exists_cons_of_length_eq_add_one count
      cases chain with
      | cons here later =>
          exact ⟨_, ⟨text, here⟩, rest, ⟨texts, by simpa using count, later⟩, rfl⟩

def Command.Derives (c : Command) (cs rest : List Char) : Prop :=
  c.WellFormed ∧ Rule.Chain lexicon.Takes c.lexemes cs rest

theorem command_derives (v : Verb) :
    Rule.Sound (command v) fun c cs rest => c.verb = v ∧ c.Derives cs rest := by
  have takes : Rule.Sound (command v) fun c cs rest =>
      Rule.Chain lexicon.Takes c.lexemes cs rest := by
    change Rule.Sound (Rule.bind (Rule.terminal lexicon (.keyword v)) fun _ =>
      (arguments v.signature).bind fun texts => Rule.pure (⟨v, texts⟩ : Command)) _
    refine ((Rule.Sound.terminal lexicon (.keyword v)).bind fun _ =>
      (arguments_take v.signature).bind fun texts =>
        Rule.Sound.pure (⟨v, texts⟩ : Command)).mono ?_
    rintro c cs rest ⟨text, middle, here, texts, left, later, rfl, rfl⟩
    have same : text = v.keyword.toList := (takes_iff.mp here).1
    rw [same] at here
    exact .cons here later
  refine ((command_wellFormed v).and takes).mono ?_
  rintro c cs rest ⟨⟨same, wellFormed⟩, chain⟩
  exact ⟨same, wellFormed, chain⟩

theorem command_finds (v : Verb) :
    Rule.Finds (command v) fun cs rest => ∃ c : Command, c.verb = v ∧ c.Derives cs rest := by
  change Rule.Finds (Rule.bind (Rule.terminal lexicon (.keyword v)) fun _ =>
    (arguments v.signature).bind fun texts => Rule.pure (⟨v, texts⟩ : Command)) _
  refine ((Rule.Finds.terminal lexicon (.keyword v)).bind fun _ =>
    (arguments_find v.signature).bind fun texts =>
      Rule.Finds.pure (⟨v, texts⟩ : Command)).mono ?_
  rintro cs rest ⟨⟨_, texts⟩, rfl, wellFormed, chain⟩
  cases chain with
  | cons here later =>
      exact ⟨_, ⟨_, here⟩, rest, ⟨texts, (List.Forall₂.length_eq wellFormed).symm, later⟩, rfl⟩

theorem takes_shrinks {l : Terminal × List Char} {cs rest : List Char}
    (takes : lexicon.Takes l cs rest) : rest <:+ cs ∧ rest.length < cs.length := by
  obtain ⟨fits, ⟨gap, _, rfl⟩, _⟩ := takes_iff.mp takes
  have some := List.length_pos_iff.mpr fits.ne_nil
  exact ⟨List.suffix_append _ _, by simp only [List.length_append]; omega⟩

theorem chain_trims {ls : List (Terminal × List Char)} {cs rest : List Char}
    (chain : Rule.Chain lexicon.Takes ls cs rest) : rest <:+ cs := by
  induction chain with
  | nil => exact List.suffix_rfl
  | cons here _ ih => exact ih.trans (takes_shrinks here).1

theorem Command.Derives.shrinks {c : Command} {cs rest : List Char} (derives : c.Derives cs rest) :
    rest <:+ cs ∧ rest.length < cs.length := by
  cases derives.2 with
  | cons here later =>
      obtain ⟨ends, shorter⟩ := takes_shrinks here
      have more := chain_trims later
      exact ⟨more.trans ends, by have := more.length_le; omega⟩

theorem Verb.mem_all (v : Verb) : v ∈ Verb.all := by
  rcases v with _ | ⟨_ | _ | _ | _⟩ | _ | _ | _ | _ | _ <;> simp [Verb.all]

theorem keyword_prefixFree {v w : Verb} (begins : v.keyword.toList <+: w.keyword.toList) :
    v = w := by
  have table : (Verb.all.all fun v => Verb.all.all fun w =>
      !v.keyword.toList.isPrefixOf w.keyword.toList || v == w) = true := by decide
  have entry := List.all_eq_true.mp (List.all_eq_true.mp table v v.mem_all) w w.mem_all
  simpa [List.isPrefixOf_iff_prefix.mpr begins] using entry

theorem Command.WellFormed.terminals {c : Command} (wellFormed : c.WellFormed) :
    c.lexemes.map Prod.fst = .keyword c.verb :: c.verb.signature.map Terminal.argument := by
  have count := List.Forall₂.length_eq wellFormed
  simp [Command.lexemes, List.map_fst_zip, count]

theorem Command.WellFormed.texts {c : Command} (wellFormed : c.WellFormed) :
    c.lexemes.map Prod.snd = c.verb.keyword.toList :: c.arguments := by
  have count := List.Forall₂.length_eq wellFormed
  simp [Command.lexemes, List.map_snd_zip, count]

theorem Command.eq_of_lexemes {c d : Command} (first : c.WellFormed) (second : d.WellFormed)
    (same : c.lexemes = d.lexemes) : c = d := by
  have terminals := first.terminals
  have texts := first.texts
  rw [same, second.terminals] at terminals
  rw [same, second.texts] at texts
  obtain ⟨verb, arguments⟩ := c
  obtain ⟨verb', arguments'⟩ := d
  simp only [List.cons.injEq, Terminal.keyword.injEq] at terminals texts
  rw [terminals.1, texts.2]

theorem arguments_fitting {sorts : List Argument} {texts : List (List Char)}
    (fits : List.Forall₂ Argument.Fits sorts texts) :
    ∀ l ∈ List.zip (sorts.map Terminal.argument) texts, l.1.Fits l.2 := by
  induction fits with
  | nil => simp
  | cons first _ ih =>
      intro l member
      rcases List.mem_cons.mp member with rfl | later
      · exact first
      · exact ih l later

theorem Command.WellFormed.fits {c : Command} (wellFormed : c.WellFormed) :
    ∀ l ∈ c.lexemes, l.1.Fits l.2 := by
  intro l member
  rcases List.mem_cons.mp member with rfl | argument
  · exact rfl
  · exact arguments_fitting wellFormed l argument

theorem derives_unique {c d : Command} {cs left right : List Char} (one : c.Derives cs left)
    (other : d.Derives cs right) : c = d ∧ left = right := by
  have begins {e : Command} {rest : List Char} (derives : e.Derives cs rest) :
      e.verb.keyword.toList <+: lexicon.skip cs := by
    cases derives.2 with
    | cons here _ =>
        rw [(takes_iff_skip.mp here).2.1]
        exact List.prefix_append _ _
  -- both keywords begin the same text, so that one of them begins the other
  have verbs : c.verb = d.verb := by
    rcases List.prefix_or_prefix_of_prefix (begins one) (begins other) with shorter | longer
    · exact keyword_prefixFree shorter
    · exact (keyword_prefixFree longer).symm
  obtain ⟨lexemes, rests⟩ := Rule.Chain.takes_unique
    (by rw [one.1.terminals, other.1.terminals, verbs]) one.2 other.2
  exact ⟨Command.eq_of_lexemes one.1 other.1 lexemes, rests⟩

theorem not_takes_of_blank {l : Terminal × List Char} {cs rest : List Char}
    (blank : lexicon.skip cs = []) : ¬ lexicon.Takes l cs rest := by
  intro takes
  obtain ⟨fits, split, _⟩ := takes_iff_skip.mp takes
  rw [blank] at split
  exact fits.ne_nil (List.append_eq_nil_iff.mp split.symm).1

theorem not_derives_of_blank {c : Command} {cs rest : List Char} (blank : lexicon.skip cs = []) :
    ¬ c.Derives cs rest := by
  intro derives
  cases derives.2 with
  | cons here _ => exact not_takes_of_blank blank here

theorem chain_derives_unique {script other : List Command} {cs left right : List Char}
    (one : Rule.Chain Command.Derives script cs left) (whole : lexicon.skip left = [])
    (two : Rule.Chain Command.Derives other cs right) (wholeToo : lexicon.skip right = []) :
    script = other := by
  induction one generalizing other with
  | nil =>
      cases two with
      | nil => rfl
      | cons here _ => exact absurd here (not_derives_of_blank whole)
  | cons here _ ih =>
      cases two with
      | nil => exact absurd here (not_derives_of_blank wholeToo)
      | cons hereToo later =>
          obtain ⟨rfl, rfl⟩ := derives_unique here hereToo
          rw [ih whole later]

theorem chain_derives_iff {script : List Command} {cs rest : List Char} :
    Rule.Chain Command.Derives script cs rest ↔ (∀ c ∈ script, c.WellFormed) ∧
      Rule.Chain lexicon.Takes (script.flatMap Command.lexemes) cs rest := by
  constructor
  · intro chain
    induction chain with
    | nil => exact ⟨by simp, .nil⟩
    | cons here _ ih =>
        rw [List.flatMap_cons]
        exact ⟨by simpa [here.1] using ih.1, here.2.append ih.2⟩
  · rintro ⟨wellFormed, chain⟩
    induction script generalizing cs with
    | nil =>
        cases chain
        exact .nil
    | cons c script ih =>
        rw [List.flatMap_cons] at chain
        obtain ⟨middle, first, later⟩ := chain.split
        exact .cons ⟨wellFormed c (by simp), first⟩
          (ih (fun d member => wellFormed d (by simp [member])) later)

theorem renders_iff_chain {script : List Command} {text : List Char} :
    Renders script text ↔ ∃ rest,
      (script ≠ [] ∧ Rule.Chain Command.Derives script text rest) ∧ lexicon.skip rest = [] := by
  constructor
  · rintro ⟨given, wellFormed, wrote⟩
    have fitting : ∀ l ∈ script.flatMap Command.lexemes, l.1.Fits l.2 := by
      intro l member
      obtain ⟨c, inScript, inCommand⟩ := List.mem_flatMap.mp member
      exact (wellFormed c inScript).fits l inCommand
    obtain ⟨rest, chain, whole⟩ := chain_iff_written.mpr ⟨fitting, wrote⟩
    exact ⟨rest, ⟨given, chain_derives_iff.mpr ⟨wellFormed, chain⟩⟩, whole⟩
  · rintro ⟨rest, ⟨given, derives⟩, whole⟩
    obtain ⟨wellFormed, chain⟩ := chain_derives_iff.mp derives
    exact ⟨given, wellFormed, (chain_iff_written.mp ⟨rest, chain, whole⟩).2⟩

end Commands

section Reading

theorem statement_sound :
    Rule.Sound (Rule.oneOf (Verb.all.map command)) Command.Derives := by
  apply Rule.Sound.oneOf
  intro p member
  obtain ⟨v, _, rfl⟩ := List.mem_map.mp member
  exact (command_derives v).mono fun _ _ _ both => both.2

theorem statement_shrinks : Rule.Shrinks (Rule.oneOf (Verb.all.map command)) :=
  statement_sound.mono fun _ _ _ derives => derives.shrinks

theorem statement_finds :
    Rule.Finds (Rule.oneOf (Verb.all.map command)) fun cs rest =>
      ∃ c : Command, c.Derives cs rest := by
  have trims : ∀ p ∈ Verb.all.map command, Rule.Trims p := by
    intro p member
    obtain ⟨v, _, rfl⟩ := List.mem_map.mp member
    exact (command_derives v).mono fun _ _ _ both => both.2.shrinks.1
  rintro cs rest ⟨c, derives⟩
  exact (command_finds c.verb).oneOf trims (List.mem_map_of_mem c.verb.mem_all) cs rest
    ⟨c, rfl, derives⟩

theorem script_finds :
    Rule.Finds script fun cs rest => ∃ commands : List Command,
      commands ≠ [] ∧ Rule.Chain Command.Derives commands cs rest := by
  refine (Rule.Finds.plus statement_shrinks statement_finds).mono ?_
  rintro cs rest ⟨commands, given, chain⟩
  cases chain with
  | nil => exact absurd rfl given
  | cons here later => exact .head' ⟨_, here⟩ later.pieces

theorem parse_eq_ok_iff {text : String} {commands : List Command} :
    parse text = .ok commands ↔ Renders commands text.toList := by
  -- a sound rule that misses nothing, over a language with one reading of each text
  have derived := Rule.derive_eq_ok_iff lexicon statement_sound.plus script_finds text.toList
    (fun _ _ _ _ one whole other wholeToo =>
      chain_derives_unique one.2 whole other.2 wholeToo) commands
  rw [renders_iff_chain, ← derived, parse]
  change _ ↔ Rule.derive lexicon script text.toList = .ok commands
  split
  · rename_i found
    simp [found]
  · rename_i found
    simp [found]

end Reading

section Files

theorem skip_unixLines (cs : List Char) :
    lexicon.skip (Text.unixLines cs) = Text.unixLines (lexicon.skip cs) := by
  simp only [lexicon]
  fun_induction Text.unixLines cs with
  | case1 cs ih => simpa [isSpace] using ih
  | case2 cs _ ih => simpa [isSpace] using ih
  | case3 c cs _ _ ih =>
      by_cases space : isSpace c = true
      · simpa [space] using ih
      · simp [space, Text.unixLines]
  | case4 => rfl

theorem unixLines_cons_of_visible {c : Char} (visible : 48 ≤ c.toNat) (cs : List Char) :
    Text.unixLines (c :: cs) = c :: Text.unixLines cs := by
  have notReturn : c ≠ '\r' := by
    rintro rfl
    simp at visible
  simp [Text.unixLines, notReturn]

theorem unixLines_append {text : List Char} (visible : ∀ c ∈ text, 48 ≤ c.toNat)
    (rest : List Char) : Text.unixLines (text ++ rest) = text ++ Text.unixLines rest := by
  induction text with
  | nil => rfl
  | cons c text ih =>
      rw [List.cons_append, unixLines_cons_of_visible (visible c (by simp)),
        ih fun d member => visible d (by simp [member]), List.cons_append]

theorem unixLines_eq_cons {c : Char} (visible : 48 ≤ c.toNat) {cs rest : List Char}
    (same : Text.unixLines cs = c :: rest) : ∃ left, cs = c :: left ∧ Text.unixLines left = rest := by
  have notFeed : '\n' ≠ c := by
    rintro rfl
    simp at visible
  unfold Text.unixLines at same
  split at same <;> simp_all

theorem unixLines_split {text : List Char} (visible : ∀ c ∈ text, 48 ≤ c.toNat) :
    ∀ {cs rest : List Char}, Text.unixLines cs = text ++ rest →
      ∃ left, cs = text ++ left ∧ Text.unixLines left = rest := by
  induction text with
  | nil => intro cs rest same; exact ⟨cs, rfl, same⟩
  | cons c text ih =>
      intro cs rest same
      obtain ⟨cs, rfl, later⟩ := unixLines_eq_cons (visible c (by simp)) same
      obtain ⟨left, rfl, done⟩ := ih (fun d member => visible d (by simp [member])) later
      exact ⟨left, rfl, done⟩

theorem unixLines_stops_iff (cs : List Char) :
    (∀ c ∈ (Text.unixLines cs).head?, c.isDigit = false) ↔ ∀ c ∈ cs.head?, c.isDigit = false := by
  unfold Text.unixLines
  split <;> simp [show '\r'.isDigit = false from rfl, show '\n'.isDigit = false from rfl]

theorem takes_unixLines {l : Terminal × List Char} {cs rest : List Char} :
    lexicon.Takes l (Text.unixLines cs) rest ↔
      ∃ left, lexicon.Takes l cs left ∧ Text.unixLines left = rest := by
  obtain ⟨t, text⟩ := l
  simp only [takes_iff_skip, skip_unixLines]
  constructor
  · rintro ⟨fits, same, stop⟩
    obtain ⟨left, split, rfl⟩ := unixLines_split fits.visible same
    exact ⟨left, ⟨fits, split, fun whole => (unixLines_stops_iff left).mp (stop whole)⟩, rfl⟩
  · rintro ⟨left, ⟨fits, split, stop⟩, rfl⟩
    refine ⟨fits, ?_, fun whole => (unixLines_stops_iff left).mpr (stop whole)⟩
    rw [split, unixLines_append fits.visible]

theorem chain_unixLines {ls : List (Terminal × List Char)} : ∀ {cs rest : List Char},
    Rule.Chain lexicon.Takes ls (Text.unixLines cs) rest ↔
      ∃ left, Rule.Chain lexicon.Takes ls cs left ∧ Text.unixLines left = rest := by
  induction ls with
  | nil =>
      intro cs rest
      constructor
      · intro chain
        cases chain
        exact ⟨cs, .nil, rfl⟩
      · rintro ⟨left, chain, rfl⟩
        cases chain
        exact .nil
  | cons l ls ih =>
      intro cs rest
      constructor
      · intro chain
        cases chain with
        | cons here later =>
            obtain ⟨middle, hereToo, rfl⟩ := takes_unixLines.mp here
            obtain ⟨left, laterToo, rfl⟩ := ih.mp later
            exact ⟨left, .cons hereToo laterToo, rfl⟩
      · rintro ⟨left, chain, rfl⟩
        cases chain with
        | cons here later =>
            exact .cons (takes_unixLines.mpr ⟨_, here, rfl⟩) (ih.mpr ⟨left, later, rfl⟩)

theorem unixLines_eq_nil_iff {cs : List Char} : Text.unixLines cs = [] ↔ cs = [] := by
  unfold Text.unixLines
  split <;> simp

theorem renders_unixLines {script : List Command} {text : List Char} :
    Renders script (Text.unixLines text) ↔ Renders script text := by
  simp only [renders_iff_chain, chain_derives_iff, chain_unixLines]
  constructor
  · rintro ⟨_, ⟨given, wellFormed, left, chain, rfl⟩, whole⟩
    rw [skip_unixLines, unixLines_eq_nil_iff] at whole
    exact ⟨left, ⟨given, wellFormed, chain⟩, whole⟩
  · rintro ⟨left, ⟨given, wellFormed, chain⟩, whole⟩
    refine ⟨_, ⟨given, wellFormed, left, chain, rfl⟩, ?_⟩
    rw [skip_unixLines, unixLines_eq_nil_iff]
    exact whole

theorem parseFile_eq_ok_iff {bytes : List UInt8} {script : List Command} :
    parseFile bytes = .ok script ↔
      ∃ text, Text.decode? bytes = .ok text ∧ Renders script text.toList := by
  simp only [parseFile]
  split
  · rename_i text decoded
    rw [parse_eq_ok_iff, String.toList_ofList, renders_unixLines]
    simp [decoded]
  · rename_i decoded
    simp [decoded]

end Files

section Trees

theorem Verb.ofRule?_rule (v : Verb) : Verb.ofRule? v.rule = some v := by
  rcases v with _ | ⟨_ | _ | _ | _⟩ | _ | _ | _ | _ | _ <;> rfl

theorem Command.eq_of_tree {c d : Command} (first : c.WellFormed) (second : d.WellFormed)
    (same : c.tree = d.tree) : c = d := by
  simp only [Command.tree, Grammar.Tree.node.injEq] at same
  have verbs : c.verb = d.verb := by
    have rules := congrArg Verb.ofRule? same.1
    simpa [Verb.ofRule?_rule] using rules
  have texts : c.lexemes.tail.map Prod.snd = d.lexemes.tail.map Prod.snd := by
    have tokens := congrArg (List.map fun
      | .token _ text => String.toList text
      | .node _ _ => []) same.2
    simpa [Function.comp_def] using tokens
  rw [List.map_tail, List.map_tail, first.texts, second.texts] at texts
  obtain ⟨verb, arguments⟩ := c
  obtain ⟨verb', arguments'⟩ := d
  simp only [List.tail_cons] at verbs texts
  rw [verbs, texts]

theorem tree_injOn : Set.InjOn tree {script | ∀ c ∈ script, c.WellFormed} := by
  intro script wellFormed other wellFormedToo same
  simp only [tree, Grammar.Tree.node.injEq, true_and] at same
  induction script generalizing other with
  | nil => simpa using same.symm
  | cons c script ih =>
      cases other with
      | nil => simp at same
      | cons d other =>
          simp only [List.map_cons, List.cons.injEq, Grammar.Tree.node.injEq, and_true,
            true_and] at same
          rw [Command.eq_of_tree (wellFormed c (by simp)) (wellFormedToo d (by simp)) same.1,
            ih (fun e member => wellFormed e (by simp [member]))
              (fun e member => wellFormedToo e (by simp [member])) same.2]

end Trees

/-- Reading undoes writing.  A text is read as a script exactly if it is a way to write that script,
and a file if it holds such a text; its tree is that of one script only, and no two scripts share a
tree. -/
theorem reading_inverts_writing (text : String) (bytes : List UInt8) :
    (∀ script, parse text = .ok script ↔ Renders script text.toList) ∧
    (∀ script, parseFile bytes = .ok script ↔
      ∃ text, Text.decode? bytes = .ok text ∧ Renders script text.toList) ∧
    (∀ t, (parse text).map tree = .ok t ↔
      ∃! script, Renders script text.toList ∧ tree script = t) ∧
    Set.InjOn tree {script | ∀ c ∈ script, c.WellFormed} := by
  refine ⟨fun _ => parse_eq_ok_iff, fun _ => parseFile_eq_ok_iff, ?_, tree_injOn⟩
  intro t
  constructor
  · intro shown
    cases read : parse text with
    | error fault => simp [read, Except.map] at shown
    | ok script =>
        simp only [read, Except.map, Except.ok.injEq] at shown
        subst shown
        refine ⟨script, ⟨parse_eq_ok_iff.mp read, rfl⟩, ?_⟩
        rintro other ⟨renders, _⟩
        have readToo := parse_eq_ok_iff.mpr renders
        rw [read, Except.ok.injEq] at readToo
        exact readToo.symm
  · rintro ⟨script, ⟨renders, rfl⟩, _⟩
    rw [parse_eq_ok_iff.mpr renders]
    rfl

end ThrustBench.Script
