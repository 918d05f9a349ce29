import ThrustBench.Proofs.Beginnings

/-!
Where a script goes wrong.  A refusal points behind the longest beginning of a script that a text
has, whole terminals and white space only, and names what can come there.
-/

namespace ThrustBench.Script

open Grammar (Rule Mismatch)

section Lines

theorem exists_lastLine (cs : List Char) : ∃ before, cs = before ++ Mismatch.lastLine cs ∧
    '\n' ∉ Mismatch.lastLine cs ∧ (before = [] ∨ ∃ lines, before = lines ++ ['\n']) := by
  refine ⟨(cs.reverse.dropWhile (· != '\n')).reverse, ?_, ?_, ?_⟩
  · rw [Mismatch.lastLine, ← List.reverse_append, List.takeWhile_append_dropWhile,
      List.reverse_reverse]
  · intro member
    have other := List.mem_takeWhile_imp (List.mem_reverse.mp member)
    simp at other
  · cases given : cs.reverse.dropWhile (· != '\n') with
    | nil => exact .inl rfl
    | cons c lines =>
        obtain rfl : c = '\n' := by
          have feed := List.head?_dropWhile_not (· != '\n') cs.reverse
          simpa [given] using feed
        exact .inr ⟨lines.reverse, by simp⟩

end Lines

section Refusals

theorem parse_eq_error_iff {text : String} {m : Mismatch} :
    parse text = .error (.mismatch m) ↔ Rule.derive lexicon script text.toList = .error m := by
  rw [parse]
  split
  · rename_i found
    simp [found]
  · rename_i found
    simp [found]

theorem not_accepted_iff {text : String} :
    ¬ Accepted text.toList ↔ ∃ m, parse text = .error (.mismatch m) := by
  simp only [Accepted, String.ofList_toList, parse_eq_error_iff]
  rw [parse]
  cases Rule.derive lexicon script text.toList <;> simp

/-- What a refusal tells about a text: how its terminals go to the place of the mismatch, what is
expected there, and that no terminals go further. -/
structure Refuses (m : Mismatch) (text : List Char) (ls : List (Terminal × List Char))
    (rest : List Char) : Prop where
  text_eq : m.text = text
  position_eq : m.position = text.length - (lexicon.skip rest).length
  chain : Rule.Chain lexicon.Takes ls text rest
  viable : Viable (ls.map Prod.fst)
  expected : ∀ t : Terminal, t.name ∈ m.expected ↔ Viable (ls.map Prod.fst ++ [t])
  named : ∀ name ∈ m.expected, ∃ t : Terminal, t.name = name
  furthest : ∀ {ms ending}, Rule.Chain lexicon.Takes ms text ending → Viable (ms.map Prod.fst) →
    (lexicon.skip rest).length ≤ (lexicon.skip ending).length

theorem keyword_ne (v : Verb) : v.keyword ≠ "INT" ∧ v.keyword ≠ "BOOLEAN" := by
  rcases v with _ | ⟨_ | _ | _ | _⟩ | _ | _ | _ | _ | _ <;> simp [Verb.keyword]

theorem name_injective : Function.Injective Terminal.name := by
  rintro (v | _ | _) (w | _ | _) same
  · rw [keyword_prefixFree (show v.keyword.toList <+: w.keyword.toList by
      rw [show v.keyword = w.keyword from same])]
  · exact absurd same (keyword_ne v).1
  · exact absurd same (keyword_ne v).2
  · exact absurd same.symm (keyword_ne w).1
  · rfl
  · simp [Terminal.name] at same
  · exact absurd same.symm (keyword_ne w).2
  · simp [Terminal.name] at same
  · rfl

theorem exists_refuses {text : String} {m : Mismatch}
    (refused : parse text = .error (.mismatch m)) : ∃ ls rest, Refuses m text.toList ls rest := by
  obtain ⟨t, begins⟩ := viable_nil.extend
  obtain ⟨same, left, _, position, ⟨u, ls, rest, chain, rfl, viable⟩, least, expected⟩ :=
    Rule.derive_eq_error script_tries ⟨[], text.toList, .nil, rfl, begins⟩ (skip_length_le _)
      (parse_eq_error_iff.mp refused)
  refine ⟨ls, rest, same, position, chain, viable.start (List.prefix_append _ _), ?_, ?_, ?_⟩
  · intro t
    rw [expected]
    constructor
    · -- whatever was looked for there, one division leads to the place
      rintro ⟨v, ⟨ms, ending, other, place, viable⟩, named⟩
      obtain rfl := name_injective named
      rwa [chain_place chain other place]
    · intro viable
      exact ⟨t, ⟨ls, rest, chain, rfl, viable⟩, rfl⟩
  · intro name member
    obtain ⟨v, _, named⟩ := (expected name).mp member
    exact ⟨v, named⟩
  · intro ms ending other viable
    obtain ⟨v, further⟩ := viable.extend
    exact least _ v ⟨ms, ending, other, rfl, further⟩

theorem exists_takes {t : Terminal} {lexeme rest : List Char} (fits : t.Fits lexeme)
    (begins : lexeme <+: lexicon.skip rest) : ∃ text left, lexicon.Takes (t, text) rest left := by
  obtain ⟨more, split⟩ := begins
  by_cases whole : t = .argument .whole
  · subst whole
    refine ⟨lexeme ++ more.takeWhile Char.isDigit, more.dropWhile Char.isDigit,
      takes_iff_skip.mpr ⟨⟨by simp [fits.1], ?_⟩, ?_, fun _ => Grammar.head?_dropWhile_stops⟩⟩
    · intro c member
      rcases List.mem_append.mp member with own | further
      · exact fits.2 c own
      · exact List.mem_takeWhile_imp further
    · rw [← split, List.append_assoc, List.takeWhile_append_dropWhile]
  · exact ⟨lexeme, more, takes_iff_skip.mpr ⟨fits, split.symm, fun same => absurd same whole⟩⟩

namespace Refuses

variable {m : Mismatch} {text rest : List Char} {ls : List (Terminal × List Char)}

theorem ends (refuses : Refuses m text ls rest) : lexicon.skip rest <:+ text :=
  (List.dropWhile_suffix isSpace).trans (chain_trims refuses.chain)

theorem drop_position (refuses : Refuses m text ls rest) :
    text.drop m.position = lexicon.skip rest := by
  rw [refuses.position_eq]
  exact (List.suffix_iff_eq_drop.mp refuses.ends).symm

theorem atEnd_iff (refuses : Refuses m text ls rest) :
    m.atEnd = true ↔ lexicon.skip rest = [] := by
  have inside := refuses.ends.length_le
  rw [← List.length_eq_zero_iff, Mismatch.atEnd, beq_iff_eq, refuses.text_eq, refuses.position_eq]
  omega

theorem begins (refuses : Refuses m text ls rest) : Begins (text.take m.position) := by
  obtain ⟨gap, blank, chain⟩ := chain_take refuses.chain (show Stops [] by simp [Stops])
  rw [List.append_nil, List.append_nil, ← refuses.position_eq] at chain
  exact begins_of_viable chain blank.skip refuses.viable

theorem expected_iff (refuses : Refuses m text ls rest) {t : Terminal} {lexeme : List Char}
    (fits : t.Fits lexeme) :
    t.name ∈ m.expected ↔ Begins (text.take m.position ++ '\n' :: lexeme) := by
  obtain ⟨gap, blank, chain⟩ := chain_take refuses.chain (stops_feed lexeme)
  rw [← refuses.position_eq] at chain
  have last : lexicon.Takes (t, lexeme) (gap ++ '\n' :: lexeme) [] :=
    takes_iff.mpr ⟨fits, ⟨_, blank.feed, by simp⟩, by simp⟩
  rw [refuses.expected, begins_iff_viable (chain.snoc last) rfl, List.map_append]
  rfl

theorem unmatched (refuses : Refuses m text ls rest) {t : Terminal} {lexeme : List Char}
    (expected : t.name ∈ m.expected) (fits : t.Fits lexeme) :
    ¬ lexeme <+: text.drop m.position := by
  rw [refuses.drop_position]
  intro matched
  obtain ⟨taken, left, takes⟩ := exists_takes fits matched
  -- then something would be looked for behind it, which is further on
  have further := refuses.furthest (refuses.chain.snoc takes) (by
    rw [List.map_append]
    exact (refuses.expected t).mp expected)
  have shorter := takes_passes takes
  have skipped := skip_length_le left
  omega

end Refuses

theorem atEnd_iff_unfinished {text : String} :
    (∃ m, parse text = .error (.mismatch m) ∧ m.atEnd = true) ↔
      Complete text.toList ∧ Begins text.toList ∧ ¬ Accepted text.toList := by
  constructor
  · rintro ⟨m, refused, atEnd⟩
    obtain ⟨ls, rest, refuses⟩ := exists_refuses refused
    have whole := refuses.atEnd_iff.mp atEnd
    exact ⟨complete_of_chain refuses.chain whole,
      begins_of_viable refuses.chain whole refuses.viable, not_accepted_iff.mpr ⟨m, refused⟩⟩
  · rintro ⟨complete, begins, refused⟩
    obtain ⟨m, refused⟩ := not_accepted_iff.mp refused
    obtain ⟨ls, rest, refuses⟩ := exists_refuses refused
    obtain ⟨ms, ending, chain, whole⟩ := chain_of_complete complete
    have nothing := refuses.furthest chain (viable_of_begins chain begins)
    rw [whole, List.length_nil, Nat.le_zero, List.length_eq_zero_iff] at nothing
    exact ⟨m, refused, refuses.atEnd_iff.mpr nothing⟩

/-- A text that is no script is refused behind a beginning of a script.  What is expected there is
what can come next on a new line; none of it stands there. -/
theorem mismatch_behind_beginning (text : String) :
    (¬ Accepted text.toList ↔ ∃ m, parse text = .error (.mismatch m)) ∧
    ((∃ m, parse text = .error (.mismatch m) ∧ m.atEnd = true) ↔
      Complete text.toList ∧ Begins text.toList ∧ ¬ Accepted text.toList) ∧
    ∀ m, parse text = .error (.mismatch m) →
      m.text = text.toList ∧ m.position ≤ text.toList.length ∧
      Begins (text.toList.take m.position) ∧
      (∀ (t : Terminal) (lexeme : List Char), t.Fits lexeme →
        (t.name ∈ m.expected ↔ Begins (text.toList.take m.position ++ '\n' :: lexeme))) ∧
      (∀ name ∈ m.expected, ∃ t : Terminal, t.name = name) ∧
      (m.atEnd = false →
        (∀ (t : Terminal) (lexeme : List Char), t.name ∈ m.expected → t.Fits lexeme →
          ¬ lexeme <+: text.toList.drop m.position) ∧
        m.line = 1 + ((text.toList.take m.position).count '\n' : Nat) ∧
        ∃ before last, text.toList.take m.position = before ++ last ∧ '\n' ∉ last ∧
          (before = [] ∨ ∃ lines, before = lines ++ ['\n']) ∧
          m.column = 1 + (last.length : Nat)) := by
  refine ⟨not_accepted_iff, atEnd_iff_unfinished, ?_⟩
  intro m refused
  obtain ⟨ls, rest, refuses⟩ := exists_refuses refused
  refine ⟨refuses.text_eq, ?_, refuses.begins, fun t lexeme => refuses.expected_iff, refuses.named,
    fun inside => ⟨fun t lexeme => refuses.unmatched, ?_, ?_⟩⟩
  · rw [refuses.position_eq]
    exact Nat.sub_le _ _
  · simp [Mismatch.line, inside, refuses.text_eq]
  · obtain ⟨before, split, sameLine, lines⟩ := exists_lastLine (text.toList.take m.position)
    refine ⟨before, _, split, sameLine, lines, ?_⟩
    simp [Mismatch.column, inside, refuses.text_eq]

def missingNumber : Mismatch := ⟨"ADD_POINT\n WAIT @".toList, 16, ["INT"]⟩

theorem mismatch_behind_beginning_missingNumber :
    parse "ADD_POINT\n WAIT @" = .error (.mismatch missingNumber) ∧
      Begins "ADD_POINT\n WAIT ".toList ∧ Begins "ADD_POINT\n WAIT \n7".toList ∧
      ¬ Begins "ADD_POINT\n WAIT \nWAIT".toList ∧
      missingNumber.line = 2 ∧ missingNumber.column = 7 := by
  have refused : parse "ADD_POINT\n WAIT @" = .error (.mismatch missingNumber) := by
    decide +kernel
  obtain ⟨_, _, begins, expected, _⟩ :=
    (mismatch_behind_beginning "ADD_POINT\n WAIT @").2.2 missingNumber refused
  have number := expected (.argument .whole) ['7'] ⟨by simp, by simp⟩
  have wait := expected (.keyword .wait) ['W', 'A', 'I', 'T'] rfl
  exact ⟨refused, begins, number.mp (by decide), fun again => absurd (wait.mpr again) (by decide),
    by decide, by decide⟩

end Refusals

end ThrustBench.Script
