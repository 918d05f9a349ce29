import ThrustBench.Proofs.Expectations

/-!
Beginnings of scripts.  No text of a terminal begins with that of another, so that a text has one
division into terminals, as far as it goes (`chain_linear`).  A text of whole terminals is therefore
the beginning of a script exactly if its terminals are (`begins_iff_viable`).
-/

namespace ThrustBench.Script

open Grammar (Rule)

def Accepted (text : List Char) : Prop := ∃ commands, parse (String.ofList text) = .ok commands

/-- A text that goes on to one that is read as a script. -/
def Begins (text : List Char) : Prop := ∃ more, Accepted (text ++ more)

/-- A text of terminals and white space, none of the terminals cut short. -/
inductive Complete : List Char → Prop
  | nil : Complete []
  | space {c cs} : isSpace c = true → Complete cs → Complete (c :: cs)
  | terminal {t : Terminal} {text cs} : t.Fits text → Complete cs → Complete (text ++ cs)

def Stops (cs : List Char) : Prop := ∀ c ∈ cs.head?, c.isDigit = false

section Divisions

theorem keyword_initial (v : Verb) :
    ∃ c cs, v.keyword.toList = c :: cs ∧ c.toUpper ≠ 'T' ∧ c.toUpper ≠ 'F' := by
  rcases v with _ | ⟨_ | _ | _ | _⟩ | _ | _ | _ | _ | _ <;> exact ⟨_, _, rfl, by decide⟩

theorem switch_initial {text : List Char} (fits : Argument.switch.Fits text) :
    ∃ c cs, text = c :: cs ∧ (c.toUpper = 'T' ∨ c.toUpper = 'F') := by
  rcases fits with yes | no
  · cases yes with
    | cons first _ => exact ⟨_, _, rfl, .inl (by simpa [sameLetter] using first)⟩
  · cases no with
    | cons first _ => exact ⟨_, _, rfl, .inr (by simpa [sameLetter] using first)⟩

theorem keyword_not_switch {v : Verb} {text : List Char} (fits : Argument.switch.Fits text) :
    ∀ c ∈ v.keyword.toList.head?, c ∉ text.head? := by
  obtain ⟨c, cs, same, notTrue, notFalse⟩ := keyword_initial v
  obtain ⟨d, ds, rfl, initial⟩ := switch_initial fits
  rw [same]
  rintro _ ⟨⟩ ⟨⟩
  rcases initial with yes | no
  · exact notTrue yes
  · exact notFalse no

theorem whole_of_digit {t : Terminal} {text : List Char} {c : Char} (fits : t.Fits text)
    (first : c ∈ text.head?) (digit : c.isDigit = true) : t = .argument .whole := by
  by_contra other
  obtain ⟨d, ds, rfl, letter⟩ := fits.letter other
  obtain rfl : d = c := by simpa using first
  have low := (Text.toNat_of_plain digit).2
  omega

theorem Terminal.Fits.eq_of_prefix {t u : Terminal} {one two : List Char} (fits : t.Fits one)
    (fitsToo : u.Fits two) (begins : one <+: two) : t = u := by
  obtain ⟨c, cs, given⟩ := List.exists_cons_of_ne_nil fits.ne_nil
  have first : c ∈ one.head? := by simp [given]
  have firstToo : c ∈ two.head? := by
    obtain ⟨more, rfl⟩ := begins
    simp [given]
  cases t with
  | keyword v =>
      cases u with
      | keyword w =>
          rw [show one = v.keyword.toList from fits, show two = w.keyword.toList from fitsToo]
            at begins
          rw [keyword_prefixFree begins]
      | argument sort =>
          cases sort with
          | whole => exact whole_of_digit fits first (fitsToo.2 c (List.mem_of_mem_head? firstToo))
          | switch =>
              rw [show one = v.keyword.toList from fits] at first
              exact absurd firstToo (keyword_not_switch fitsToo c first)
  | argument sort =>
      cases sort with
      | whole =>
          exact (whole_of_digit fitsToo firstToo (fits.2 c (List.mem_of_mem_head? first))).symm
      | switch =>
          cases u with
          | keyword w =>
              rw [show two = w.keyword.toList from fitsToo] at firstToo
              exact absurd first (keyword_not_switch fits c firstToo)
          | argument sort =>
              cases sort with
              | whole =>
                  exact whole_of_digit fits first (fitsToo.2 c (List.mem_of_mem_head? firstToo))
              | switch => rfl

theorem Terminal.Fits.eq_of_append {t u : Terminal} {one two left right : List Char}
    (fits : t.Fits one) (fitsToo : u.Fits two) (same : one ++ left = two ++ right) : t = u := by
  rcases List.prefix_or_prefix_of_prefix ⟨left, same⟩ (List.prefix_append two right) with
    shorter | longer
  · exact fits.eq_of_prefix fitsToo shorter
  · exact (fitsToo.eq_of_prefix fits longer).symm

theorem takes_unique {l m : Terminal × List Char} {cs left right : List Char}
    (one : lexicon.Takes l cs left) (other : lexicon.Takes m cs right) : l = m ∧ left = right := by
  obtain ⟨t, text⟩ := l
  obtain ⟨u, textToo⟩ := m
  obtain ⟨fits, split, _⟩ := takes_iff_skip.mp one
  obtain ⟨fitsToo, splitToo, _⟩ := takes_iff_skip.mp other
  obtain rfl : t = u := fits.eq_of_append fitsToo (split.symm.trans splitToo)
  have same := Option.some.inj (Eq.trans (Eq.symm one) other)
  simp only [Prod.mk.injEq] at same
  exact ⟨by rw [same.1], same.2⟩

theorem chain_linear {ls ms : List (Terminal × List Char)} {cs left right : List Char}
    (one : Rule.Chain lexicon.Takes ls cs left) (other : Rule.Chain lexicon.Takes ms cs right) :
    (∃ more, ms = ls ++ more ∧ Rule.Chain lexicon.Takes more left right) ∨
      ∃ more, ls = ms ++ more ∧ Rule.Chain lexicon.Takes more right left := by
  induction one generalizing ms with
  | nil => exact .inl ⟨ms, rfl, other⟩
  | @cons l ls cs middle left here later ih =>
      cases other with
      | nil => exact .inr ⟨l :: ls, rfl, .cons here later⟩
      | cons hereToo laterToo =>
          obtain ⟨rfl, rfl⟩ := takes_unique here hereToo
          rcases ih laterToo with ⟨more, rfl, further⟩ | ⟨more, rfl, further⟩
          · exact .inl ⟨more, rfl, further⟩
          · exact .inr ⟨more, rfl, further⟩

theorem skip_length_le (cs : List Char) : (lexicon.skip cs).length ≤ cs.length :=
  (List.dropWhile_suffix isSpace).length_le

theorem takes_passes {l : Terminal × List Char} {cs rest : List Char}
    (takes : lexicon.Takes l cs rest) : rest.length < (lexicon.skip cs).length := by
  obtain ⟨fits, split, _⟩ := takes_iff_skip.mp takes
  have some := List.length_pos_iff.mpr fits.ne_nil
  rw [split, List.length_append]
  omega

theorem chain_passes {ls : List (Terminal × List Char)} {cs rest : List Char}
    (chain : Rule.Chain lexicon.Takes ls cs rest)
    (same : (lexicon.skip cs).length ≤ (lexicon.skip rest).length) : ls = [] := by
  cases chain with
  | nil => rfl
  | cons here later =>
      have further := takes_passes here
      have ends := (chain_trims later).length_le
      have skipped := skip_length_le rest
      omega

theorem chain_place {ls ms : List (Terminal × List Char)} {cs left right : List Char}
    (one : Rule.Chain lexicon.Takes ls cs left) (other : Rule.Chain lexicon.Takes ms cs right)
    (same : (lexicon.skip left).length = (lexicon.skip right).length) : ls = ms := by
  rcases chain_linear one other with ⟨more, rfl, further⟩ | ⟨more, rfl, further⟩
  · rw [chain_passes further same.le, List.append_nil]
  · rw [chain_passes further same.ge, List.append_nil]

end Divisions

section Ends

theorem Blank.skip {gap : List Char} (blank : Blank gap) : lexicon.skip gap = [] := by
  simpa [lexicon, Blank] using blank

theorem blank_of_skip {gap : List Char} (nothing : lexicon.skip gap = []) : Blank gap := by
  simpa [lexicon, Blank] using nothing

theorem Blank.stops {gap cs : List Char} (blank : Blank gap) (stops : Stops cs) :
    Stops (gap ++ cs) := by
  cases gap with
  | nil => exact stops
  | cons c gap =>
      rintro d ⟨⟩
      have low := isSpace_le (blank c (by simp))
      exact isDigit_eq_false (by omega)

theorem Blank.feed {gap : List Char} (blank : Blank gap) : Blank (gap ++ ['\n']) := by
  intro c member
  rcases List.mem_append.mp member with old | new
  · exact blank c old
  · obtain rfl := List.mem_singleton.mp new
    rfl

theorem stops_feed (cs : List Char) : Stops ('\n' :: cs) := by
  rintro c ⟨⟩
  rfl

/-- What stands behind terminals can be replaced, unless a digit then comes where none was. -/
theorem chain_swap {ls : List (Terminal × List Char)} {cs rest : List Char}
    (chain : Rule.Chain lexicon.Takes ls cs rest) :
    ∃ used, cs = used ++ rest ∧ ∀ other, (Stops rest → Stops other) →
      Rule.Chain lexicon.Takes ls (used ++ other) other := by
  induction chain with
  | nil => exact ⟨[], rfl, fun other _ => .nil⟩
  | @cons l ls cs middle rest here _ ih =>
      obtain ⟨used, rfl, swap⟩ := ih
      obtain ⟨fits, ⟨gap, blank, rfl⟩, stop⟩ := takes_iff.mp here
      refine ⟨gap ++ l.2 ++ used, by simp, fun other stops => ?_⟩
      refine .cons (takes_iff.mpr ⟨fits, ⟨gap, blank, by simp⟩, fun whole => ?_⟩) (swap other stops)
      cases used with
      | nil => exact stops (stop whole)
      | cons c used => exact stop whole

theorem chain_take {ls : List (Terminal × List Char)} {text rest : List Char}
    (chain : Rule.Chain lexicon.Takes ls text rest) {more : List Char} (stops : Stops more) :
    ∃ gap, Blank gap ∧ Rule.Chain lexicon.Takes ls
      (text.take (text.length - (lexicon.skip rest).length) ++ more) (gap ++ more) := by
  obtain ⟨used, rfl, swap⟩ := chain_swap chain
  obtain ⟨gap, blank, split⟩ := exists_gap rest
  generalize lexicon.skip rest = ending at split
  subst split
  have place : (used ++ (gap ++ ending)).take ((used ++ (gap ++ ending)).length - ending.length) =
      used ++ gap := by
    rw [← List.append_assoc]
    exact List.take_left' (by simp only [List.length_append]; omega)
  refine ⟨gap, blank, ?_⟩
  rw [place, List.append_assoc]
  exact swap _ fun _ => blank.stops stops

theorem Complete.blank {gap cs : List Char} (blank : Blank gap) (complete : Complete cs) :
    Complete (gap ++ cs) := by
  induction gap with
  | nil => exact complete
  | cons c gap ih =>
      exact .space (blank c (by simp)) (ih fun d member => blank d (by simp [member]))

theorem complete_of_chain {ls : List (Terminal × List Char)} {cs rest : List Char}
    (chain : Rule.Chain lexicon.Takes ls cs rest) (whole : lexicon.skip rest = []) :
    Complete cs := by
  induction chain with
  | @nil cs =>
      rw [← List.append_nil cs]
      exact Complete.nil.blank (blank_of_skip whole)
  | cons here _ ih =>
      obtain ⟨fits, ⟨gap, blank, rfl⟩, _⟩ := takes_iff.mp here
      rw [List.append_assoc]
      exact (Complete.terminal fits (ih whole)).blank blank

theorem skip_space {c : Char} (space : isSpace c = true) (cs : List Char) :
    lexicon.skip (c :: cs) = lexicon.skip cs := by
  simp [lexicon, space]

theorem skip_digit {c : Char} (digit : c.isDigit = true) (cs : List Char) :
    lexicon.skip (c :: cs) = c :: cs := by
  have visible := isSpace_eq_false (Text.toNat_of_plain digit).1
  simp [lexicon, visible]

/-- Terminals take up a text with a terminal more, which joins the next if both are numbers and
nothing stands between them. -/
theorem exists_chain_terminal {t : Terminal} {text cs rest : List Char}
    {ls : List (Terminal × List Char)} (fits : t.Fits text)
    (chain : Rule.Chain lexicon.Takes ls cs rest) (whole : lexicon.skip rest = []) :
    ∃ ms, Rule.Chain lexicon.Takes ms (text ++ cs) rest := by
  by_cases stop : t = .argument .whole → Stops cs
  · exact ⟨(t, text) :: ls, .cons (takes_iff.mpr ⟨fits, ⟨[], by simp [Blank], rfl⟩, stop⟩) chain⟩
  · obtain ⟨rfl, digits⟩ := Classical.not_imp.mp stop
    obtain ⟨c, first, digit⟩ : ∃ c ∈ cs.head?, c.isDigit = true := by
      simpa [Stops] using digits
    obtain ⟨cs, rfl⟩ := List.head?_eq_some_iff.mp first
    cases chain with
    | nil => simp [skip_digit digit] at whole
    | @cons l ls _ middle _ here later =>
        obtain ⟨fitsToo, split, stop⟩ := takes_iff_skip.mp here
        rw [skip_digit digit] at split
        obtain ⟨d, next, given⟩ := List.exists_cons_of_ne_nil fitsToo.ne_nil
        obtain ⟨t, more⟩ := l
        obtain rfl : t = .argument .whole := by
          refine whole_of_digit fitsToo (c := c) ?_ digit
          rw [given] at split ⊢
          simp [(List.cons.inj split).1]
        refine ⟨(.argument .whole, text ++ more) :: ls, .cons (takes_iff.mpr ⟨⟨?_, ?_⟩, ?_⟩) later⟩
        · simp [fits.1]
        · intro d member
          rcases List.mem_append.mp member with before | behind
          · exact fits.2 d before
          · exact fitsToo.2 d behind
        · exact ⟨⟨[], by simp [Blank], by rw [split]; simp⟩, stop⟩

theorem chain_of_complete {cs : List Char} (complete : Complete cs) :
    ∃ ls rest, Rule.Chain lexicon.Takes ls cs rest ∧ lexicon.skip rest = [] := by
  induction complete with
  | nil => exact ⟨[], [], .nil, rfl⟩
  | @space c cs space _ ih =>
      obtain ⟨ls, rest, chain, whole⟩ := ih
      cases chain with
      | nil => exact ⟨[], c :: cs, .nil, (skip_space space cs).trans whole⟩
      | @cons l ls _ middle _ here later =>
          refine ⟨l :: ls, rest, .cons ?_ later, whole⟩
          rw [Grammar.Lexicon.Takes, skip_space space]
          exact here
  | terminal fits _ ih =>
      obtain ⟨ls, rest, chain, whole⟩ := ih
      obtain ⟨ms, further⟩ := exists_chain_terminal fits chain whole
      exact ⟨ms, rest, further, whole⟩

end Ends

section Scripts

theorem accepted_iff {text : List Char} :
    Accepted text ↔ ∃ ls rest, Rule.Chain lexicon.Takes ls text rest ∧ lexicon.skip rest = [] ∧
      ∃ verbs : List Verb, verbs ≠ [] ∧ ls.map Prod.fst = verbs.flatMap Verb.shape := by
  simp only [Accepted, parse_eq_ok_iff, String.toList_ofList, renders_iff_chain, chain_derives_iff]
  constructor
  · rintro ⟨commands, rest, ⟨given, wellFormed, chain⟩, whole⟩
    exact ⟨_, rest, chain, whole, commands.map Command.verb, by simpa using given,
      shape_flatMap wellFormed⟩
  · rintro ⟨ls, rest, chain, whole, verbs, given, terminals⟩
    obtain ⟨commands, rfl, wellFormed, rfl⟩ := exists_commands terminals (chain_fits chain)
    exact ⟨commands, rest, ⟨by simpa using given, wellFormed, chain⟩, whole⟩

theorem viable_nil : Viable [] := ⟨[.addPoint], by simp, List.nil_prefix⟩

theorem viable_of_begins {ls : List (Terminal × List Char)} {cs rest : List Char}
    (chain : Rule.Chain lexicon.Takes ls cs rest) (begins : Begins cs) :
    Viable (ls.map Prod.fst) := by
  obtain ⟨more, accepted⟩ := begins
  obtain ⟨ms, ending, division, whole, verbs, given, terminals⟩ := accepted_iff.mp accepted
  rcases List.eq_nil_or_concat ls with rfl | ⟨init, ⟨t, text⟩, rfl⟩
  · exact viable_nil
  rw [List.concat_eq_append] at chain ⊢
  obtain ⟨middle, before, last⟩ := chain.split
  cases last with
  | @cons _ _ _ left _ here _ =>
      obtain ⟨fits, ⟨gap, blank, rfl⟩, _⟩ := takes_iff.mp here
      obtain ⟨used, rfl, swap⟩ := chain_swap before
      -- the terminals before the last do not see what is added
      have longer := swap (gap ++ text ++ left ++ more) fun stops => by
        rwa [Stops, List.head?_append_of_ne_nil _ (by simp [fits.ne_nil])]
      have visible : lexicon.skip (gap ++ text ++ left ++ more) = text ++ (left ++ more) := by
        rw [List.append_assoc _ left, skip_gap blank fits]
      have unread : lexicon.skip (gap ++ text ++ left ++ more) ≠ [] := by
        rw [visible]
        simp [fits.ne_nil]
      rw [List.append_assoc] at division
      rcases chain_linear longer division with ⟨later, rfl, further⟩ | ⟨later, rfl, further⟩
      · cases further with
        | nil => exact absurd whole unread
        | @cons m ms _ _ _ hereToo _ =>
            obtain ⟨fitsToo, split, _⟩ := takes_iff_skip.mp hereToo
            have same : t = m.1 := fits.eq_of_append fitsToo (visible.symm.trans split)
            refine ⟨verbs, given, ms.map Prod.fst, ?_⟩
            rw [← terminals]
            simp [same]
      · cases further with
        | nil => exact absurd whole unread
        | cons hereToo _ => exact absurd hereToo (not_takes_of_blank whole)

theorem Terminal.exists_fits (t : Terminal) : ∃ text, t.Fits text := by
  rcases t with v | _ | _
  · exact ⟨v.keyword.toList, rfl⟩
  · exact ⟨['0'], by simp, by simp⟩
  · exact ⟨['T', 'R', 'U', 'E'], .inl (by decide)⟩

theorem exists_text (ts : List Terminal) {gap : List Char} (blank : Blank gap) :
    ∃ ls text rest, ls.map Prod.fst = ts ∧ Stops text ∧
      Rule.Chain lexicon.Takes ls (gap ++ text) rest ∧ lexicon.skip rest = [] := by
  induction ts generalizing gap with
  | nil =>
      refine ⟨[], [], gap, rfl, by simp [Stops], ?_, blank.skip⟩
      rw [List.append_nil]
      exact .nil
  | cons t ts ih =>
      obtain ⟨text, fits⟩ := t.exists_fits
      obtain ⟨ls, more, rest, rfl, stops, chain, whole⟩ := @ih [] (by simp [Blank])
      refine ⟨(t, text) :: ls, '\n' :: (text ++ more), rest, rfl, stops_feed _, ?_, whole⟩
      exact .cons (takes_iff.mpr ⟨fits, ⟨_, blank.feed, by simp⟩, fun _ => stops⟩) chain

theorem begins_of_viable {ls : List (Terminal × List Char)} {cs rest : List Char}
    (chain : Rule.Chain lexicon.Takes ls cs rest) (whole : lexicon.skip rest = [])
    (viable : Viable (ls.map Prod.fst)) : Begins cs := by
  obtain ⟨verbs, given, ts, terminals⟩ := viable
  have blank := blank_of_skip whole
  obtain ⟨ms, text, ending, rfl, stops, further, done⟩ := exists_text ts blank
  obtain ⟨used, rfl, swap⟩ := chain_swap chain
  refine ⟨text, accepted_iff.mpr ⟨ls ++ ms, ending, ?_, done, verbs, given, ?_⟩⟩
  · rw [List.append_assoc]
    exact (swap (rest ++ text) fun _ => blank.stops stops).append further
  · rw [List.map_append, terminals]

theorem begins_iff_viable {ls : List (Terminal × List Char)} {cs rest : List Char}
    (chain : Rule.Chain lexicon.Takes ls cs rest) (whole : lexicon.skip rest = []) :
    Begins cs ↔ Viable (ls.map Prod.fst) :=
  ⟨viable_of_begins chain, begins_of_viable chain whole⟩

end Scripts

end ThrustBench.Script
