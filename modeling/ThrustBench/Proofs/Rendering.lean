import Mathlib.Data.List.Chain
import ThrustBench.Proofs.Accepted
import ThrustBench.Proofs.Recognition

/-!
The terminals of scripts as texts.  Terminals are written in order, with white space of any length
around them, which is needed only between two whole numbers.  Taking them off a text again, one by
one, undoes this and nothing else (`chain_iff_written`).
-/

namespace ThrustBench.Script

open Grammar (Rule)

def Terminal.Fits : Terminal → List Char → Prop
  | .keyword v, text => text = v.keyword.toList
  | .argument sort, text => sort.Fits text

def written : List (List Char × Terminal × List Char) → List Char → List Char
  | [], ending => ending
  | (gap, _, text) :: rest, ending => gap ++ text ++ written rest ending

def Apart (before after : List Char × Terminal × List Char) : Prop :=
  before.2.1 = .argument .whole → after.2.1 = .argument .whole → after.1 ≠ []

def Blank (gap : List Char) : Prop := ∀ c ∈ gap, isSpace c = true

def Written (lexemes : List (Terminal × List Char)) (text : List Char) : Prop :=
  ∃ spaced ending, spaced.map Prod.snd = lexemes ∧ (∀ s ∈ spaced, Blank s.1) ∧ Blank ending ∧
    spaced.IsChain Apart ∧ text = written spaced ending

section Terminals

theorem isSpace_le {c : Char} (space : isSpace c = true) : c.toNat ≤ 32 := by
  simp only [isSpace, Bool.or_eq_true, beq_iff_eq] at space
  rcases space with (((rfl | rfl) | rfl) | rfl) | rfl <;> decide

theorem sameLetter_toNat {w c : Char} (same : sameLetter w c = true) :
    c.toNat = w.toNat ∨ c.toNat = w.toNat + 32 ∨ (w = 'S' ∧ c.toNat = 0x17f) := by
  simp only [sameLetter, Bool.or_eq_true, beq_iff_eq, Bool.and_eq_true] at same
  rcases same with rfl | long
  · rw [Text.toNat_toUpper]
    split <;> omega
  · exact Or.inr (Or.inr long)

theorem spells_visible {word text : List Char} (visible : ∀ w ∈ word, 48 ≤ w.toNat)
    (spells : List.Forall₂ (fun w c => sameLetter w c = true) word text) :
    ∀ c ∈ text, 48 ≤ c.toNat := by
  induction spells with
  | nil => simp
  | cons same _ ih =>
      intro c member
      rcases List.mem_cons.mp member with rfl | later
      · have first := visible _ List.mem_cons_self
        rcases sameLetter_toNat same with plain | small | long <;> omega
      · exact ih (fun w inside => visible w (by simp [inside])) c later

theorem keyword_visible (v : Verb) : ∀ c ∈ v.keyword.toList, 48 ≤ c.toNat := by
  rcases v with _ | ⟨_ | _ | _ | _⟩ | _ | _ | _ | _ | _ <;> simp [Verb.keyword]

theorem Terminal.Fits.visible {t : Terminal} {text : List Char} (fits : t.Fits text) :
    ∀ c ∈ text, 48 ≤ c.toNat := by
  match t, fits with
  | .keyword v, same => rw [show text = v.keyword.toList from same]; exact keyword_visible v
  | .argument .whole, ⟨_, plain⟩ =>
      intro c member
      exact (Text.toNat_of_plain (plain c member)).1
  | .argument .switch, Or.inl yes => exact spells_visible (by simp) yes
  | .argument .switch, Or.inr no => exact spells_visible (by simp) no

theorem keyword_letter (v : Verb) : ∃ c cs, v.keyword.toList = c :: cs ∧ 58 ≤ c.toNat := by
  rcases v with _ | ⟨_ | _ | _ | _⟩ | _ | _ | _ | _ | _ <;>
    exact ⟨_, _, rfl, by decide⟩

theorem spells_letter {w : Char} {ws text : List Char} (letter : 58 ≤ w.toNat)
    (spells : List.Forall₂ (fun w c => sameLetter w c = true) (w :: ws) text) :
    ∃ c cs, text = c :: cs ∧ 58 ≤ c.toNat := by
  cases spells with
  | cons same _ =>
      refine ⟨_, _, rfl, ?_⟩
      rcases sameLetter_toNat same with plain | small | long <;> omega

theorem Terminal.Fits.letter {t : Terminal} {text : List Char} (fits : t.Fits text)
    (other : t ≠ .argument .whole) : ∃ c cs, text = c :: cs ∧ 58 ≤ c.toNat := by
  match t, fits with
  | .keyword v, same => rw [show text = v.keyword.toList from same]; exact keyword_letter v
  | .argument .whole, _ => exact absurd rfl other
  | .argument .switch, Or.inl yes => exact spells_letter (by decide) yes
  | .argument .switch, Or.inr no => exact spells_letter (by decide) no

theorem Terminal.Fits.ne_nil {t : Terminal} {text : List Char} (fits : t.Fits text) :
    text ≠ [] := by
  by_cases whole : t = .argument .whole
  · subst whole
    exact fits.1
  · obtain ⟨c, cs, rfl, _⟩ := fits.letter whole
    simp

theorem cutWord_rest {same : Char → Char → Bool} {word : List Char} :
    ∀ {cs text rest : List Char}, cutWord same word cs = some (text, rest) → cs = text ++ rest := by
  induction word with
  | nil =>
      intro cs text rest found
      simp only [cutWord, Option.some.injEq, Prod.mk.injEq] at found
      simp [← found.1, found.2]
  | cons w ws ih =>
      intro cs text rest found
      cases cs with
      | nil => simp [cutWord] at found
      | cons c cs =>
          simp only [cutWord] at found
          split at found
          · obtain ⟨⟨taken, left⟩, later, whole⟩ := Option.map_eq_some_iff.mp found
            simp only [Prod.mk.injEq] at whole
            rw [← whole.1, ← whole.2, ih later, List.cons_append]
          · simp at found

theorem cutWord_of_spells {same : Char → Char → Bool} {word text : List Char}
    (spells : List.Forall₂ (fun w c => same w c = true) word text) (rest : List Char) :
    cutWord same word (text ++ rest) = some (text, rest) := by
  induction spells with
  | nil => rfl
  | cons first _ ih => simp [cutWord, first, ih]

theorem forall₂_beq_iff {word text : List Char} :
    List.Forall₂ (fun w c => (w == c) = true) word text ↔ text = word := by
  simp only [beq_iff_eq, List.forall₂_eq_eq_eq]
  exact eq_comm

theorem cutDigits_eq_some_iff {cs text rest : List Char} :
    cutDigits cs = some (text, rest) ↔
      (text ≠ [] ∧ ∀ c ∈ text, c.isDigit = true) ∧ cs = text ++ rest ∧
        ∀ c ∈ rest.head?, c.isDigit = false := by
  constructor
  · intro found
    simp only [cutDigits] at found
    split at found
    · simp at found
    · rename_i given
      simp only [Option.some.injEq, Prod.mk.injEq] at found
      obtain ⟨rfl, rfl⟩ := found
      exact ⟨⟨by simpa using given, fun c member => List.mem_takeWhile_imp member⟩,
        List.takeWhile_append_dropWhile.symm, Grammar.head?_dropWhile_stops⟩
  · rintro ⟨⟨given, plain⟩, rfl, stop⟩
    simp [cutDigits, Grammar.takeWhile_run plain stop, Grammar.dropWhile_run plain stop, given]

theorem cut_eq_some_iff {t : Terminal} {cs text rest : List Char} :
    cut t cs = some (text, rest) ↔
      t.Fits text ∧ cs = text ++ rest ∧
        (t = .argument .whole → ∀ c ∈ rest.head?, c.isDigit = false) := by
  match t with
  | .keyword v =>
      simp only [cut, Terminal.Fits]
      constructor
      · intro found
        exact ⟨forall₂_beq_iff.mp (cutWord_spells found), cutWord_rest found, by simp⟩
      · rintro ⟨same, rfl, _⟩
        exact cutWord_of_spells (forall₂_beq_iff.mpr same) rest
  | .argument .whole =>
      simp only [cut, Terminal.Fits, Argument.Fits, cutDigits_eq_some_iff, forall_const]
  | .argument .switch =>
      simp only [cut, Option.or_eq_some_iff]
      constructor
      · rintro (yes | ⟨_, no⟩)
        · exact ⟨Or.inl (cutWord_spells yes), cutWord_rest yes, by simp⟩
        · exact ⟨Or.inr (cutWord_spells no), cutWord_rest no, by simp⟩
      · rintro ⟨yes | no, rfl, _⟩
        · exact Or.inl (cutWord_of_spells yes rest)
        · refine Or.inr ⟨?_, cutWord_of_spells no rest⟩
          -- the two words differ in their first letters already
          cases no with
          | @cons _ c _ _ first _ =>
              have upper : c.toUpper = 'F' := by simpa [sameLetter] using first
              simp [cutWord, sameLetter, upper]

theorem isDigit_eq_false {c : Char} (outside : c.toNat < 48 ∨ 58 ≤ c.toNat) :
    c.isDigit = false := by
  by_contra digit
  have inside := Text.toNat_of_plain (by simpa using digit)
  omega

theorem isSpace_eq_false {c : Char} (visible : 48 ≤ c.toNat) : isSpace c = false := by
  by_contra space
  have low := isSpace_le (by simpa using space)
  omega

theorem takes_iff_skip {t : Terminal} {cs text rest : List Char} :
    lexicon.Takes (t, text) cs rest ↔
      t.Fits text ∧ lexicon.skip cs = text ++ rest ∧
        (t = .argument .whole → ∀ c ∈ rest.head?, c.isDigit = false) :=
  cut_eq_some_iff

theorem exists_gap (cs : List Char) : ∃ gap, Blank gap ∧ cs = gap ++ lexicon.skip cs :=
  ⟨cs.takeWhile isSpace, fun _ member => List.mem_takeWhile_imp member,
    List.takeWhile_append_dropWhile.symm⟩

theorem skip_gap {t : Terminal} {gap text : List Char} (blank : Blank gap) (fits : t.Fits text)
    (rest : List Char) : lexicon.skip (gap ++ text ++ rest) = text ++ rest := by
  rw [List.append_assoc]
  refine Grammar.dropWhile_run blank ?_
  intro c first
  rw [List.head?_append_of_ne_nil _ fits.ne_nil] at first
  exact isSpace_eq_false (fits.visible c (List.mem_of_mem_head? first))

theorem takes_iff {t : Terminal} {cs text rest : List Char} :
    lexicon.Takes (t, text) cs rest ↔
      t.Fits text ∧ (∃ gap, Blank gap ∧ cs = gap ++ text ++ rest) ∧
        (t = .argument .whole → ∀ c ∈ rest.head?, c.isDigit = false) := by
  rw [takes_iff_skip]
  constructor
  · rintro ⟨fits, split, stop⟩
    obtain ⟨gap, blank, whole⟩ := exists_gap cs
    exact ⟨fits, ⟨gap, blank, by rw [List.append_assoc, ← split, ← whole]⟩, stop⟩
  · rintro ⟨fits, ⟨gap, blank, rfl⟩, stop⟩
    exact ⟨fits, skip_gap blank fits rest, stop⟩

end Terminals

section Texts

theorem written_stops {spaced : List (List Char × Terminal × List Char)} {ending : List Char}
    (fitting : ∀ s ∈ spaced, s.2.1.Fits s.2.2) (blanks : ∀ s ∈ spaced, Blank s.1)
    (blankEnd : Blank ending)
    (apart : ∀ s ∈ spaced.head?, s.2.1 = .argument .whole → s.1 ≠ []) :
    ∀ c ∈ (written spaced ending).head?, c.isDigit = false := by
  intro c first
  match spaced with
  | [] =>
      have low := isSpace_le (blankEnd c (List.mem_of_mem_head? first))
      exact isDigit_eq_false (by omega)
  | ([], t, text) :: later =>
      have fits : t.Fits text := fitting ([], t, text) (by simp)
      obtain ⟨d, ds, rfl, letter⟩ := fits.letter fun whole => apart _ rfl whole rfl
      have same : d = c := by simpa [written] using first
      exact isDigit_eq_false (by rw [← same]; omega)
  | (space :: spaces, t, text) :: later =>
      have same : space = c := by simpa [written] using first
      have blank : Blank (space :: spaces) := blanks (space :: spaces, t, text) (by simp)
      have low := isSpace_le (blank space (by simp))
      exact isDigit_eq_false (by rw [← same]; omega)

/-- Terminals take a text up, to its last white space, exactly if it is written with them. -/
theorem chain_iff_written {lexemes : List (Terminal × List Char)} {cs : List Char} :
    (∃ rest, Rule.Chain lexicon.Takes lexemes cs rest ∧ lexicon.skip rest = []) ↔
      (∀ l ∈ lexemes, l.1.Fits l.2) ∧ Written lexemes cs := by
  constructor
  · rintro ⟨rest, chain, whole⟩
    induction chain with
    | @nil cs =>
        exact ⟨by simp, [], cs, rfl, by simp, by simpa [lexicon, Blank] using whole,
          .nil, rfl⟩
    | @cons l ls cs middle rest here _ ih =>
        obtain ⟨fitting, spaced, ending, rfl, blanks, blankEnd, apart, rfl⟩ := ih whole
        obtain ⟨fits, ⟨gap, blank, rfl⟩, stop⟩ := takes_iff.mp here
        refine ⟨by simpa [fits] using fitting, (gap, l) :: spaced, ending, rfl, ?_, blankEnd, ?_,
          rfl⟩
        · simpa [blank] using blanks
        · refine List.isChain_cons.mpr ⟨?_, apart⟩
          intro next first wholeNumber nextWhole adjacent
          -- without a gap the digits of the second number would belong to the first
          obtain ⟨later, rfl⟩ := List.head?_eq_some_iff.mp first
          have nextFits : next.2.1.Fits next.2.2 := fitting next.2 (by simp)
          rw [nextWhole] at nextFits
          obtain ⟨d, ds, digits⟩ := List.exists_cons_of_ne_nil nextFits.1
          have digit := nextFits.2 d (by simp [digits])
          have none := stop wholeNumber d (by simp [written, adjacent, digits])
          simp [digit] at none
  · rintro ⟨fitting, spaced, ending, rfl, blanks, blankEnd, apart, rfl⟩
    induction spaced with
    | nil => exact ⟨ending, .nil, by simpa [lexicon, Blank] using blankEnd⟩
    | cons s spaced ih =>
        obtain ⟨gap, t, text⟩ := s
        obtain ⟨nextApart, laterApart⟩ := List.isChain_cons.mp apart
        obtain ⟨rest, chain, whole⟩ := ih (fun l member => fitting l (by simp [member]))
          (fun s member => blanks s (by simp [member])) laterApart
        have fits : t.Fits text := fitting (t, text) (by simp)
        have blank : Blank gap := blanks (gap, t, text) (by simp)
        refine ⟨rest, .cons (takes_iff.mpr ⟨fits, ⟨gap, blank, rfl⟩, ?_⟩) chain, whole⟩
        intro wholeNumber
        apply written_stops
        · intro s member
          exact fitting s.2 (by simp [List.mem_map_of_mem member])
        · intro s member
          exact blanks s (by simp [member])
        · exact blankEnd
        · intro s next
          exact nextApart s next wholeNumber

end Texts

end ThrustBench.Script
