import Mathlib.Data.List.TakeWhile
import ThrustBench.Proofs.Recognition
import ThrustBench.Routine.Reader

/-!
The terminals of routines as texts.  Each terminal has a pattern and takes the longest text of it
that stands at its place (`cut_eq_some_iff`); between terminals stand white space and comments.
Taking terminals off a text one by one is the same as dividing the text into them (`covers_iff`).
-/

namespace ThrustBench.Routine

open Grammar (Rule)

def IsDigits (text : List Char) : Prop := text ≠ [] ∧ ∀ c ∈ text, Text.isDigit c = true

def IsFraction (text : List Char) : Prop :=
  text = [] ∨ ∃ digits, IsDigits digits ∧ text = '.' :: digits

def IsUnsigned (text : List Char) : Prop :=
  ∃ whole fraction, IsDigits whole ∧ IsFraction fraction ∧ text = whole ++ fraction

def IsName (text : List Char) : Prop :=
  ∃ first rest, text = first :: rest ∧ startsName first = true ∧ ∀ c ∈ rest, continuesName c = true

def IsNumber (text : List Char) : Prop :=
  IsUnsigned text ∨ ∃ digits, IsUnsigned digits ∧ text = '-' :: digits

def Terminal.Fits : Terminal → List Char → Prop
  | .keyword k, text => text = k.text.toList
  | .name, text => IsName text
  | .number, text => IsNumber text
  | .sign s, text => text = s.text.toList
  | .comparison c, text => text = c.text.toList

/-- A text of a pattern, and no longer one stands at the same place. -/
def Longest (P : List Char → Prop) (text rest : List Char) : Prop :=
  P text ∧ ∀ other, P other → other <+: text ++ rest → other.length ≤ text.length

/-- White space and comments, as they stand before a terminal: a comment ends with its line. -/
inductive Gap : List Char → Prop
  | nil : Gap []
  | space {c gap} : isSpace c = true → Gap gap → Gap (c :: gap)
  | comment {body gap} : '\n' ∉ body → Gap gap → Gap ('#' :: (body ++ '\n' :: gap))

/-- What stands behind the last terminal, where a comment may be left open. -/
inductive FinalGap : List Char → Prop
  | gap {cs} : Gap cs → FinalGap cs
  | comment {gap body} : Gap gap → '\n' ∉ body → FinalGap (gap ++ '#' :: body)

/-- A text is divided into terminals, with gaps before and between them and an ending. -/
inductive Covers : List Lexeme → List Char → Prop
  | done {cs} : FinalGap cs → Covers [] cs
  | next {t text lexemes gap rest} : Gap gap → Longest t.Fits text rest → Covers lexemes rest →
      Covers ((t, text) :: lexemes) (gap ++ (text ++ rest))

section Patterns

theorem Longest.unique {P : List Char → Prop} {text rest text' rest' : List Char}
    (one : Longest P text rest) (other : Longest P text' rest')
    (same : text ++ rest = text' ++ rest') : text = text' ∧ rest = rest' := by
  have shorter := one.2 text' other.1 (same ▸ List.prefix_append _ _)
  have longer := other.2 text one.1 (same ▸ List.prefix_append _ _)
  exact List.append_inj same (by omega)

theorem longest_eq (word rest : List Char) : Longest (· = word) word rest := by
  refine ⟨rfl, ?_⟩
  rintro other rfl _
  exact Nat.le_refl _

theorem prefix_takeWhile {p : Char → Bool} {run cs : List Char} (all : ∀ c ∈ run, p c = true)
    (begins : run <+: cs) : run <+: cs.takeWhile p := by
  obtain ⟨rest, rfl⟩ := begins
  rw [List.takeWhile_append_of_pos all]
  exact List.prefix_append _ _

theorem cutExact_eq_some_iff {word cs text rest : List Char} :
    cutExact word cs = some (text, rest) ↔ text = word ∧ cs = word ++ rest := by
  induction word generalizing cs text with
  | nil => simp [cutExact, eq_comm]
  | cons w ws ih =>
      cases cs with
      | nil => simp [cutExact]
      | cons c cs =>
          by_cases same : w = c
          · subst same
            simp only [cutExact, if_true, Option.map_eq_some_iff, Prod.exists, Prod.mk.injEq]
            constructor
            · rintro ⟨taken, left, later, rfl, rfl⟩
              obtain ⟨rfl, rfl⟩ := ih.mp later
              exact ⟨rfl, rfl⟩
            · rintro ⟨rfl, whole⟩
              exact ⟨ws, rest, ih.mpr ⟨rfl, by simpa using whole⟩, rfl, rfl⟩
          · simp [cutExact, same, Ne.symm same]

theorem longest_digits {cs text rest : List Char} (found : cutDigits cs = some (text, rest)) :
    cs = text ++ rest ∧ IsDigits text ∧ ∀ run, (∀ c ∈ run, Text.isDigit c = true) →
      run <+: cs → run <+: text := by
  simp only [cutDigits] at found
  split at found
  · simp at found
  · rename_i given
    simp only [Option.some.injEq, Prod.mk.injEq] at found
    obtain ⟨rfl, rfl⟩ := found
    refine ⟨List.takeWhile_append_dropWhile.symm, ⟨by simpa using given, ?_⟩, ?_⟩
    · intro c member
      exact List.mem_takeWhile_imp member
    · intro run all begins
      exact prefix_takeWhile all begins

theorem cutDigits_of_digits {digits : List Char} (given : IsDigits digits) (rest : List Char) :
    ∃ r, cutDigits (digits ++ rest) = some r := by
  have begins := prefix_takeWhile given.2 (List.prefix_append digits rest)
  have some : (digits ++ rest).takeWhile Text.isDigit ≠ [] := by
    intro none
    rw [none] at begins
    exact given.1 (List.prefix_nil.mp begins)
  exact ⟨_, if_neg (by simpa using some)⟩

theorem longest_fraction (cs : List Char) :
    cs = (cutFraction cs).1 ++ (cutFraction cs).2 ∧
      Longest IsFraction (cutFraction cs).1 (cutFraction cs).2 := by
  fun_cases cutFraction cs with
  | case1 cs digits rest found =>
      obtain ⟨rfl, given, longest⟩ := longest_digits found
      refine ⟨rfl, Or.inr ⟨digits, given, rfl⟩, ?_⟩
      rintro other (rfl | ⟨more, all, rfl⟩) begins
      · simp
      · have inside := longest more all.2 (List.cons_prefix_cons.mp begins).2
        simpa using inside.length_le
  | case2 cs none =>
      refine ⟨rfl, Or.inl rfl, ?_⟩
      rintro other (rfl | ⟨digits, given, rfl⟩) begins
      · simp
      · obtain ⟨rest, rfl⟩ := (List.cons_prefix_cons.mp begins).2
        obtain ⟨r, found⟩ := cutDigits_of_digits given rest
        rw [none] at found
        simp at found
  | case3 cs other =>
      refine ⟨rfl, Or.inl rfl, ?_⟩
      rintro text (rfl | ⟨digits, given, rfl⟩) begins
      · simp
      · obtain ⟨rest, rfl⟩ := begins
        exact absurd rfl (other _)

theorem longest_unsigned {cs text rest : List Char} (found : cutUnsigned cs = some (text, rest)) :
    cs = text ++ rest ∧ Longest IsUnsigned text rest := by
  obtain ⟨⟨whole, left⟩, taken, same⟩ := Option.map_eq_some_iff.mp found
  obtain ⟨rfl, given, longest⟩ := longest_digits taken
  obtain ⟨split, fits, most⟩ := longest_fraction left
  simp only [Prod.mk.injEq] at same
  obtain ⟨rfl, rfl⟩ := same
  refine ⟨by rw [List.append_assoc, ← split], ⟨whole, _, given, fits, rfl⟩, ?_⟩
  rintro _ ⟨digits, fraction, more, fitsToo, rfl⟩ begins
  rw [List.append_assoc, ← split] at begins
  obtain ⟨further, rfl⟩ := longest digits more.2 ((List.prefix_append _ _).trans begins)
  rw [List.append_assoc, List.prefix_append_right_inj] at begins
  cases further with
  | nil =>
      rw [split] at begins
      have shorter := most fraction fitsToo begins
      simp only [List.append_nil, List.length_append]
      omega
  | cons d further =>
      -- a fraction cannot begin before the digits end
      rcases fitsToo with rfl | ⟨behind, _, rfl⟩
      · simp
      · have point : '.' = d := (List.cons_prefix_cons.mp begins).1
        have digit := given.2 '.' (by rw [point]; simp)
        simp [show Text.isDigit '.' = false by decide] at digit

theorem cutUnsigned_of_unsigned {digits : List Char} (given : IsUnsigned digits)
    (rest : List Char) : ∃ r, cutUnsigned (digits ++ rest) = some r := by
  obtain ⟨whole, fraction, all, _, rfl⟩ := given
  obtain ⟨r, found⟩ := cutDigits_of_digits all (fraction ++ rest)
  exact ⟨_, by rw [cutUnsigned, List.append_assoc, found]; rfl⟩

theorem IsUnsigned.digit {text : List Char} (given : IsUnsigned text) :
    ∃ d ds, text = d :: ds ∧ Text.isDigit d = true := by
  obtain ⟨whole, fraction, ⟨some, all⟩, _, rfl⟩ := given
  obtain ⟨d, ds, rfl⟩ := List.exists_cons_of_ne_nil some
  exact ⟨d, ds ++ fraction, rfl, all d (by simp)⟩

theorem longest_number {cs text rest : List Char} (found : cutNumber cs = some (text, rest)) :
    cs = text ++ rest ∧ Longest IsNumber text rest := by
  revert found
  fun_cases cutNumber cs with
  | case1 cs =>
      intro found
      obtain ⟨⟨digits, left⟩, taken, same⟩ := Option.map_eq_some_iff.mp found
      obtain ⟨rfl, given, most⟩ := longest_unsigned taken
      simp only [Prod.mk.injEq] at same
      obtain ⟨rfl, rfl⟩ := same
      refine ⟨rfl, Or.inr ⟨digits, given, rfl⟩, ?_⟩
      rintro other (plain | ⟨more, fits, rfl⟩) begins
      · obtain ⟨d, ds, rfl, digit⟩ := plain.digit
        rw [(List.cons_prefix_cons.mp begins).1] at digit
        simp [show Text.isDigit '-' = false by decide] at digit
      · have shorter := most more fits (List.cons_prefix_cons.mp begins).2
        simpa using shorter
  | case2 cs other =>
      intro found
      obtain ⟨rfl, given, most⟩ := longest_unsigned found
      refine ⟨rfl, Or.inl given, ?_⟩
      rintro number (plain | ⟨more, fits, rfl⟩) begins
      · exact most number plain begins
      · obtain ⟨left, same⟩ := begins
        exact absurd same.symm (other _)

theorem cutNumber_of_number {text : List Char} (given : IsNumber text) (rest : List Char) :
    ∃ r, cutNumber (text ++ rest) = some r := by
  rcases given with plain | ⟨digits, plain, rfl⟩
  · obtain ⟨d, ds, rfl, digit⟩ := plain.digit
    obtain ⟨r, found⟩ := cutUnsigned_of_unsigned plain rest
    refine ⟨r, ?_⟩
    rw [← found, List.cons_append, cutNumber]
    intro left same
    rw [(List.cons.inj same).1] at digit
    simp [show Text.isDigit '-' = false by decide] at digit
  · obtain ⟨r, found⟩ := cutUnsigned_of_unsigned plain rest
    exact ⟨_, by rw [List.cons_append, cutNumber, found]; rfl⟩

theorem longest_name {cs text rest : List Char} (found : cutName cs = some (text, rest)) :
    cs = text ++ rest ∧ Longest IsName text rest := by
  revert found
  fun_cases cutName cs with
  | case1 c cs starts =>
      intro found
      simp only [Option.some.injEq, Prod.mk.injEq] at found
      obtain ⟨rfl, rfl⟩ := found
      refine ⟨by simp, ⟨c, _, rfl, starts, fun d member => List.mem_takeWhile_imp member⟩, ?_⟩
      rintro _ ⟨first, more, rfl, _, all⟩ begins
      rw [List.cons_append, List.takeWhile_append_dropWhile] at begins
      have inside := prefix_takeWhile all (List.cons_prefix_cons.mp begins).2
      simpa using inside.length_le
  | case2 => simp
  | case3 => simp

theorem cut_longest {t : Terminal} {cs text rest : List Char}
    (found : cut t cs = some (text, rest)) : cs = text ++ rest ∧ Longest t.Fits text rest := by
  cases t with
  | keyword k =>
      obtain ⟨rfl, rfl⟩ := cutExact_eq_some_iff.mp found
      exact ⟨rfl, longest_eq _ _⟩
  | name => exact longest_name found
  | number => exact longest_number found
  | sign s =>
      obtain ⟨rfl, rfl⟩ := cutExact_eq_some_iff.mp found
      exact ⟨rfl, longest_eq _ _⟩
  | comparison c =>
      obtain ⟨rfl, rfl⟩ := cutExact_eq_some_iff.mp found
      exact ⟨rfl, longest_eq _ _⟩

theorem cut_of_fits {t : Terminal} {text : List Char} (fits : t.Fits text) (rest : List Char) :
    ∃ r, cut t (text ++ rest) = some r := by
  cases t with
  | keyword k => exact ⟨(text, rest), cutExact_eq_some_iff.mpr ⟨fits, by rw [← fits]⟩⟩
  | name =>
      obtain ⟨first, more, rfl, starts, _⟩ := fits
      exact ⟨_, if_pos starts⟩
  | number => exact cutNumber_of_number fits rest
  | sign s => exact ⟨(text, rest), cutExact_eq_some_iff.mpr ⟨fits, by rw [← fits]⟩⟩
  | comparison c => exact ⟨(text, rest), cutExact_eq_some_iff.mpr ⟨fits, by rw [← fits]⟩⟩

theorem cut_eq_some_iff {t : Terminal} {cs text rest : List Char} :
    cut t cs = some (text, rest) ↔ cs = text ++ rest ∧ Longest t.Fits text rest := by
  constructor
  · exact cut_longest
  · rintro ⟨rfl, longest⟩
    obtain ⟨⟨other, left⟩, found⟩ := cut_of_fits longest.1 rest
    obtain ⟨same, longestToo⟩ := cut_longest found
    obtain ⟨rfl, rfl⟩ := longest.unique longestToo same
    exact found

end Patterns

section Gaps

def Solid (c : Char) : Prop := isSpace c = false ∧ c ≠ '#'

theorem solid_of_pattern {p : Char → Bool}
    (others : [' ', '\t', '\x0c', '\r', '\n', '#'].any p = false) {c : Char} (fits : p c = true) :
    Solid c := by
  simp only [List.any_cons, List.any_nil, Bool.or_false, Bool.or_eq_false_iff] at others
  simp only [Solid, isSpace, Bool.or_eq_false_iff, beq_eq_false_iff_ne]
  obtain ⟨blank, tab, feed, back, line, comment⟩ := others
  refine ⟨⟨⟨⟨⟨?_, ?_⟩, ?_⟩, ?_⟩, ?_⟩, ?_⟩
  all_goals
    rintro rfl
    simp_all

theorem keyword_solid (k : Keyword) : ∀ c ∈ k.text.toList, Solid c := by
  cases k <;> simp [Keyword.text, Solid, isSpace]

theorem sign_solid (s : Sign) : ∀ c ∈ s.text.toList, Solid c := by
  cases s <;> simp [Sign.text, Solid, isSpace]

theorem comparison_solid (c : Comparison) : ∀ d ∈ c.text.toList, Solid d := by
  cases c <;> simp [Comparison.text, Solid, isSpace]

theorem IsUnsigned.solid {text : List Char} (given : IsUnsigned text) : ∀ c ∈ text, Solid c := by
  obtain ⟨whole, fraction, ⟨_, digits⟩, fits, rfl⟩ := given
  have solid : ∀ c, Text.isDigit c = true → Solid c := fun c => solid_of_pattern (by decide)
  intro c member
  rcases List.mem_append.mp member with inWhole | inFraction
  · exact solid c (digits c inWhole)
  · rcases fits with rfl | ⟨more, given, rfl⟩
    · simp at inFraction
    · rcases List.mem_cons.mp inFraction with rfl | behind
      · exact ⟨rfl, by decide⟩
      · exact solid c (given.2 c behind)

theorem Terminal.Fits.solid {t : Terminal} {text : List Char} (fits : t.Fits text) :
    ∀ c ∈ text, Solid c := by
  match t, fits with
  | .keyword k, rfl => exact keyword_solid k
  | .name, ⟨first, rest, rfl, starts, continues⟩ =>
      intro c member
      rcases List.mem_cons.mp member with rfl | later
      · exact solid_of_pattern (by decide) starts
      · exact solid_of_pattern (by decide) (continues c later)
  | .number, Or.inl plain => exact plain.solid
  | .number, Or.inr ⟨digits, plain, rfl⟩ =>
      intro c member
      rcases List.mem_cons.mp member with rfl | later
      · exact ⟨rfl, by decide⟩
      · exact plain.solid c later
  | .sign s, rfl => exact sign_solid s
  | .comparison c, rfl => exact comparison_solid c

theorem Terminal.Fits.ne_nil {t : Terminal} {text : List Char} (fits : t.Fits text) :
    text ≠ [] := by
  match t, fits with
  | .keyword k, rfl => cases k <;> simp [Keyword.text]
  | .name, ⟨first, rest, rfl, _, _⟩ => simp
  | .number, Or.inl plain =>
      obtain ⟨d, ds, rfl, _⟩ := plain.digit
      simp
  | .number, Or.inr ⟨digits, _, rfl⟩ => simp
  | .sign s, rfl => cases s <;> simp [Sign.text]
  | .comparison c, rfl => cases c <;> simp [Comparison.text]

theorem Gap.append {gap cs : List Char} (first : Gap gap) (second : Gap cs) : Gap (gap ++ cs) := by
  induction first with
  | nil => exact second
  | space blank _ ih => exact .space blank ih
  | comment single _ ih =>
      rw [List.cons_append, List.append_assoc, List.cons_append]
      exact .comment single ih

theorem FinalGap.after {gap cs : List Char} (first : Gap gap) (ending : FinalGap cs) :
    FinalGap (gap ++ cs) := by
  cases ending with
  | gap second => exact .gap (first.append second)
  | comment second single =>
      rw [← List.append_assoc]
      exact .comment (first.append second) single

theorem skipFrom_comment {body : List Char} (single : '\n' ∉ body) (cs : List Char) :
    skipFrom true (body ++ '\n' :: cs) = skip cs := by
  induction body with
  | nil => rfl
  | cons c body ih =>
      simp only [List.mem_cons, not_or] at single
      have goesOn : (c != '\n') = true := by simpa using Ne.symm single.1
      rw [List.cons_append, skipFrom, goesOn, ih single.2]

theorem skipFrom_open {body : List Char} (single : '\n' ∉ body) : skipFrom true body = [] := by
  induction body with
  | nil => rfl
  | cons c body ih =>
      simp only [List.mem_cons, not_or] at single
      have goesOn : (c != '\n') = true := by simpa using Ne.symm single.1
      rw [skipFrom, goesOn, ih single.2]

theorem skip_comment (cs : List Char) : skip ('#' :: cs) = skipFrom true cs := rfl

theorem skip_space {c : Char} (blank : isSpace c = true) (cs : List Char) :
    skip (c :: cs) = skip cs := by
  have other : c ≠ '#' := by
    rintro rfl
    simp [isSpace] at blank
  rw [skip, skipFrom, if_neg other, if_pos blank]
  rfl

theorem skip_solid {c : Char} (solid : Solid c) (cs : List Char) : skip (c :: cs) = c :: cs := by
  rw [skip, skipFrom, if_neg solid.2, if_neg (by simp [solid.1])]

theorem skip_gap {gap : List Char} (given : Gap gap) (cs : List Char) :
    skip (gap ++ cs) = skip cs := by
  induction given with
  | nil => rfl
  | space blank _ ih => rw [List.cons_append, skip_space blank, ih]
  | comment single _ ih =>
      rw [List.cons_append, List.append_assoc, List.cons_append, skip_comment,
        skipFrom_comment single, ih]

theorem skip_finalGap {cs : List Char} (ending : FinalGap cs) : skip cs = [] := by
  cases ending with
  | gap given => simpa [skip, skipFrom] using skip_gap given []
  | comment given single => rw [skip_gap given, skip_comment, skipFrom_open single]

theorem gap_skip (cs : List Char) :
    (∃ gap, Gap gap ∧ cs = gap ++ skip cs) ∨ FinalGap cs ∧ skip cs = [] := by
  match cs with
  | [] => exact Or.inl ⟨[], .nil, rfl⟩
  | c :: cs =>
      by_cases blank : isSpace c = true
      · rw [skip_space blank]
        rcases gap_skip cs with ⟨gap, given, same⟩ | ⟨ending, none⟩
        · exact Or.inl ⟨c :: gap, .space blank given, by rw [List.cons_append, ← same]⟩
        · exact Or.inr ⟨.after (.space blank .nil) ending, none⟩
      · -- a comment ends with its line or with the text; the rest of the text is shorter
        by_cases opens : c = '#'
        · subst opens
          by_cases closed : '\n' ∈ cs
          · obtain ⟨body, rest, rfl, single⟩ := List.eq_append_cons_of_mem closed
            rw [skip_comment, skipFrom_comment single]
            rcases gap_skip rest with ⟨gap, given, same⟩ | ⟨ending, none⟩
            · refine Or.inl ⟨_, .comment single given, ?_⟩
              rw [List.cons_append, List.append_assoc, List.cons_append, ← same]
            · refine Or.inr ⟨?_, none⟩
              have whole := ending.after (.comment single .nil)
              simpa using whole
          · exact Or.inr ⟨.comment .nil closed, by rw [skip_comment, skipFrom_open closed]⟩
        · exact Or.inl ⟨[], .nil, by rw [skip_solid ⟨by simpa using blank, opens⟩]; rfl⟩
termination_by cs.length

theorem finalGap_iff {cs : List Char} : FinalGap cs ↔ skip cs = [] := by
  constructor
  · exact skip_finalGap
  · intro none
    rcases gap_skip cs with ⟨gap, given, same⟩ | ⟨ending, _⟩
    · rw [none, List.append_nil] at same
      exact .gap (same ▸ given)
    · exact ending

theorem skip_fits {t : Terminal} {text : List Char} (fits : t.Fits text) (rest : List Char) :
    skip (text ++ rest) = text ++ rest := by
  obtain ⟨c, cs, rfl⟩ := List.exists_cons_of_ne_nil fits.ne_nil
  exact skip_solid (fits.solid c (by simp)) _

theorem takes_iff_skip {t : Terminal} {cs text rest : List Char} :
    lexicon.Takes (t, text) cs rest ↔ skip cs = text ++ rest ∧ Longest t.Fits text rest :=
  cut_eq_some_iff

theorem takes_iff {t : Terminal} {cs text rest : List Char} :
    lexicon.Takes (t, text) cs rest ↔
      ∃ gap, Gap gap ∧ cs = gap ++ (text ++ rest) ∧ Longest t.Fits text rest := by
  rw [takes_iff_skip]
  constructor
  · rintro ⟨here, longest⟩
    rcases gap_skip cs with ⟨gap, given, same⟩ | ⟨_, none⟩
    · exact ⟨gap, given, by rw [← here, ← same], longest⟩
    · rw [none] at here
      exact absurd (List.append_eq_nil_iff.mp here.symm).1 longest.1.ne_nil
  · rintro ⟨gap, given, rfl, longest⟩
    exact ⟨by rw [skip_gap given, skip_fits longest.1], longest⟩

theorem covers_iff {lexemes : List Lexeme} {cs : List Char} :
    Covers lexemes cs ↔ ∃ rest, Rule.Chain lexicon.Takes lexemes cs rest ∧ skip rest = [] := by
  constructor
  · intro covers
    induction covers with
    | done ending => exact ⟨_, .nil, skip_finalGap ending⟩
    | next given longest _ ih =>
        obtain ⟨rest, chain, whole⟩ := ih
        exact ⟨rest, .cons (takes_iff.mpr ⟨_, given, rfl, longest⟩) chain, whole⟩
  · rintro ⟨rest, chain, whole⟩
    induction chain with
    | nil => exact .done (finalGap_iff.mpr whole)
    | cons takes _ ih =>
        obtain ⟨gap, given, rfl, longest⟩ := takes_iff.mp takes
        exact .next given longest (ih whole)

theorem takes_shrinks {lexeme : Lexeme} {cs rest : List Char}
    (takes : lexicon.Takes lexeme cs rest) : rest <:+ cs ∧ rest.length < cs.length := by
  obtain ⟨gap, _, rfl, longest⟩ := takes_iff.mp takes
  have some := List.length_pos_iff.mpr longest.1.ne_nil
  refine ⟨⟨gap ++ lexeme.2, by simp⟩, ?_⟩
  simp only [List.length_append]
  omega

theorem chain_shrinks {lexemes : List Lexeme} {cs rest : List Char}
    (chain : Rule.Chain lexicon.Takes lexemes cs rest) :
    rest <:+ cs ∧ rest.length + lexemes.length ≤ cs.length := by
  induction chain with
  | nil => exact ⟨List.suffix_rfl, Nat.le_refl _⟩
  | cons takes _ ih =>
      obtain ⟨ends, shorter⟩ := takes_shrinks takes
      refine ⟨ih.1.trans ends, ?_⟩
      simp only [List.length_cons]
      omega

end Gaps

end ThrustBench.Routine
