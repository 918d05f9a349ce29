import Mathlib.Data.List.Induction
import ThrustBench.Proofs.WrittenDoubles

/-!
What is read from a line.  A reader of bodies is tried behind every opening parenthesis; the line
gives what it makes of the last group that it takes, whatever stands around that group.
-/

namespace ThrustBench.Reading

theorem span_of_stop {p : Char → Bool} {run : List Char} {stop : Char}
    (all : ∀ c ∈ run, p c = true) (ends : p stop = false) (rest : List Char) :
    (run ++ stop :: rest).takeWhile p = run ∧ (run ++ stop :: rest).dropWhile p = stop :: rest := by
  have stops : ∀ c ∈ (stop :: rest).head?, p c = false := by simpa using ends
  exact ⟨Grammar.takeWhile_run all stops, Grammar.dropWhile_run all stops⟩

theorem kept_of_notMem {cs : List Char} {stop : Char} (none : stop ∉ cs) :
    ∀ c ∈ cs, (c != stop) = true := by
  intro c member
  simp only [bne_iff_ne]
  rintro rfl
  exact none member

theorem firstLine_append {front : List Char} (cs : List Char) (single : '\n' ∉ front) :
    firstLine (front ++ cs) = front ++ firstLine cs :=
  List.takeWhile_append_of_pos (kept_of_notMem single)

def Flat (body : List Char) : Prop := '(' ∉ body ∧ ')' ∉ body ∧ '\n' ∉ body

section Groups

variable {IsBody : List Char → Prop} {cs before body after : List Char}

def HasGroup (IsBody : List Char → Prop) (cs : List Char) : Prop :=
  ∃ before body after, cs = before ++ '(' :: (body ++ ')' :: after) ∧ IsBody body

/-- The last group of a text, with what stands before and behind it. -/
structure LastGroup (IsBody : List Char → Prop) (cs before body after : List Char) : Prop where
  split : cs = before ++ '(' :: (body ++ ')' :: after)
  fits : IsBody body
  last : ¬HasGroup IsBody after

theorem HasGroup.behind (front : List Char) (has : HasGroup IsBody cs) :
    HasGroup IsBody (front ++ cs) := by
  obtain ⟨before, body, after, rfl, fits⟩ := has
  exact ⟨front ++ before, body, after, by simp, fits⟩

theorem hasGroup_cons_iff {c : Char} :
    HasGroup IsBody (c :: cs) ↔
      HasGroup IsBody cs ∨ c = '(' ∧ ∃ body after, cs = body ++ ')' :: after ∧ IsBody body := by
  constructor
  · rintro ⟨before, body, after, split, fits⟩
    cases before with
    | nil =>
        simp only [List.nil_append, List.cons.injEq] at split
        exact .inr ⟨split.1, body, after, split.2, fits⟩
    | cons d before =>
        simp only [List.cons_append, List.cons.injEq] at split
        exact .inl ⟨before, body, after, split.2, fits⟩
  · rintro (has | ⟨rfl, body, after, rfl, fits⟩)
    · exact has.behind [c]
    · exact ⟨[], body, after, rfl, fits⟩

theorem HasGroup.of_behind (plain : '(' ∉ before) (has : HasGroup IsBody (before ++ cs)) :
    HasGroup IsBody cs := by
  induction before with
  | nil => exact has
  | cons c before ih =>
      rw [List.mem_cons, not_or] at plain
      rw [List.cons_append, hasGroup_cons_iff] at has
      rcases has with has | ⟨rfl, _⟩
      · exact ih plain.2 has
      · exact absurd rfl plain.1

theorem exists_lastGroup (has : HasGroup IsBody cs) :
    ∃ before body after, LastGroup IsBody cs before body after := by
  induction cs with
  | nil =>
      obtain ⟨before, body, after, split, _⟩ := has
      simp at split
  | cons c cs ih =>
      by_cases later : HasGroup IsBody cs
      · obtain ⟨before, body, after, split, fits, last⟩ := ih later
        exact ⟨c :: before, body, after, by rw [split]; rfl, fits, last⟩
      · rcases hasGroup_cons_iff.mp has with has | ⟨rfl, body, after, rfl, fits⟩
        · exact absurd has later
        · refine ⟨[], body, after, rfl, fits, fun more => later ?_⟩
          exact (more.behind [')']).behind body

theorem LastGroup.not_behind (group : LastGroup IsBody cs before body after) (plain : '(' ∉ body) :
    ¬HasGroup IsBody (body ++ ')' :: after) := by
  intro has
  have inner : '(' ∉ body ++ [')'] := by simp [plain]
  exact group.last (HasGroup.of_behind inner (by simpa using has))

theorem LastGroup.unique {before' body' after' : List Char}
    (flat : ∀ {body}, IsBody body → Flat body)
    (group : LastGroup IsBody cs before body after)
    (group' : LastGroup IsBody cs before' body' after') :
    before = before' ∧ body = body' ∧ after = after' := by
  have same : before ++ '(' :: (body ++ ')' :: after) =
      before' ++ '(' :: (body' ++ ')' :: after') := group.split.symm.trans group'.split
  have opening : before = before' ∧ body ++ ')' :: after = body' ++ ')' :: after' := by
    rcases List.append_eq_append_iff.mp same with ⟨more, rfl, rest⟩ | ⟨more, rfl, rest⟩
    · cases more with
      | nil => simpa using rest
      | cons c more =>
          simp only [List.cons_append, List.cons.injEq] at rest
          exact absurd ⟨more, body', after', rest.2, group'.fits⟩
            (group.not_behind (flat group.fits).1)
    · cases more with
      | nil => simpa using rest.symm
      | cons c more =>
          simp only [List.cons_append, List.cons.injEq] at rest
          exact absurd ⟨more, body, after, rest.2, group.fits⟩
            (group'.not_behind (flat group'.fits).1)
  have stop : (')' != ')') = false := by decide
  have first := span_of_stop (kept_of_notMem (flat group.fits).2.1) stop after
  have second := span_of_stop (kept_of_notMem (flat group'.fits).2.1) stop after'
  rw [opening.2] at first
  refine ⟨opening.1, first.1.symm.trans second.1, ?_⟩
  exact (List.cons.inj (first.2.symm.trans second.2)).2

end Groups

section Readers

variable {α : Type} {accept : List Char → Option α} {Spells : List Char → α → Prop}
  {cs before body after : List Char} {a : α}

structure Takes (accept : List Char → Option α) (Spells : List Char → α → Prop) : Prop where
  accepts : ∀ {cs a}, accept cs = some a ↔ ∃ body rest, cs = body ++ ')' :: rest ∧ Spells body a
  flat : ∀ {body a}, Spells body a → Flat body

def Spelled (Spells : List Char → α → Prop) (body : List Char) : Prop := ∃ a, Spells body a

theorem lastGroup?_eq_none_iff (takes : Takes accept Spells) :
    lastGroup? accept cs = none ↔ ¬HasGroup (Spelled Spells) cs := by
  induction cs with
  | nil => simp [lastGroup?, HasGroup]
  | cons c cs ih =>
      have here : accept cs = none ↔ ¬∃ body after, cs = body ++ ')' :: after ∧
          Spelled Spells body := by
        rw [Option.eq_none_iff_forall_ne_some]
        constructor
        · rintro none ⟨body, after, split, a, spelled⟩
          exact none a (takes.accepts.mpr ⟨body, after, split, spelled⟩)
        · intro none a some
          obtain ⟨body, rest, split, spelled⟩ := takes.accepts.mp some
          exact none ⟨body, rest, split, a, spelled⟩
      rw [hasGroup_cons_iff, not_or, ← ih, not_and, ← here, lastGroup?]
      cases lastGroup? accept cs with
      | none => by_cases opens : c = '(' <;> simp [opens]
      | some a => simp

theorem lastGroup?_of_last (takes : Takes accept Spells)
    (group : LastGroup (Spelled Spells) cs before body after) (spelled : Spells body a) :
    lastGroup? accept cs = some a := by
  obtain ⟨split, fits, last⟩ := id group
  subst split
  have behind : lastGroup? accept (body ++ ')' :: after) = none :=
    (lastGroup?_eq_none_iff takes).mpr (group.not_behind (takes.flat spelled).1)
  have here : accept (body ++ ')' :: after) = some a :=
    takes.accepts.mpr ⟨body, after, rfl, spelled⟩
  clear group
  induction before with
  | nil => simp [lastGroup?, behind, here]
  | cons c before ih => simp [lastGroup?, ih]

theorem Takes.lastGroup (takes : Takes accept Spells) (spelled : Spells body a)
    (single : '\n' ∉ before) (clean : '(' ∉ firstLine after) :
    LastGroup (Spelled Spells) (firstLine (before ++ '(' :: (body ++ ')' :: after)))
      before body (firstLine after) where
  split := by
    have line : '\n' ∉ before ++ '(' :: (body ++ [')']) := by
      simp [single, (takes.flat spelled).2.2]
    have cut := firstLine_append after line
    simpa using cut
  fits := ⟨a, spelled⟩
  last := by
    rintro ⟨front, inner, back, split, _⟩
    simp [split] at clean

end Readers

theorem ne_of_isDigit {d : Char} (digit : Text.isDigit d = true) :
    d ≠ 'n' ∧ d ≠ '-' ∧ d ≠ '(' ∧ d ≠ ')' ∧ d ≠ '\n' := by
  refine ⟨?_, ?_, ?_, ?_, ?_⟩
  all_goals
    rintro rfl
    revert digit
    decide

theorem ne_of_isPlainDigit {d : Char} (digit : isPlainDigit d = true) :
    d ≠ '-' ∧ d ≠ '+' ∧ d ≠ '(' ∧ d ≠ ')' ∧ d ≠ '\n' := by
  refine ⟨?_, ?_, ?_, ?_, ?_⟩
  all_goals
    rintro rfl
    revert digit
    decide

section Wholes

def minus (negative : Bool) : List Char := if negative then ['-'] else []

inductive SpellsWhole : List Char → WholeBody → Prop
  | unready : SpellsWhole ['n'] .unready
  | number (negative : Bool) {digits : List Char} (given : digits ≠ [])
      (all : ∀ d ∈ digits, Text.isDigit d = true) :
      SpellsWhole (minus negative ++ digits) (.number negative digits)

theorem splitMinus_spec {cs body : List Char} {negative : Bool}
    (split : splitMinus cs = (negative, body)) : cs = minus negative ++ body := by
  unfold splitMinus at split
  split at split
  · obtain ⟨rfl, rfl⟩ := Prod.mk.inj split
    rfl
  · obtain ⟨rfl, rfl⟩ := Prod.mk.inj split
    rfl

theorem splitMinus_minus {body : List Char} (negative : Bool) (plain : ∀ d ∈ body.head?, d ≠ '-') :
    splitMinus (minus negative ++ body) = (negative, body) := by
  cases negative with
  | true => rfl
  | false =>
      cases body with
      | nil => rfl
      | cons d body =>
          have other : d ≠ '-' := plain d rfl
          simp [minus, splitMinus, other]

theorem SpellsWhole.flat {body : List Char} {b : WholeBody} (spelled : SpellsWhole body b) :
    Flat body := by
  cases spelled with
  | unready => exact ⟨by decide, by decide, by decide⟩
  | @number negative digits given all =>
      have opening : '(' ∉ digits := fun member => (ne_of_isDigit (all _ member)).2.2.1 rfl
      have closing : ')' ∉ digits := fun member => (ne_of_isDigit (all _ member)).2.2.2.1 rfl
      have feed : '\n' ∉ digits := fun member => (ne_of_isDigit (all _ member)).2.2.2.2 rfl
      cases negative <;> simp [Flat, minus, opening, closing, feed]

theorem wholeBody?_of_spelled {body : List Char} {b : WholeBody} (spelled : SpellsWhole body b)
    (rest : List Char) : wholeBody? (body ++ ')' :: rest) = some b := by
  cases spelled with
  | unready => rfl
  | @number negative digits given all =>
      obtain ⟨d, digits, rfl⟩ := List.exists_cons_of_ne_nil given
      have first := ne_of_isDigit (all d List.mem_cons_self)
      have unsigned : splitMinus (minus negative ++ (d :: digits) ++ ')' :: rest) =
          (negative, d :: digits ++ ')' :: rest) := by
        rw [List.append_assoc]
        exact splitMinus_minus negative (by simpa using first.2.1)
      obtain ⟨taken, left⟩ := span_of_stop all (by decide : Text.isDigit ')' = false) rest
      unfold wholeBody?
      split
      · rename_i start
        -- a number does not begin with the mark of a cell that is not ready
        cases negative <;> simp [minus, first.1] at start
      · simp only [unsigned, taken, left]
        simp

theorem wholeBody?_takes : Takes wholeBody? SpellsWhole where
  flat := SpellsWhole.flat
  accepts := by
    intro cs b
    constructor
    · intro read
      unfold wholeBody? at read
      split at read
      · rename_i rest
        obtain rfl := Option.some.inj read
        exact ⟨['n'], rest, rfl, .unready⟩
      · rcases cut : splitMinus cs with ⟨negative, body⟩
        have whole := splitMinus_spec cut
        rw [cut] at read
        simp only at read
        split at read
        · rename_i rest stop
          split at read
          · simp at read
          · rename_i given
            obtain rfl := Option.some.inj read
            refine ⟨minus negative ++ body.takeWhile Text.isDigit, rest, ?_, .number negative ?_ ?_⟩
            · rw [whole, List.append_assoc, ← stop, List.takeWhile_append_dropWhile]
            · simpa using given
            · exact fun d member => List.mem_takeWhile_imp member
        · simp at read
    · rintro ⟨body, rest, rfl, spelled⟩
      exact wholeBody?_of_spelled spelled rest

def wholeNumber (negative : Bool) (digits : List Char) : Int :=
  let size : Nat := Nat.ofDigits 10 (digits.reverse.map fun d => (Text.digit? d).getD 0)
  if negative then -(size : Int) else size

theorem digitsValue_eq_ofDigits (digits : List Char) :
    Text.digitsValue digits =
      Nat.ofDigits 10 (digits.reverse.map fun d => (Text.digit? d).getD 0) := by
  induction digits using List.reverseRecOn with
  | nil => rfl
  | append_singleton digits last ih =>
      rw [Text.digitsValue_snoc, ih, List.reverse_append, List.reverse_singleton,
        List.singleton_append, List.map_cons, Nat.ofDigits_cons, Nat.add_comm]

theorem whole_of_noGroup {line : String}
    (none : ¬HasGroup (Spelled SpellsWhole) (firstLine line.toList)) : whole line = .ok .none := by
  rw [whole, (lastGroup?_eq_none_iff wholeBody?_takes).mpr none]

theorem whole_of_last {line : String} {before body after : List Char} {b : WholeBody}
    (group : LastGroup (Spelled SpellsWhole) (firstLine line.toList) before body after)
    (spelled : SpellsWhole body b) : whole line = b.value := by
  rw [whole, lastGroup?_of_last wholeBody?_takes group spelled]

theorem number_value (negative : Bool) (digits : List Char) :
    (WholeBody.number negative digits).value =
      if Fault.digitLimit < digits.length then .error (.tooManyDigits digits.length)
      else .ok (some (wholeNumber negative digits)) := by
  rw [WholeBody.value, wholeNumber, digitsValue_eq_ofDigits]

theorem spellsWhole_wholeText (z : Int) :
    ∃ digits, SpellsWhole (wholeText z).toList (.number (decide (z < 0)) digits) ∧
      digits.length = (Nat.toDigits 10 z.natAbs).length ∧
      wholeNumber (decide (z < 0)) digits = z := by
  have plain : ∀ d ∈ Nat.toDigits 10 z.natAbs, Text.isDigit d = true := fun d member =>
    Text.isDigit_of_plain (Nat.isDigit_of_mem_toDigits (by decide) (by decide) member)
  have text : (wholeText z).toList = minus (decide (z < 0)) ++ Nat.toDigits 10 z.natAbs := by
    rw [Binary64.wholeText_eq_sign, String.toList_append, String.toList_ofList]
    cases decide (z < 0) <;> rfl
  refine ⟨Nat.toDigits 10 z.natAbs, ?_, rfl, ?_⟩
  · rw [text]
    exact .number _ Nat.toDigits_ne_nil plain
  · rw [wholeNumber, ← digitsValue_eq_ofDigits, Text.digitsValue_toDigits]
    by_cases negative : z < 0
    · simp only [negative, decide_true, if_true]
      omega
    · simp only [negative, decide_false, Bool.false_eq_true, if_false]
      omega

/-- A whole number is read from the last group of the first line that holds one, whatever stands
around it.  So a number that is written in parentheses is read again, behind any text and before
any text that opens no group. -/
theorem whole_reads_last_group (line : String) :
    let first := firstLine line.toList
    (¬HasGroup (Spelled SpellsWhole) first → whole line = .ok none) ∧
      (HasGroup (Spelled SpellsWhole) first →
        ∃ before body after, LastGroup (Spelled SpellsWhole) first before body after) ∧
      (∀ before after, LastGroup (Spelled SpellsWhole) first before ['n'] after →
        whole line = .ok none) ∧
      (∀ before negative digits after, digits ≠ [] → (∀ d ∈ digits, Text.isDigit d = true) →
        LastGroup (Spelled SpellsWhole) first before (minus negative ++ digits) after →
        (Fault.digitLimit < digits.length →
            whole line = .error (.tooManyDigits digits.length)) ∧
          (digits.length ≤ Fault.digitLimit →
            whole line = .ok (some (wholeNumber negative digits)))) ∧
      ∀ (z : Int) (before after : List Char), (Nat.toDigits 10 z.natAbs).length ≤ Fault.digitLimit →
        '\n' ∉ before → '(' ∉ firstLine after →
        line.toList = before ++ '(' :: ((wholeText z).toList ++ ')' :: after) →
        whole line = .ok (some z) := by
  refine ⟨whole_of_noGroup, exists_lastGroup, ?_, ?_, ?_⟩
  · intro before after group
    rw [whole_of_last group .unready, WholeBody.value]
  · intro before negative digits after given all group
    rw [whole_of_last group (.number negative given all), number_value]
    exact ⟨fun long => by rw [if_pos long], fun short => by rw [if_neg (by omega)]⟩
  · intro z before after short single clean written
    obtain ⟨digits, spelled, length, value⟩ := spellsWhole_wholeText z
    have group : LastGroup (Spelled SpellsWhole) (firstLine line.toList) before
        (wholeText z).toList (firstLine after) := by
      rw [written]
      exact wholeBody?_takes.lastGroup spelled single clean
    rw [whole_of_last group spelled, number_value, if_neg (by omega), value]

theorem whole_reads_last_group_fused :
    LastGroup (Spelled SpellsWhole) (firstLine "lc1(12lc2(-٣4)x(5\n(7)".toList)
        "lc1(12lc2".toList (minus true ++ ['٣', '4']) "x(5".toList ∧
      whole "lc1(12lc2(-٣4)x(5\n(7)" = .ok (some (-34)) := by
  have three : Text.isDigit '٣' = true := by decide
  have four : Text.isDigit '4' = true := by decide
  have digits : ∀ d ∈ ['٣', '4'], Text.isDigit d = true := by simp [three, four]
  have last : ¬HasGroup (Spelled SpellsWhole) "x(5".toList :=
    (lastGroup?_eq_none_iff wholeBody?_takes).mp (by decide)
  have group : LastGroup (Spelled SpellsWhole) (firstLine "lc1(12lc2(-٣4)x(5\n(7)".toList)
      "lc1(12lc2".toList (minus true ++ ['٣', '4']) "x(5".toList :=
    ⟨by decide, ⟨_, .number true (by simp) digits⟩, last⟩
  have read := (whole_reads_last_group "lc1(12lc2(-٣4)x(5\n(7)").2.2.2.1 _ true _ _ (by simp) digits
    group
  have value : wholeNumber true ['٣', '4'] = -34 := by decide
  exact ⟨group, value ▸ read.2 (by decide)⟩

end Wholes

section Decimals

/-- How the body of a group spells a decimal: a sign or none, and plain digits, with or without a
point before the last of them. -/
inductive SpellsReal : List Char → RealBody → Prop
  | front {sign front : List Char} (sort : sign = [] ∨ sign = ['-'] ∨ sign = ['+'])
      (given : front ≠ []) (plain : ∀ d ∈ front, isPlainDigit d = true) :
      SpellsReal (sign ++ front) ⟨decide (sign = ['-']), front, []⟩
  | point {sign front back : List Char} (sort : sign = [] ∨ sign = ['-'] ∨ sign = ['+'])
      (given : back ≠ []) (plain : ∀ d ∈ front ++ back, isPlainDigit d = true) :
      SpellsReal (sign ++ (front ++ '.' :: back)) ⟨decide (sign = ['-']), front, back⟩

theorem splitSign_spec {cs body : List Char} {negative : Bool}
    (split : Numeral.splitSign cs = (negative, body)) :
    ∃ sign, (sign = [] ∨ sign = ['-'] ∨ sign = ['+']) ∧ negative = decide (sign = ['-']) ∧
      cs = sign ++ body := by
  unfold Numeral.splitSign at split
  split at split
  · obtain ⟨rfl, rfl⟩ := Prod.mk.inj split
    exact ⟨['-'], .inr (.inl rfl), rfl, rfl⟩
  · obtain ⟨rfl, rfl⟩ := Prod.mk.inj split
    exact ⟨['+'], .inr (.inr rfl), rfl, rfl⟩
  · obtain ⟨rfl, rfl⟩ := Prod.mk.inj split
    exact ⟨[], .inl rfl, rfl, rfl⟩

theorem SpellsReal.flat {body : List Char} {b : RealBody} (spelled : SpellsReal body b) :
    Flat body := by
  have clean {digits : List Char} (plain : ∀ d ∈ digits, isPlainDigit d = true) : Flat digits :=
    ⟨fun member => (ne_of_isPlainDigit (plain _ member)).2.2.1 rfl,
      fun member => (ne_of_isPlainDigit (plain _ member)).2.2.2.1 rfl,
      fun member => (ne_of_isPlainDigit (plain _ member)).2.2.2.2 rfl⟩
  cases spelled with
  | front sort given plain =>
      obtain ⟨opening, closing, feed⟩ := clean plain
      rcases sort with rfl | rfl | rfl <;> simp [Flat, opening, closing, feed]
  | point sort given plain =>
      obtain ⟨opening, closing, feed⟩ := clean plain
      rw [List.mem_append, not_or] at opening closing feed
      rcases sort with rfl | rfl | rfl <;> simp [Flat, opening, closing, feed]

theorem realBody?_of_spelled {body : List Char} {b : RealBody} (spelled : SpellsReal body b)
    (rest : List Char) : realBody? (body ++ ')' :: rest) = some b := by
  have unsigned {sign front : List Char} (sort : sign = [] ∨ sign = ['-'] ∨ sign = ['+'])
      (plain : ∀ d ∈ front, isPlainDigit d = true) {next : Char} (other : next ≠ '-' ∧ next ≠ '+')
      (tail : List Char) :
      Numeral.splitSign (sign ++ (front ++ next :: tail)) =
        (decide (sign = ['-']), front ++ next :: tail) := by
    apply Numeral.splitSign_of_sign sort
    cases front with
    | nil => simpa using other
    | cons d front =>
        have digit := ne_of_isPlainDigit (plain d List.mem_cons_self)
        simpa using ⟨digit.1, digit.2.1⟩
  have close : isPlainDigit ')' = false := by decide
  cases spelled with
  | @front sign front sort given plain =>
      obtain ⟨taken, left⟩ := span_of_stop plain close rest
      simp only [realBody?, List.append_assoc, unsigned sort plain (by decide : ')' ≠ '-' ∧ _),
        taken, left]
      simp [given]
  | @point sign front back sort given plain =>
      have plainFront : ∀ d ∈ front, isPlainDigit d = true := fun d member =>
        plain d (List.mem_append_left back member)
      have plainBack : ∀ d ∈ back, isPlainDigit d = true := fun d member =>
        plain d (List.mem_append_right front member)
      have point : isPlainDigit '.' = false := by decide
      obtain ⟨taken, left⟩ := span_of_stop plainFront point (back ++ ')' :: rest)
      obtain ⟨takenBack, leftBack⟩ := span_of_stop plainBack close rest
      simp only [realBody?, List.append_assoc, List.cons_append,
        unsigned sort plainFront (by decide : '.' ≠ '-' ∧ _), taken, left, takenBack, leftBack]
      simp [given]

theorem realBody?_takes : Takes realBody? SpellsReal where
  flat := SpellsReal.flat
  accepts := by
    intro cs b
    constructor
    · intro read
      unfold realBody? at read
      rcases cut : Numeral.splitSign cs with ⟨negative, body⟩
      obtain ⟨sign, sort, rfl, rfl⟩ := splitSign_spec cut
      rw [cut] at read
      simp only at read
      split at read
      · rename_i rest stop
        split at read
        · simp at read
        · rename_i given
          obtain rfl := Option.some.inj read
          refine ⟨sign ++ body.takeWhile isPlainDigit, rest, ?_, .front sort ?_ ?_⟩
          · rw [List.append_assoc, ← stop, List.takeWhile_append_dropWhile]
          · simpa using given
          · exact fun d member => List.mem_takeWhile_imp member
      · rename_i tail point
        split at read
        · rename_i rest stop
          split at read
          · simp at read
          · rename_i given
            obtain rfl := Option.some.inj read
            refine ⟨sign ++ (body.takeWhile isPlainDigit ++ '.' :: tail.takeWhile isPlainDigit),
              rest, ?_, .point sort ?_ ?_⟩
            · have behind : tail = tail.takeWhile isPlainDigit ++ ')' :: rest := by
                rw [← stop, List.takeWhile_append_dropWhile]
              have all : body = body.takeWhile isPlainDigit ++ '.' :: tail := by
                rw [← point, List.takeWhile_append_dropWhile]
              rw [List.append_assoc, List.append_assoc, List.cons_append, ← behind, ← all]
            · simpa using given
            · intro d member
              rcases List.mem_append.mp member with member | member
              · exact List.mem_takeWhile_imp member
              · exact List.mem_takeWhile_imp member
        · simp at read
      · simp at read
    · rintro ⟨body, rest, rfl, spelled⟩
      exact realBody?_of_spelled spelled rest

theorem real_of_noGroup {line : String}
    (none : ¬HasGroup (Spelled SpellsReal) (firstLine line.toList)) : real line = .none := by
  rw [real, (lastGroup?_eq_none_iff realBody?_takes).mpr none, Option.map_none]

theorem real_of_last {line : String} {before body after : List Char} {b : RealBody}
    (group : LastGroup (Spelled SpellsReal) (firstLine line.toList) before body after)
    (spelled : SpellsReal body b) : real line = some b.value := by
  rw [real, lastGroup?_of_last realBody?_takes group spelled, Option.map_some]

end Decimals

end ThrustBench.Reading
