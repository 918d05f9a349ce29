import ThrustBench.Number
import ThrustBench.Proofs.Accepted
import ThrustBench.Proofs.Recognition
import ThrustBench.Proofs.ShortestDecimals

/-!
Numbers that are written and read again.  A double is read back as itself, sign of zero included,
and a whole number as the double nearest to it.
-/

namespace ThrustBench

open Grammar (takeWhile_run dropWhile_run)

theorem toList_padZeros (width : Nat) (s : String) :
    (padZeros width s).toList = List.replicate (width - s.toList.length) '0' ++ s.toList := by
  rw [padZeros, String.toList_append, String.toList_ofList, String.length_toList]

namespace Text

theorem digitsValue_snoc (cs : List Char) (c : Char) :
    digitsValue (cs ++ [c]) = 10 * digitsValue cs + (digit? c).getD 0 := by
  simp [digitsValue]

theorem digitsValue_append (first second : List Char) :
    digitsValue (first ++ second) =
      digitsValue first * Nat.pow 10 second.length + digitsValue second := by
  induction second using List.reverseRecOn with
  | nil =>
      rw [List.append_nil, List.length_nil]
      exact (Nat.mul_one _).symm
  | append_singleton second c ih =>
      have power : Nat.pow 10 (second ++ [c]).length = 10 * Nat.pow 10 second.length := by
        rw [List.length_append, List.length_singleton]
        exact Nat.pow_succ'
      rw [← List.append_assoc, digitsValue_snoc, digitsValue_snoc, ih, power]
      ring

theorem digitsValue_zeros (count : Nat) : digitsValue (List.replicate count '0') = 0 := by
  induction count with
  | zero => rfl
  | succ count ih =>
      rw [List.replicate_succ', digitsValue_snoc, ih]
      rfl

theorem isDigit_of_mem_toDigits {n : Nat} {c : Char} (member : c ∈ Nat.toDigits 10 n) :
    isDigit c = true :=
  isDigit_of_plain (Nat.isDigit_of_mem_toDigits (by decide) (by decide) member)

theorem digitsValue_toDigits (n : Nat) : digitsValue (Nat.toDigits 10 n) = n := by
  have plain : ∀ c ∈ Nat.toDigits 10 n, c.isDigit = true := fun c member =>
    Nat.isDigit_of_mem_toDigits (by decide) (by decide) member
  have known (cs : List Char) (digits : ∀ c ∈ cs, c.isDigit = true) :
      digitsValue cs = Nat.ofDigitChars 10 cs 0 := by
    induction cs using List.reverseRecOn with
    | nil => rfl
    | append_singleton cs c ih =>
        rw [digitsValue_snoc, ih fun d member => digits d (by simp [member]),
          digit?_of_plain (digits c (by simp))]
        simp [Nat.ofDigitChars]
  rw [known _ plain, Nat.ofDigitChars_ten_toDigits]

theorem head?_toDigits_ne {n : Nat} (given : n ≠ 0) : (Nat.toDigits 10 n).head? ≠ some '0' := by
  have single : ∀ n < 10, n ≠ 0 → some n.digitChar ≠ some '0' := by decide
  induction n using Nat.strongRecOn with
  | ind n ih =>
      by_cases small : n < 10
      · rw [Nat.toDigits_of_lt_base small, List.head?_cons]
        exact single n small given
      · rw [Nat.toDigits_of_base_le (by decide) (by omega),
          List.head?_append_of_ne_nil _ Nat.toDigits_ne_nil]
        exact ih (n / 10) (by omega) (by omega)

end Text

namespace Numeral

def isMark (c : Char) : Bool := Text.isDigit c || c == '.' || c == 'e' || c == '+' || c == '-'

theorem isMark_of_digit {c : Char} (digit : Text.isDigit c = true) : isMark c = true := by
  simp [isMark, digit]

theorem isBlank_of_mark {c : Char} (mark : isMark c = true) : isBlank c = false := by
  simp only [isMark, Bool.or_eq_true, beq_iff_eq] at mark
  rcases mark with (((digit | rfl) | rfl) | rfl) | rfl
  · exact isBlank_of_digit digit
  all_goals decide

theorem ne_underscore_of_mark {c : Char} (mark : isMark c = true) : c ≠ '_' := by
  rintro rfl
  revert mark
  decide

theorem word?_of_digit {c : Char} (first : Text.isDigit c = true ∨ c = '.') (negative : Bool)
    (cs : List Char) : word? negative (c :: cs) = none := by
  have apart : c.toNat < 58 ∨ 1632 ≤ c.toNat := by
    rcases first with digit | rfl
    · rcases Text.isDigit_range digit with plain | far
      · exact .inl plain.2
      · exact .inr far
    · exact .inl (by decide)
  have lower := Text.toNat_toLower c
  rw [if_neg (by omega)] at lower
  have differs {d : Char} {ds : List Char} (letter : 58 ≤ d.toNat ∧ d.toNat < 1632) :
      String.ofList ((c :: cs).map Char.toLower) ≠ String.ofList (d :: ds) := by
    intro same
    have lists := congrArg String.toList same
    rw [String.toList_ofList, String.toList_ofList, List.map_cons, List.cons.injEq] at lists
    have code := congrArg Char.toNat lists.1
    omega
  have first : String.ofList ((c :: cs).map Char.toLower) ≠ "inf" := differs (d := 'i') (by decide)
  have second : String.ofList ((c :: cs).map Char.toLower) ≠ "infinity" :=
    differs (d := 'i') (by decide)
  have third : String.ofList ((c :: cs).map Char.toLower) ≠ "nan" := differs (d := 'n') (by decide)
  simp only [word?, first, second, third, or_self, if_false]

theorem splitSign_of_sign {sign body : List Char}
    (sort : sign = [] ∨ sign = ['-'] ∨ sign = ['+'])
    (plain : ∀ d ∈ body.head?, d ≠ '-' ∧ d ≠ '+') :
    splitSign (sign ++ body) = (decide (sign = ['-']), body) := by
  rcases sort with rfl | rfl | rfl
  · cases body with
    | nil => rfl
    | cons d body =>
        obtain ⟨notMinus, notPlus⟩ := plain d rfl
        simp [splitSign, notMinus, notPlus]
  · rfl
  · rfl

theorem real?_of_decimal {sign cs : List Char} {c : Char} {d : Decimal}
    (sort : sign = [] ∨ sign = ['-'] ∨ sign = ['+'])
    (first : Text.isDigit c = true ∨ c = '.') (marks : ∀ x ∈ c :: cs, isMark x = true)
    (read : decimal? (c :: cs) = some d) :
    real? (String.ofList (sign ++ c :: cs)) =
      .ok (Binary64.ofDecimal (decide (sign = ['-'])) d) := by
  have signed : ∀ x ∈ sign ++ c :: cs, isMark x = true := by
    intro x member
    rcases List.mem_append.mp member with inSign | body
    · rcases sort with rfl | rfl | rfl
      · simp at inSign
      · rw [List.mem_singleton.mp inSign]; decide
      · rw [List.mem_singleton.mp inSign]; decide
    · exact marks x body
  have trimmed := Text.trimBy_of_none fun x member => isBlank_of_mark (signed x member)
  have kept : (sign ++ c :: cs).filter (· != '_') = sign ++ c :: cs := by
    rw [List.filter_eq_self]
    intro x member
    simpa using ne_underscore_of_mark (signed x member)
  have notSign : c ≠ '-' ∧ c ≠ '+' := by
    constructor <;> rintro rfl <;> exact absurd first (by decide)
  have split : splitSign (sign ++ c :: cs) = (decide (sign = ['-']), c :: cs) :=
    splitSign_of_sign sort (by simpa using notSign)
  have fits := underscoresFit_of_none _
    (fun x member => ne_underscore_of_mark (signed x member)) false
  simp only [real?, String.toList_ofList, trimmed, kept, split, word?_of_digit first, read,
    Option.map_some, fits, if_true]

theorem splitDigits_run {run rest : List Char} (all : ∀ c ∈ run, Text.isDigit c = true)
    (stop : ∀ c ∈ rest.head?, Text.isDigit c = false) :
    splitDigits (run ++ rest) = (run, rest) := by
  rw [splitDigits, takeWhile_run all stop, dropWhile_run all stop]

theorem exponent?_of_digits {digits : List Char} (negative : Bool) (given : digits ≠ [])
    (all : ∀ c ∈ digits, Text.isDigit c = true) :
    exponent? ('e' :: (if negative then '-' else '+') :: digits) =
      some (Binary64.signed negative (Text.digitsValue digits)) := by
  have split : splitSign ((if negative then '-' else '+') :: digits) = (negative, digits) := by
    cases negative <;> rfl
  have run : splitDigits digits = (digits, []) := by
    have whole := @splitDigits_run digits [] all (by simp)
    rwa [List.append_nil] at whole
  have filled : digits.isEmpty = false := by simpa using given
  simp only [exponent?, true_or, if_true, split, run, filled, List.isEmpty_nil, Bool.not_true,
    Bool.or_self, Bool.false_eq_true, if_false, Binary64.signed]

theorem decimal?_of_parts {front back ending : List Char} {e : Int}
    (given : front ≠ [] ∨ back ≠ []) (before : ∀ c ∈ front, Text.isDigit c = true)
    (behind : ∀ c ∈ back, Text.isDigit c = true) (stop : ∀ c ∈ ending.head?, c = 'e')
    (ends : exponent? ending = some e) :
    decimal? (front ++ ((if back.isEmpty then [] else '.' :: back) ++ ending)) =
      some ⟨Text.digitsValue (front ++ back), e - (back.length : Int)⟩ := by
  have point : Text.isDigit '.' = false := by decide
  have letter : Text.isDigit 'e' = false := by decide
  have ended : ∀ c ∈ ending.head?, Text.isDigit c = false := by
    intro c first
    rw [stop c first]
    exact letter
  cases back with
  | nil =>
      have filled : front.isEmpty = false := by simpa using given
      have rest : splitFraction ending = ([], ending) := by
        unfold splitFraction
        split
        · exact absurd (stop '.' rfl) (by decide)
        · rfl
      simp only [List.isEmpty_nil, if_true, List.nil_append, decimal?, splitDigits_run before ended,
        rest, filled, Bool.false_and, Bool.false_eq_true, if_false, ends, Option.map_some,
        List.append_nil]
  | cons c back =>
      have stopped : ∀ x ∈ ('.' :: (c :: back ++ ending)).head?, Text.isDigit x = false := by
        intro x first
        cases first
        exact point
      have whole := splitDigits_run before stopped
      have rest : splitFraction ('.' :: (c :: back ++ ending)) = (c :: back, ending) :=
        splitDigits_run behind ended
      have shape : front ++ ((if (c :: back).isEmpty then [] else '.' :: c :: back) ++ ending) =
          front ++ '.' :: (c :: back ++ ending) := rfl
      rw [shape]
      simp only [decimal?, whole, rest, List.isEmpty_cons, Bool.and_false, Bool.false_eq_true,
        if_false, ends, Option.map_some]

end Numeral

namespace Binary64

theorem ofSteps_of_ratio {a b c d : Nat} (negative : Bool) (first : 0 < b) (second : 0 < d)
    (same : a * d = c * b) : ofSteps negative a b = ofSteps negative c d := by
  calc
    ofSteps negative a b = ofSteps negative (a * d) (b * d) :=
      (ofSteps_scale second negative a b).symm
    _ = ofSteps negative (c * b) (d * b) := by rw [same, Nat.mul_comm b d]
    _ = ofSteps negative c d := ofSteps_scale first negative c d

theorem grid_shift (exponent : Int) (count : Nat) :
    Nat.pow 10 count * (grid exponent).den * (grid (exponent + count)).scale =
      (grid (exponent + count)).den * (grid exponent).scale := by
  have sum (a b : Nat) : Nat.pow 10 (a + b) = Nat.pow 10 a * Nat.pow 10 b := Nat.pow_add 10 a b
  unfold grid
  generalize unit = step
  by_cases low : exponent < 0
  · by_cases lower : exponent + count < 0
    · have size : exponent.natAbs = count + (exponent + count).natAbs := by omega
      simp only [low, lower, if_true, size, sum]
      ring
    · have size : count = (exponent + count).natAbs + exponent.natAbs := by omega
      simp only [low, lower, if_true, if_false]
      generalize (exponent + count).natAbs = a, exponent.natAbs = b at size ⊢
      rw [size, sum]
      ring
  · have lower : ¬exponent + count < 0 := by omega
    have size : (exponent + count).natAbs = exponent.natAbs + count := by omega
    simp only [low, lower, if_false, size, sum]
    ring

theorem ofDecimal_shift (negative : Bool) (digits count : Nat) (exponent : Int) :
    ofDecimal negative ⟨digits * Nat.pow 10 count, exponent⟩ =
      ofDecimal negative ⟨digits, exponent + count⟩ := by
  rw [ofDecimal_eq, ofDecimal_eq]
  refine ofSteps_of_ratio negative (grid_pos _).2 (grid_pos _).2 ?_
  have shifted := grid_shift exponent count
  calc
    digits * Nat.pow 10 count * (grid exponent).den * (grid (exponent + count)).scale =
        digits * (Nat.pow 10 count * (grid exponent).den * (grid (exponent + count)).scale) := by
      ring
    _ = digits * (grid (exponent + count)).den * (grid exponent).scale := by
      rw [shifted, Nat.mul_assoc]

end Binary64

namespace Decimal

def ofDigits (digits : List Char) (leading : Int) : Decimal :=
  ⟨Text.digitsValue digits, leading + 1 - (digits.length : Int)⟩

theorem digit_of_mem_significant {d : Decimal} {c : Char} (member : c ∈ d.significant) :
    Text.isDigit c = true := by
  have digit : c ∈ Nat.toDigits 10 d.digits := by
    rw [significant, List.mem_reverse] at member
    exact List.mem_reverse.mp ((List.dropWhile_sublist _).subset member)
  exact Text.isDigit_of_mem_toDigits digit

theorem significant_split (d : Decimal) :
    ∃ count, Nat.toDigits 10 d.digits = d.significant ++ List.replicate count '0' := by
  let zeros := (Nat.toDigits 10 d.digits).reverse.takeWhile (· == '0')
  have all : zeros = List.replicate zeros.length '0' := by
    rw [List.eq_replicate_iff]
    refine ⟨rfl, fun c member => ?_⟩
    simpa using List.mem_takeWhile_imp member
  refine ⟨zeros.length, ?_⟩
  have parts : zeros ++ d.significant.reverse = (Nat.toDigits 10 d.digits).reverse := by
    rw [significant, List.reverse_reverse]
    exact List.takeWhile_append_dropWhile
  have turned := congrArg List.reverse parts
  rw [List.reverse_append, List.reverse_reverse, List.reverse_reverse, all,
    List.reverse_replicate] at turned
  exact turned.symm

theorem ofDecimal_significant (negative : Bool) (d : Decimal) :
    Binary64.ofDecimal negative (ofDigits d.significant d.leading) =
      Binary64.ofDecimal negative d := by
  obtain ⟨count, split⟩ := d.significant_split
  have value : d.digits = Text.digitsValue d.significant * Nat.pow 10 count := by
    have whole := Text.digitsValue_toDigits d.digits
    rw [split, Text.digitsValue_append, Text.digitsValue_zeros, List.length_replicate] at whole
    exact whole.symm
  have length : width d.digits = d.significant.length + count := by
    rw [width, split, List.length_append, List.length_replicate]
  have place : d.leading + 1 - (d.significant.length : Int) = d.exponent + count := by
    rw [leading, length]
    omega
  rw [ofDigits, place, ← Binary64.ofDecimal_shift, ← value]

theorem significant_ne_nil {d : Decimal} (given : d.digits ≠ 0) : d.significant ≠ [] := by
  intro none
  obtain ⟨count, split⟩ := d.significant_split
  have whole := Text.digitsValue_toDigits d.digits
  rw [split, none, List.nil_append, Text.digitsValue_zeros] at whole
  exact given whole.symm

/-- Is a text a way to write a number: does it begin with a digit or a point, and is it read so? -/
structure Writes (text : List Char) (d : Decimal) : Prop where
  first : ∃ c cs, text = c :: cs ∧ (Text.isDigit c = true ∨ c = '.')
  marks : ∀ c ∈ text, Numeral.isMark c = true
  value : ∃ read, Numeral.decimal? text = some read ∧
    ∀ negative, Binary64.ofDecimal negative read = Binary64.ofDecimal negative d

theorem Writes.real?_signed {sign text : List Char} {d : Decimal} (written : Writes text d)
    (sort : sign = [] ∨ sign = ['-'] ∨ sign = ['+']) :
    Numeral.real? (String.ofList (sign ++ text)) =
      .ok (Binary64.ofDecimal (decide (sign = ['-'])) d) := by
  obtain ⟨c, cs, rfl, first⟩ := written.first
  obtain ⟨read, found, same⟩ := written.value
  rw [Numeral.real?_of_decimal sort first written.marks found, same]

theorem Writes.real? {text : List Char} {d : Decimal} (written : Writes text d)
    (negative : Bool) :
    Numeral.real? (Binary64.sign negative ++ String.ofList text) =
      .ok (Binary64.ofDecimal negative d) := by
  cases negative with
  | false =>
      have read := written.real?_signed (.inl rfl)
      simpa [Binary64.sign] using read
  | true =>
      have read := written.real?_signed (.inr (.inl rfl))
      rwa [String.ofList_append] at read

theorem writes_of_parts {front back ending : List Char} {d : Decimal} {e : Int}
    (given : front ≠ [] ∨ back ≠ []) (before : ∀ c ∈ front, Text.isDigit c = true)
    (behind : ∀ c ∈ back, Text.isDigit c = true) (stop : ∀ c ∈ ending.head?, c = 'e')
    (marks : ∀ c ∈ ending, Numeral.isMark c = true) (ends : Numeral.exponent? ending = some e)
    (same : ∀ negative, Binary64.ofDecimal negative
      ⟨Text.digitsValue (front ++ back), e - (back.length : Int)⟩ =
        Binary64.ofDecimal negative d) :
    Writes (front ++ ((if back.isEmpty then [] else '.' :: back) ++ ending)) d where
  first := by
    cases front with
    | cons c cs => exact ⟨c, _, rfl, .inl (before c (by simp))⟩
    | nil =>
        have behindPoint : back.isEmpty = false := by simpa using given
        exact ⟨'.', back ++ ending, by simp [behindPoint], .inr rfl⟩
  marks := by
    intro c member
    rcases List.mem_append.mp member with inside | later
    · exact Numeral.isMark_of_digit (before c inside)
    · rcases List.mem_append.mp later with inside | last
      · cases back with
        | nil => simp at inside
        | cons b bs =>
            rcases List.mem_cons.mp inside with rfl | digit
            · decide
            · exact Numeral.isMark_of_digit (behind c digit)
      · exact marks c last
  value := ⟨_, Numeral.decimal?_of_parts given before behind stop ends, same⟩

theorem writes_of_digits {front back : List Char} (given : front ≠ [] ∨ back ≠ [])
    (before : ∀ c ∈ front, Text.isDigit c = true) (behind : ∀ c ∈ back, Text.isDigit c = true) :
    Writes (front ++ (if back.isEmpty then [] else '.' :: back))
      ⟨Text.digitsValue (front ++ back), -(back.length : Int)⟩ := by
  have written : Writes (front ++ ((if back.isEmpty then [] else '.' :: back) ++ []))
      ⟨Text.digitsValue (front ++ back), -(back.length : Int)⟩ :=
    writes_of_parts given before behind (by simp) (by simp) rfl fun negative => by
      rw [Int.zero_sub]
  rwa [List.append_nil] at written

variable {digits : List Char}

theorem positional_writes (given : digits ≠ []) (all : ∀ c ∈ digits, Text.isDigit c = true)
    (leading : Int) : Writes (positional digits leading) (ofDigits digits leading) := by
  have zero : Text.isDigit '0' = true := by decide
  have zeros (count : Nat) : ∀ c ∈ List.replicate count '0', Text.isDigit c = true := by
    intro c member
    rw [List.eq_of_mem_replicate member]
    exact zero
  have nothing : ∀ c ∈ ([] : List Char).head?, c = 'e' := by simp
  by_cases small : leading < 0
  · let back := List.replicate (leading.natAbs - 1) '0' ++ digits
    have filled : back.isEmpty = false := by simp [back, given]
    have shape : positional digits leading =
        ['0'] ++ ((if back.isEmpty then [] else '.' :: back) ++ []) := by
      rw [positional, if_pos small, filled, List.append_nil]
      rfl
    rw [shape]
    refine writes_of_parts (by simp) (by simp [zero]) ?_ nothing (by simp) rfl ?_
    · intro c member
      rcases List.mem_append.mp member with padding | digit
      · exact zeros _ c padding
      · exact all c digit
    · intro negative
      have value : Text.digitsValue (['0'] ++ back) = Text.digitsValue digits := by
        have front : ['0'] ++ back = List.replicate (leading.natAbs - 1 + 1) '0' ++ digits := rfl
        rw [front, Text.digitsValue_append, Text.digitsValue_zeros, Nat.zero_mul, Nat.zero_add]
      have place : (0 : Int) - (back.length : Int) = leading + 1 - (digits.length : Int) := by
        simp only [back, List.length_append, List.length_replicate]
        omega
      rw [value, place, ofDigits]
  · by_cases short : digits.length ≤ leading.natAbs + 1
    · have shape : positional digits leading =
          (digits ++ List.replicate (leading.natAbs + 1 - digits.length) '0') ++
            ((if ['0'].isEmpty then [] else '.' :: ['0']) ++ []) := by
        rw [positional, if_neg small]
        simp only [List.take_of_length_le short, List.drop_of_length_le short]
        rfl
      rw [shape]
      refine writes_of_parts (by simp [given]) ?_ (by simp [zero]) nothing (by simp) rfl ?_
      · intro c member
        rcases List.mem_append.mp member with digit | padding
        · exact all c digit
        · exact zeros _ c padding
      · intro negative
        generalize count : leading.natAbs + 1 - digits.length = k
        have value : Text.digitsValue (digits ++ List.replicate k '0' ++ ['0']) =
            Text.digitsValue digits * Nat.pow 10 (k + 1) := by
          have back : List.replicate k '0' ++ ['0'] = List.replicate (k + 1) '0' :=
            List.replicate_succ'.symm
          rw [List.append_assoc, back, Text.digitsValue_append, Text.digitsValue_zeros,
            List.length_replicate, Nat.add_zero]
        have place : (0 : Int) - (['0'].length : Int) + ((k + 1 : Nat) : Int) =
            leading + 1 - (digits.length : Int) := by
          rw [List.length_singleton]
          omega
        rw [value, Binary64.ofDecimal_shift, place, ofDigits]
    · let back := digits.drop (leading.natAbs + 1)
      have filled : back.isEmpty = false := by
        simp only [back, List.isEmpty_eq_false_iff, ne_eq, List.drop_eq_nil_iff]
        exact short
      have length : (digits.take (leading.natAbs + 1)).length = leading.natAbs + 1 := by
        rw [List.length_take]
        omega
      have shape : positional digits leading =
          digits.take (leading.natAbs + 1) ++
            ((if back.isEmpty then [] else '.' :: back) ++ []) := by
        rw [positional, if_neg small]
        simp only [length, Nat.sub_self, List.replicate_zero, List.append_nil, back] at filled ⊢
        simp only [filled]
        rfl
      rw [shape]
      refine writes_of_parts ?_ ?_ ?_ nothing (by simp) rfl ?_
      · exact .inr (by simpa using filled)
      · exact fun c member => all c (List.mem_of_mem_take member)
      · exact fun c member => all c (List.mem_of_mem_drop member)
      · intro negative
        have place : (0 : Int) - (back.length : Int) = leading + 1 - (digits.length : Int) := by
          simp only [back, List.length_drop]
          omega
        rw [List.take_append_drop, place, ofDigits]

theorem scientific_writes (layout : Layout) (given : digits ≠ [])
    (all : ∀ c ∈ digits, Text.isDigit c = true) (leading : Int) :
    Writes (scientific layout digits leading) (ofDigits digits leading) := by
  let padding := List.replicate (layout.exponentWidth - width leading.natAbs) '0'
  let places := padding ++ Nat.toDigits 10 leading.natAbs
  have padded : (padZeros layout.exponentWidth (toString leading.natAbs)).toList = places := by
    rw [toList_padZeros, Nat.toString_eq_ofList_toDigits, String.toList_ofList]
    rfl
  have digit : ∀ c ∈ places, Text.isDigit c = true := by
    intro c member
    rcases List.mem_append.mp member with zero | number
    · rw [List.eq_of_mem_replicate zero]
      decide
    · exact Text.isDigit_of_mem_toDigits number
  have exponent : Numeral.exponent? ('e' :: (if leading < 0 then '-' else '+') :: places) =
      some leading := by
    have read := Numeral.exponent?_of_digits (decide (leading < 0)) (by simp [places]) digit
    have value : Text.digitsValue places = leading.natAbs := by
      rw [Text.digitsValue_append, Text.digitsValue_zeros, Nat.zero_mul, Nat.zero_add,
        Text.digitsValue_toDigits]
    have sign : Binary64.signed (decide (leading < 0)) leading.natAbs = leading := by
      by_cases negative : leading < 0
      · simp only [Binary64.signed, negative, decide_true, if_true]
        omega
      · simp only [Binary64.signed, negative, decide_false, Bool.false_eq_true, if_false]
        omega
    rw [value, sign] at read
    simpa using read
  have shape : scientific layout digits leading =
      digits.take 1 ++ ((if (digits.drop 1).isEmpty then [] else '.' :: digits.drop 1) ++
        'e' :: (if leading < 0 then '-' else '+') :: places) := by
    simp only [scientific, padded, List.append_assoc]
  rw [shape]
  refine writes_of_parts (.inl (by simpa using given)) ?_ ?_ (by simp) ?_ exponent ?_
  · exact fun c member => all c (List.mem_of_mem_take member)
  · exact fun c member => all c (List.mem_of_mem_drop member)
  · intro c member
    rcases List.mem_cons.mp member with rfl | later
    · decide
    · rcases List.mem_cons.mp later with rfl | number
      · split <;> decide
      · exact Numeral.isMark_of_digit (digit c number)
  · intro negative
    have filled : 0 < digits.length := List.length_pos_iff.mpr given
    have place : leading - ((digits.drop 1).length : Int) =
        leading + 1 - (digits.length : Int) := by
      rw [List.length_drop]
      omega
    rw [List.take_append_drop, place, ofDigits]

theorem text_real? {d : Decimal} (layout : Layout) (given : d.digits ≠ 0) (negative : Bool) :
    Numeral.real? (Binary64.sign negative ++ d.text layout) =
      .ok (Binary64.ofDecimal negative d) := by
  have some := significant_ne_nil given
  have all : ∀ c ∈ d.significant, Text.isDigit c = true := fun c => digit_of_mem_significant
  rw [text, ← ofDecimal_significant]
  split
  · exact (positional_writes some all d.leading).real? negative
  · exact (scientific_writes layout some all d.leading).real? negative

end Decimal

namespace Binary64

theorem ofDecimal_of_zero (negative : Bool) (exponent : Int) :
    ofDecimal negative ⟨0, exponent⟩ = zero negative := by
  simp only [ofDecimal, if_true]

theorem real?_zero (negative : Bool) :
    Numeral.real? (sign negative ++ "0.0") = .ok (zero negative) := by
  have zero : ∀ c ∈ ['0'], Text.isDigit c = true := by simp [Text.isDigit_of_plain]
  have value : Text.digitsValue (['0'] ++ ['0']) = 0 := Text.digitsValue_zeros 2
  have written := Decimal.writes_of_digits (.inl (List.cons_ne_nil '0' [])) zero zero
  have read := written.real? negative
  rw [value, ofDecimal_of_zero] at read
  exact read

/-- A double that is written is read again, also one that is no finite number. -/
theorem real?_text {x : Binary64} (held : x.Representable) : Numeral.real? x.text = .ok x := by
  cases held with
  | nan => decide +kernel
  | infinity negative => cases negative <;> decide +kernel
  | @finite negative steps small bits =>
      by_cases none : steps = 0
      · simp only [text, none, if_true]
        exact real?_zero negative
      · simp only [text, none, if_false]
        rw [Decimal.text_real? _ (shortest_digits_ne_zero none bits),
          ofDecimal_shortest none small bits]

theorem wholeText_eq_sign (n : Int) :
    wholeText n = sign (decide (n < 0)) ++ String.ofList (Nat.toDigits 10 n.natAbs) := by
  rw [← Nat.toString_eq_ofList_toDigits]
  by_cases negative : n < 0
  · simp [wholeText, sign, negative]
  · simp [wholeText, sign, negative]

theorem real?_wholeText (n : Int) : Numeral.real? (wholeText n) = .ok (ofInt n) := by
  have all : ∀ c ∈ Nat.toDigits 10 n.natAbs, Text.isDigit c = true := fun c =>
    Text.isDigit_of_mem_toDigits
  have written : Decimal.Writes (Nat.toDigits 10 n.natAbs) ⟨n.natAbs, 0⟩ := by
    have digits := @Decimal.writes_of_digits (Nat.toDigits 10 n.natAbs) [] (by simp) all (by simp)
    simpa [Text.digitsValue_toDigits] using digits
  rw [wholeText_eq_sign, written.real?, ofDecimal_eq, ofInt, ofQuotient, grid]
  simp

end Binary64

end ThrustBench
