import ThrustBench.Proofs.DecimalReadings
import ThrustBench.Proofs.RoutineTerminals
import ThrustBench.Routine.Program

/-!
The numbers of routines.  A number is a row of digits of any script, perhaps with a point among them
and a minus before them.  It denotes a rational number, and is built into the double that this
number rounds to; so the double is infinite exactly if the number is too large (`spelled_infinite_iff`).
-/

namespace ThrustBench.Routine

open Binary64 (Rounds overflow)

inductive Amounts : List Char → ℚ → Prop
  | whole {digits : List Char} (given : IsDigits digits) : Amounts digits (Text.digitsValue digits)
  | point {front back : List Char} (before : IsDigits front) (behind : IsDigits back) :
      Amounts (front ++ '.' :: back) (Text.digitsValue (front ++ back) / 10 ^ back.length)

inductive Denotes : List Char → ℚ → Prop
  | plain {text : List Char} {q : ℚ} : Amounts text q → Denotes text q
  | minus {text : List Char} {q : ℚ} : Amounts text q → Denotes ('-' :: text) (-q)

/-- A text denotes a number that no finite double is near to. -/
def Oversized (text : List Char) : Prop := ∃ q, Denotes text q ∧ overflow ≤ |q|

theorem IsUnsigned.amounts {text : List Char} (given : IsUnsigned text) : ∃ q, Amounts text q := by
  obtain ⟨whole, fraction, digits, rfl | ⟨back, behind, rfl⟩, rfl⟩ := given
  · rw [List.append_nil]
    exact ⟨_, .whole digits⟩
  · exact ⟨_, .point digits behind⟩

theorem IsNumber.denotes {text : List Char} (given : IsNumber text) : ∃ q, Denotes text q := by
  rcases given with plain | ⟨digits, plain, rfl⟩
  · obtain ⟨q, amounts⟩ := plain.amounts
    exact ⟨q, .plain amounts⟩
  · obtain ⟨q, amounts⟩ := plain.amounts
    exact ⟨-q, .minus amounts⟩

theorem spelled_of_ok {text : List Char} {x : Binary64}
    (read : Numeral.real? (String.ofList text) = .ok x) : spelled text = x := by
  rw [spelled, read]
  rfl

theorem Amounts.rounds {sign text : List Char} {q : ℚ} (amounts : Amounts text q)
    (sort : sign = [] ∨ sign = ['-']) :
    Rounds (decide (sign = ['-'])) (if sign = ['-'] then -q else q) (spelled (sign ++ text)) := by
  have signs : sign = [] ∨ sign = ['-'] ∨ sign = ['+'] := by tauto
  -- digits with none behind the point, or with some
  obtain ⟨front, back, given, before, behind, rfl, rfl⟩ : ∃ front back : List Char, front ≠ [] ∧
      (∀ c ∈ front, Text.isDigit c = true) ∧ (∀ c ∈ back, Text.isDigit c = true) ∧
      text = front ++ (if back.isEmpty then [] else '.' :: back) ∧
      q = Text.digitsValue (front ++ back) / 10 ^ back.length := by
    cases amounts with
    | whole given => exact ⟨text, [], given.1, given.2, by simp, by simp, by simp⟩
    | @point front back before behind =>
        exact ⟨front, back, before.1, before.2, behind.2, by simp [behind.1], rfl⟩
  have written := Decimal.writes_of_digits (.inl given) before behind
  rw [spelled_of_ok (written.real?_signed signs)]
  have rounds := Binary64.ofDecimal_rounds (decide (sign = ['-']))
    (Text.digitsValue (front ++ back)) back.length
  rcases sort with rfl | rfl
  · simpa [Binary64.signed] using rounds
  · simpa [Binary64.signed, neg_div] using rounds

theorem Denotes.rounds {text : List Char} {q : ℚ} (denotes : Denotes text q) :
    ∃ negative, Rounds negative q (spelled text) := by
  cases denotes with
  | plain amounts => exact ⟨false, by simpa using amounts.rounds (.inl rfl)⟩
  | minus amounts => exact ⟨true, by simpa using amounts.rounds (.inr rfl)⟩

theorem spelled_infinite_iff {text : List Char} (number : IsNumber text) :
    (spelled text).isInfinite = true ↔ Oversized text := by
  constructor
  · intro infinite
    obtain ⟨q, denotes⟩ := number.denotes
    obtain ⟨negative, rounds⟩ := denotes.rounds
    generalize spelled text = x at infinite rounds
    cases rounds with
    | finite => simp [Binary64.isInfinite] at infinite
    | infinity outside => exact ⟨q, denotes, outside⟩
  · rintro ⟨q, denotes, outside⟩
    obtain ⟨negative, rounds⟩ := denotes.rounds
    generalize spelled text = x at rounds
    cases rounds with
    | finite held inside => exact absurd outside (not_le.mpr inside)
    | infinity => rfl

theorem spelled_ne_nan {text : List Char} (number : IsNumber text) : spelled text ≠ .nan := by
  obtain ⟨q, denotes⟩ := number.denotes
  obtain ⟨negative, rounds⟩ := denotes.rounds
  intro none
  rw [none] at rounds
  cases rounds

end ThrustBench.Routine
