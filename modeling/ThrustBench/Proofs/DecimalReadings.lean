import ThrustBench.Proofs.ClosestDoubles
import ThrustBench.Proofs.LastGroup

/-!
The decimal that is read from a line.  The body of the last group that spells a decimal denotes a
rational number, and the double that this number rounds to is what the line gives.
-/

namespace ThrustBench.Binary64

theorem ofDecimal_rounds (negative : Bool) (digits places : Nat) :
    Rounds negative (signed negative digits / 10 ^ places)
      (ofDecimal negative ⟨digits, -(places : Int)⟩) := by
  have scaled : ofDecimal negative ⟨digits, -(places : Int)⟩ =
      ofSteps negative (digits * unit) (Nat.pow 10 places) := by
    rw [ofDecimal_eq]
    by_cases none : places = 0
    · simp [none, grid]
    · have behind : -(places : Int) < 0 := by omega
      simp only [grid, behind, if_true, Int.natAbs_neg, Int.natAbs_natCast]
  have positive : 0 < Nat.pow 10 places := Nat.pow_pos (by decide)
  have parts : ((Nat.pow 10 places : Nat) : ℚ) = 10 ^ places := Nat.cast_pow 10 _
  rw [scaled, ← parts]
  exact quotient_rounds positive negative digits

end ThrustBench.Binary64

namespace ThrustBench.Reading

/-- The number that the digits of a body denote. -/
def RealBody.amount (body : RealBody) : ℚ :=
  Binary64.signed body.negative (decimal (body.front ++ body.back)) / 10 ^ body.back.length

theorem isDigit_of_isPlainDigit {d : Char} (digit : isPlainDigit d = true) : d.isDigit = true := by
  simp only [isPlainDigit, Bool.and_eq_true, decide_eq_true_eq] at digit
  simp only [Char.isDigit, Bool.and_eq_true, decide_eq_true_eq]
  exact digit

namespace SpellsReal

variable {body : List Char} {b : RealBody}

theorem plain (spelled : SpellsReal body b) : ∀ d ∈ b.front ++ b.back, d.isDigit = true := by
  intro d member
  cases spelled with
  | front sort given plain =>
      rw [List.append_nil] at member
      exact isDigit_of_isPlainDigit (plain d member)
  | point sort given plain => exact isDigit_of_isPlainDigit (plain d member)

theorem value_rounds (spelled : SpellsReal body b) :
    Binary64.Rounds b.negative b.amount b.value := by
  rw [RealBody.amount, RealBody.value, ← Text.digitsValue_eq_decimal _ spelled.plain]
  exact Binary64.ofDecimal_rounds b.negative _ b.back.length

theorem real?_eq (spelled : SpellsReal body b) :
    Numeral.real? (String.ofList body) = .ok b.value := by
  have digits := spelled.plain
  have front : ∀ d ∈ b.front, Text.isDigit d = true := fun d member =>
    Text.isDigit_of_plain (digits d (List.mem_append_left _ member))
  have back : ∀ d ∈ b.back, Text.isDigit d = true := fun d member =>
    Text.isDigit_of_plain (digits d (List.mem_append_right _ member))
  have written (given : b.front ≠ [] ∨ b.back ≠ []) := Decimal.writes_of_digits given front back
  cases spelled with
  | front sort given plain => simpa [RealBody.value] using (written (.inl given)).real?_signed sort
  | point sort given plain =>
      simpa [RealBody.value, given] using (written (.inr given)).real?_signed sort

end SpellsReal

/-- A line gives a decimal exactly if its first line has a group that spells one.  It is then the
double nearest to what the last such group spells, whatever other groups stand around that one, and
the conversion of the body never fails. -/
theorem real_rounds_last_group (line : String) :
    let first := firstLine line.toList
    ((real line).isSome = true ↔ HasGroup (Spelled SpellsReal) first) ∧
      (HasGroup (Spelled SpellsReal) first →
        ∃ before body after, LastGroup (Spelled SpellsReal) first before body after) ∧
      ∀ before body after b, LastGroup (Spelled SpellsReal) first before body after →
        SpellsReal body b →
        ∃ x, real line = some x ∧ Binary64.Rounds b.negative b.amount x ∧
          Numeral.real? (String.ofList body) = .ok x := by
  refine ⟨⟨?_, ?_⟩, exists_lastGroup, ?_⟩
  · intro read
    by_contra none
    simp [real_of_noGroup none] at read
  · intro has
    obtain ⟨before, body, after, group⟩ := exists_lastGroup has
    obtain ⟨b, spelled⟩ := group.fits
    rw [real_of_last group spelled]
    rfl
  · intro before body after b group spelled
    exact ⟨b.value, real_of_last group spelled, spelled.value_rounds, spelled.real?_eq⟩

theorem real_rounds_last_group_amongMalformed :
    LastGroup (Spelled SpellsReal) (firstLine "(7)(5.)x(-2.5)(1e3)(n)(٣)\n(8)".toList)
        "(7)(5.)x".toList ['-', '2', '.', '5'] "(1e3)(n)(٣)".toList ∧
      ∃ x, real "(7)(5.)x(-2.5)(1e3)(n)(٣)\n(8)" = some x ∧ Binary64.Rounds true (-5 / 2) x := by
  have two : isPlainDigit '2' = true := by decide
  have five : isPlainDigit '5' = true := by decide
  have spelled : SpellsReal ['-', '2', '.', '5'] ⟨true, ['2'], ['5']⟩ :=
    @SpellsReal.point ['-'] ['2'] ['5'] (.inr (.inl rfl)) (by simp) (by simp [two, five])
  have group : LastGroup (Spelled SpellsReal) (firstLine "(7)(5.)x(-2.5)(1e3)(n)(٣)\n(8)".toList)
      "(7)(5.)x".toList ['-', '2', '.', '5'] "(1e3)(n)(٣)".toList :=
    ⟨by decide, ⟨_, spelled⟩, (lastGroup?_eq_none_iff realBody?_takes).mp (by decide)⟩
  have amount : RealBody.amount ⟨true, ['2'], ['5']⟩ = -5 / 2 := by
    have digits : decimal (['2'] ++ ['5']) = 25 := by decide
    simp only [RealBody.amount, digits, Binary64.signed]
    norm_num
  obtain ⟨x, read, rounds, _⟩ := (real_rounds_last_group _).2.2 _ _ _ _ group spelled
  exact ⟨group, x, read, amount ▸ rounds⟩

end ThrustBench.Reading
