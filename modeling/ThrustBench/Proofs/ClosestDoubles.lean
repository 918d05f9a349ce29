import Mathlib.Algebra.Order.Field.Basic
import Mathlib.Data.Rat.Cast.Order
import Mathlib.Tactic.FieldSimp
import Mathlib.Tactic.Linarith
import Mathlib.Tactic.NormNum
import ThrustBench.Proofs.NearestDoubles

/-!
What it means to be the double nearest to a number.  No double is closer to the number, of two that
are equally close the one with an even significand is taken, and from half a unit above the largest
double on the result is infinite.  There is one such double (`Rounds.unique`), and `ofSteps` gives
it (`rounds_iff`).
-/

namespace ThrustBench.Binary64

def significand (steps : Nat) : Nat := steps / Nat.pow 2 (excess steps)

/-- How far a whole number is from a quotient, in parts of the denominator. -/
def gap (num den : Nat) (k : Int) : Nat := ((num : Int) - k * den).natAbs

section Quotients

variable {num den : Nat}

theorem lt_mul_of_lt {a b : Int} (den : Nat) (less : a < b) : a * den + den ≤ b * den := by
  have next : (a + 1) * den ≤ b * den := Int.mul_le_mul_of_nonneg_right (by omega) (by omega)
  rwa [Int.add_mul, Int.one_mul] at next

theorem gap_le_gap_iff (positive : 0 < den) {a b : Nat} (less : a < b) :
    (gap num den a ≤ gap num den b ↔ 2 * num ≤ (a + b) * den) ∧
      (gap num den b ≤ gap num den a ↔ (a + b) * den ≤ 2 * num) := by
  have apart : (a * den : Int) < b * den := by
    exact_mod_cast Nat.mul_lt_mul_of_pos_right less positive
  have middle : (((a + b) * den : Nat) : Int) = a * den + b * den := by
    push_cast
    exact Int.add_mul _ _ _
  unfold gap
  omega

theorem roundDiv_closest (positive : 0 < den) (k : Int) :
    gap num den (roundDiv num den) ≤ gap num den k := by
  obtain ⟨low, high⟩ := roundDiv_close num positive
  have size : ((roundDiv num den * den : Nat) : Int) = roundDiv num den * den := by push_cast; rfl
  unfold gap
  rcases Int.lt_trichotomy k (roundDiv num den) with below | same | above
  · have step := lt_mul_of_lt den below
    omega
  · rw [same]
  · have step := lt_mul_of_lt den above
    omega

theorem roundDiv_even (positive : 0 < den) {k : Int} (other : k ≠ roundDiv num den)
    (tie : gap num den (roundDiv num den) = gap num den k) : roundDiv num den % 2 = 0 := by
  obtain ⟨low, high⟩ := roundDiv_close num positive
  have size : ((roundDiv num den * den : Nat) : Int) = roundDiv num den * den := by push_cast; rfl
  have half : 2 * num = 2 * (roundDiv num den * den) + den ∨
      2 * num + den = 2 * (roundDiv num den * den) := by
    unfold gap at tie
    rcases Int.lt_or_gt_of_ne other with below | above
    · have step := lt_mul_of_lt den below
      omega
    · have step := lt_mul_of_lt den above
      omega
  have split : den * (num / den) + num % den = num := Nat.div_add_mod num den
  have small : num % den < den := Nat.mod_lt num positive
  clear low high size tie other
  unfold roundDiv at half ⊢
  generalize num / den = quotient at split half ⊢
  generalize num % den = remainder at split small half ⊢
  subst split
  simp only at half ⊢
  split
  · rename_i below
    rw [if_pos below, Nat.mul_comm quotient den] at half
    omega
  · split
    · rename_i notBelow above
      rw [if_neg notBelow, if_pos above, Nat.add_mul, Nat.mul_comm quotient den] at half
      omega
    · omega

theorem roundDiv_half (positive : 0 < den) (half : 2 * gap num den (roundDiv num den) = den) :
    roundDiv num den % 2 = 0 := by
  rcases le_total ((roundDiv num den : Int) * den) num with below | above
  · refine roundDiv_even positive (k := roundDiv num den + 1) (by omega) ?_
    unfold gap at half ⊢
    rw [Int.add_mul, Int.one_mul]
    omega
  · refine roundDiv_even positive (k := roundDiv num den - 1) (by omega) ?_
    unfold gap at half ⊢
    rw [Int.sub_mul, Int.one_mul]
    omega

theorem abs_sub_whole (positive : 0 < den) (k : Nat) :
    |(num : ℚ) / den - k| = gap num den k / den := by
  have parts : (0 : ℚ) < den := Nat.cast_pos.mpr positive
  have difference : (num : ℚ) / den - k = ((num - k * den : Int) : ℚ) / den := by
    push_cast
    rw [sub_div, mul_div_cancel_right₀ _ parts.ne']
  rw [difference, abs_div, abs_of_pos parts, gap, Nat.cast_natAbs, Int.cast_abs]

theorem roundDiv_nearest (num : Nat) (positive : 0 < den) :
    |(num : ℚ) / den - roundDiv num den| ≤ 1 / 2 ∧
      (|(num : ℚ) / den - roundDiv num den| = 1 / 2 → Even (roundDiv num den)) := by
  have parts : (0 : ℚ) < den := Nat.cast_pos.mpr positive
  have within : 2 * gap num den (roundDiv num den) ≤ den := by
    have close := roundDiv_close num positive
    unfold gap
    rw [← Int.natCast_mul]
    omega
  rw [abs_sub_whole positive, div_le_div_iff₀ parts two_pos, div_eq_div_iff parts.ne' two_ne_zero,
    one_mul, mul_comm, Nat.even_iff]
  exact ⟨by exact_mod_cast within, fun half => roundDiv_half positive (by exact_mod_cast half)⟩

end Quotients

section Doubles

variable {num den : Nat}

theorem nearest_eq (num den : Nat) :
    nearest num den = roundDiv num (den * Nat.pow 2 (excess (num / den))) *
      Nat.pow 2 (excess (num / den)) := rfl

theorem significand_nearest (num den : Nat) :
    significand (nearest num den) = roundDiv num (den * Nat.pow 2 (excess (num / den))) ∨
      significand (nearest num den) = Nat.pow 2 52 := by
  have grown := roundDiv_grain_le num den
  have filled := @le_roundDiv_grain num den
  unfold significand
  rw [nearest_eq]
  generalize roundDiv num (den * Nat.pow 2 (excess (num / den))) = m at *
  generalize excess (num / den) = e at *
  have grain : 0 < Nat.pow 2 e := Nat.pow_pos (by decide)
  by_cases carried : m = Nat.pow 2 53
  · right
    rw [carried, excess_carried, carried_eq]
    exact Nat.mul_div_cancel _ (Nat.pow_pos (by decide))
  · left
    have same : excess (m * Nat.pow 2 e) = e := by
      by_cases none : e = 0
      · subst none
        rw [show Nat.pow 2 0 = 1 from rfl, Nat.mul_one]
        exact excess_of_small (by omega)
      · exact excess_eq (Nat.mul_le_mul_right _ (filled none))
          (Nat.mul_lt_mul_of_pos_right (by omega) grain)
    rw [same]
    exact Nat.mul_div_cancel _ grain

theorem gap_grain (num den grain : Nat) (k : Int) :
    gap num (den * grain) k = gap num den (k * grain) := by
  unfold gap
  push_cast
  rw [Int.mul_assoc, Int.mul_comm (grain : Int) den]

theorem lt_of_excess_lt {m e : Nat} (less : excess m < e) : m < Nat.pow 2 52 * Nat.pow 2 e := by
  calc
    m < Nat.pow 2 53 * Nat.pow 2 (excess m) := lt_pow_excess m
    _ = Nat.pow 2 52 * Nat.pow 2 (excess m + 1) := carried_eq _
    _ ≤ Nat.pow 2 52 * Nat.pow 2 e :=
      Nat.mul_le_mul_left _ (Nat.pow_le_pow_right (by decide) less)

/-- A double that is no multiple of the grain lies below the quotient, and a multiple of the grain
lies between. -/
theorem below_of_not_dvd (positive : 0 < den) {m : Nat} (bits : Nat.pow 2 (excess m) ∣ m)
    (finer : ¬Nat.pow 2 (excess (num / den)) ∣ m) :
    gap num den (nearest num den) < gap num den m := by
  have less : excess m < excess (num / den) := by
    by_contra more
    exact finer ((Nat.pow_dvd_pow 2 (by omega)).trans bits)
  have least := (bounds_of_excess (by omega : excess (num / den) ≠ 0)).1
  have closest := @roundDiv_closest num (den * Nat.pow 2 (excess (num / den)))
    (Nat.mul_pos positive (Nat.pow_pos (by decide))) (Nat.pow 2 52 : Nat)
  rw [gap_grain, gap_grain, ← Int.natCast_mul, ← Int.natCast_mul] at closest
  have small := lt_of_excess_lt less
  have first : m * den < Nat.pow 2 52 * Nat.pow 2 (excess (num / den)) * den :=
    Nat.mul_lt_mul_of_pos_right small positive
  have second : Nat.pow 2 52 * Nat.pow 2 (excess (num / den)) * den ≤ num :=
    (Nat.le_div_iff_mul_le positive).mp least
  refine lt_of_le_of_lt closest ?_
  unfold gap
  generalize Nat.pow 2 52 * Nat.pow 2 (excess (num / den)) = middle at *
  have small' : (m * den : Int) < middle * den := by exact_mod_cast first
  have large : (middle * den : Int) ≤ num := by exact_mod_cast second
  omega

theorem nearest_closest (num : Nat) (positive : 0 < den) {m : Nat}
    (bits : Nat.pow 2 (excess m) ∣ m) :
    gap num den (nearest num den) ≤ gap num den m ∧
      (m ≠ nearest num den → gap num den (nearest num den) = gap num den m →
        significand (nearest num den) % 2 = 0) := by
  by_cases coarse : Nat.pow 2 (excess (num / den)) ∣ m
  · obtain ⟨k, rfl⟩ := coarse
    have scaled : 0 < den * Nat.pow 2 (excess (num / den)) :=
      Nat.mul_pos positive (Nat.pow_pos (by decide))
    have closest := @roundDiv_closest num _ scaled k
    have even := @roundDiv_even num _ scaled k
    rw [gap_grain, gap_grain] at closest even
    rw [nearest_eq, Nat.mul_comm _ k]
    refine ⟨by exact_mod_cast closest, fun other tie => ?_⟩
    rcases significand_nearest num den with same | carried
    · rw [nearest_eq] at same
      rw [same]
      exact even (fun eq => other (by rw [← Int.natCast_inj.mp eq])) (by exact_mod_cast tie)
    · rw [nearest_eq] at carried
      rw [carried]
  · have further := below_of_not_dvd positive bits coarse
    exact ⟨further.le, fun _ tie => absurd tie further.ne⟩

theorem nearest_closest_signed (num : Nat) (positive : 0 < den) {k : Int}
    (bits : Nat.pow 2 (excess k.natAbs) ∣ k.natAbs) :
    gap num den (nearest num den) ≤ gap num den k ∧
      (k ≠ nearest num den → gap num den (nearest num den) = gap num den k →
        significand (nearest num den) % 2 = 0) := by
  rcases Int.natAbs_eq k with same | opposite
  · rw [same]
    obtain ⟨closest, even⟩ := nearest_closest num positive bits
    exact ⟨closest, fun other => even (fun eq => other (by rw [eq]))⟩
  · by_cases none : k = 0
    · subst none
      obtain ⟨closest, even⟩ := nearest_closest num positive bits
      exact ⟨closest, fun other => even (fun eq => other (by simp [← eq]))⟩
    · -- zero is closer than anything below it
      have origin := (nearest_closest num positive (dvd_zero (Nat.pow 2 (excess 0)))).1
      have further : gap num den ((0 : Nat) : Int) < gap num den k := by
        have size : (0 : Int) < k.natAbs * den := Int.mul_pos (by omega) (by omega)
        have product : k * den = -(k.natAbs * den) := by
          conv_lhs => rw [opposite, Int.neg_mul]
        unfold gap
        rw [product]
        omega
      exact ⟨by omega, fun _ tie => by omega⟩

theorem le_of_bits {m e : Nat} (bits : Nat.pow 2 (excess m) ∣ m)
    (small : m < Nat.pow 2 53 * Nat.pow 2 e) : m ≤ (Nat.pow 2 53 - 1) * Nat.pow 2 e := by
  rcases Nat.lt_or_ge (excess m) e with finer | coarser
  · exact (lt_of_excess_lt finer).le.trans (Nat.mul_le_mul_right _ (by decide))
  · obtain ⟨k, rfl⟩ := (Nat.pow_dvd_pow 2 coarser).trans bits
    have room : k < Nat.pow 2 53 := by
      rw [Nat.mul_comm] at small
      exact Nat.lt_of_mul_lt_mul_right small
    rw [Nat.mul_comm]
    exact Nat.mul_le_mul_right _ (by omega)

theorem next_double {m : Nat} (bits : Nat.pow 2 (excess m) ∣ m) :
    Nat.pow 2 (excess (m + Nat.pow 2 (excess m))) ∣ m + Nat.pow 2 (excess m) ∧
      ¬(significand m % 2 = 0 ∧ significand (m + Nat.pow 2 (excess m)) % 2 = 0) := by
  have least := @bounds_of_excess m
  have most := lt_pow_excess m
  have grain : 0 < Nat.pow 2 (excess m) := Nat.pow_pos (by decide)
  obtain ⟨k, multiple⟩ := bits
  unfold significand
  generalize excess m = e at *
  rw [multiple, Nat.mul_comm (Nat.pow 2 e)] at least most ⊢
  have room : k < Nat.pow 2 53 := Nat.lt_of_mul_lt_mul_right most
  rw [← Nat.succ_mul, Nat.mul_div_cancel _ grain]
  by_cases last : k + 1 = Nat.pow 2 53
  · rw [Nat.succ_eq_add_one, last, excess_carried, carried_eq]
    refine ⟨Nat.dvd_mul_left _ _, fun even => ?_⟩
    have odd : Nat.pow 2 53 % 2 = 0 := by decide
    omega
  · have same : excess (k.succ * Nat.pow 2 e) = e := by
      by_cases none : e = 0
      · subst none
        rw [show Nat.pow 2 0 = 1 from rfl, Nat.mul_one]
        exact excess_of_small (by omega)
      · exact excess_eq ((least none).1.trans (Nat.mul_le_mul_right _ (Nat.le_succ k)))
          (Nat.mul_lt_mul_of_pos_right (by omega) grain)
    rw [same, Nat.mul_div_cancel _ grain]
    exact ⟨Nat.dvd_mul_left _ _, by omega⟩

theorem next_le {m n : Nat} (bits : Nat.pow 2 (excess m) ∣ m) (bitsToo : Nat.pow 2 (excess n) ∣ n)
    (less : m < n) : m + Nat.pow 2 (excess m) ≤ n := by
  have coarse : Nat.pow 2 (excess m) ∣ n :=
    (Nat.pow_dvd_pow 2 (excess_mono less.le)).trans bitsToo
  have step := Nat.le_of_dvd (by omega) (Nat.dvd_sub coarse bits)
  omega

theorem excess_top (e : Nat) : excess ((Nat.pow 2 53 - 1) * Nat.pow 2 e) = e := by
  have grain : 0 < Nat.pow 2 e := Nat.pow_pos (by decide)
  exact excess_eq (Nat.mul_le_mul_right _ (by decide))
    (Nat.mul_lt_mul_of_pos_right (by decide) grain)

theorem significand_top (e : Nat) :
    significand ((Nat.pow 2 53 - 1) * Nat.pow 2 e) = Nat.pow 2 53 - 1 := by
  rw [significand, excess_top]
  exact Nat.mul_div_cancel _ (Nat.pow_pos (by decide))

theorem carried_le_nearest_iff (num : Nat) (positive : 0 < den) (e : Nat) :
    Nat.pow 2 53 * Nat.pow 2 e ≤ nearest num den ↔
      (Nat.pow 2 54 - 1) * Nat.pow 2 e * den ≤ 2 * num := by
  obtain ⟨below, -⟩ := nearest_closest num positive (m := (Nat.pow 2 53 - 1) * Nat.pow 2 e)
    (by rw [excess_top]; exact Nat.dvd_mul_left _ _)
  obtain ⟨above, even⟩ := nearest_closest num positive (m := Nat.pow 2 53 * Nat.pow 2 e)
    (by rw [excess_carried, carried_eq]; exact Nat.dvd_mul_left _ _)
  have middle : (Nat.pow 2 54 - 1) * Nat.pow 2 e =
      (Nat.pow 2 53 - 1) * Nat.pow 2 e + Nat.pow 2 53 * Nat.pow 2 e := by
    rw [← Nat.add_mul]
  have apart : (Nat.pow 2 53 - 1) * Nat.pow 2 e < Nat.pow 2 53 * Nat.pow 2 e :=
    Nat.mul_lt_mul_of_pos_right (by decide) (Nat.pow_pos (by decide))
  have odd := significand_top e
  have highest := @le_of_bits _ e (@nearest_dvd num den)
  rw [middle]
  generalize (Nat.pow 2 53 - 1) * Nat.pow 2 e = top at *
  generalize Nat.pow 2 53 * Nat.pow 2 e = next at *
  constructor
  · intro reached
    exact (Nat.mul_le_mul_right den (Nat.add_le_add_left reached top)).trans
      ((gap_le_gap_iff positive (apart.trans_le reached)).2.mp below)
  · intro large
    by_contra short
    have bounded := highest (by omega)
    -- the number is the middle of the two, and the lower one has an odd significand
    have small := (gap_le_gap_iff positive (by omega)).1.mp above
    have same : nearest num den = top := by
      have sums := Nat.le_of_mul_le_mul_right (large.trans small) positive
      omega
    rw [same] at above even
    have tie := (gap_le_gap_iff positive apart).2.mpr large
    have parity := even (by omega) (Nat.le_antisymm above tie)
    rw [odd] at parity
    exact absurd parity (by decide)

end Doubles

section Numbers

def amount (negative : Bool) (steps : Nat) : ℚ := signed negative steps / unit

theorem amount_eq (steps : Nat) : amount false steps = steps / unit := by
  rw [amount, Binary64.signed, if_neg Bool.false_ne_true, Int.cast_natCast]

/-- Half a unit of the last place above the largest double, where the infinite begins. -/
def overflow : ℚ := 2 ^ 1024 - 2 ^ 970

/-- A number with a sign is rounded to a double: to one that no other double is closer than, of two
such ones to the one with an even significand, and to an infinity if it is too large. -/
inductive Rounds (negative : Bool) (q : ℚ) : Binary64 → Prop
  | finite {steps : Nat} (held : (finite negative steps).Representable) (inside : |q| < overflow)
      (closest : ∀ sign other, (Binary64.finite sign other).Representable →
        |q - amount negative steps| ≤ |q - amount sign other|)
      (even : ∀ sign other, (Binary64.finite sign other).Representable →
        amount sign other ≠ amount negative steps →
        |q - amount negative steps| = |q - amount sign other| → significand steps % 2 = 0) :
      Rounds negative q (finite negative steps)
  | infinity (outside : overflow ≤ |q|) : Rounds negative q (infinity negative)

variable {num den : Nat}

theorem parts_pos (positive : 0 < den) : (0 : ℚ) < den * unit :=
  mul_pos (Nat.cast_pos.mpr positive) (Nat.cast_pos.mpr unit_pos)

theorem signed_mul_self (negative : Bool) (k : Nat) :
    signed negative 1 * signed negative k = k := by
  cases negative <;> simp [signed]

theorem natAbs_signed_mul (negative sign : Bool) (k : Nat) :
    (signed negative 1 * signed sign k).natAbs = k := by
  cases negative <;> cases sign <;> simp [signed]

theorem signed_eq_of_mul {negative sign : Bool} {k m : Nat}
    (same : signed negative 1 * signed sign k = m) : signed sign k = signed negative m := by
  generalize signed sign k = x at same ⊢
  cases negative <;> simp [signed] at same ⊢ <;> omega

theorem abs_sub_steps (positive : 0 < den) (negative : Bool) (num : Nat) (k : Int) :
    |(signed negative num : ℚ) / (den * unit) - k / unit| =
      gap num den (signed negative 1 * k) / (den * unit) := by
  have parts := parts_pos positive
  have step : (unit : ℚ) ≠ 0 := Nat.cast_ne_zero.mpr unit_pos.ne'
  have difference : (signed negative num : ℚ) / (den * unit) - k / unit =
      ((signed negative num - k * den : Int) : ℚ) / (den * unit) := by
    have given : (den : ℚ) ≠ 0 := Nat.cast_ne_zero.mpr positive.ne'
    field_simp
    push_cast
    ring
  have size : (signed negative num - k * den).natAbs = gap num den (signed negative 1 * k) := by
    unfold gap
    cases negative
    · simp [signed]
    · simp only [signed, if_true, Nat.cast_one, Int.neg_mul, Int.one_mul]
      omega
  rw [difference, abs_div, abs_of_pos parts, ← size, Nat.cast_natAbs, Int.cast_abs]

theorem cast_pow (e : Nat) : ((Nat.pow 2 e : Nat) : ℚ) = 2 ^ e := Nat.cast_pow 2 e

theorem half_grain_below (a b : Nat) :
    ((2 : ℚ) ^ (a + 54) - 2 ^ a) * (Nat.pow 2 b : Nat) =
      ((Nat.pow 2 54 - 1) * Nat.pow 2 (a + b + 1) : Nat) / 2 := by
  have lead : ((Nat.pow 2 54 - 1 : Nat) : ℚ) = 2 ^ 54 - 1 := by
    rw [show Nat.pow 2 54 - 1 = 18014398509481983 from rfl]
    norm_num
  rw [Nat.cast_mul, lead, cast_pow, cast_pow]
  ring

theorem exists_limit_eq : ∃ e, limit = Nat.pow 2 53 * Nat.pow 2 e ∧
    overflow * unit = ((Nat.pow 2 54 - 1) * Nat.pow 2 e : Nat) / 2 := by
  have total : 2098 = 53 + 2045 := rfl
  have upper : 1024 = 970 + 54 := rfl
  have lower : 2045 = 970 + 1074 + 1 := rfl
  refine ⟨2045, ?_⟩
  unfold limit overflow unit
  -- the powers themselves are too large to be computed here
  generalize 2098 = whole, 2045 = e, 1024 = high, 970 = low, 1074 = small at total upper lower ⊢
  subst total lower upper
  exact ⟨Nat.pow_add 2 53 _, half_grain_below low small⟩

theorem overflow_le_iff (positive : 0 < den) (negative : Bool) (num : Nat) :
    overflow ≤ |(signed negative num : ℚ) / (den * unit)| ↔ limit ≤ nearest num den := by
  have size : |(signed negative num : ℚ)| = num := by
    cases negative <;> simp [signed]
  obtain ⟨e, carried, middle⟩ := exists_limit_eq
  rw [carried, carried_le_nearest_iff num positive, abs_div, size, abs_of_pos (parts_pos positive),
    le_div_iff₀ (parts_pos positive), mul_comm (den : ℚ), ← mul_assoc, middle,
    div_mul_eq_mul_div, div_le_iff₀ two_pos, mul_comm (num : ℚ)]
  exact_mod_cast Iff.rfl

theorem ofSteps_rounds (positive : 0 < den) (negative : Bool) (num : Nat) :
    Rounds negative (signed negative num / (den * unit)) (ofSteps negative num den) := by
  have held := ofSteps_representable negative num den
  have outside := overflow_le_iff positive negative num
  have distance := abs_sub_steps positive negative num
  by_cases small : nearest num den < limit
  · simp only [ofSteps, small, if_true] at held ⊢
    refine .finite held (not_le.mp fun large => absurd (outside.mp large) (by omega)) ?_ ?_
    · rintro sign other ⟨_, bits⟩
      rw [amount, amount, distance, distance, signed_mul_self,
        div_le_div_iff_of_pos_right (parts_pos positive), Nat.cast_le]
      refine (nearest_closest_signed num positive ?_).1
      rwa [natAbs_signed_mul]
    · rintro sign other ⟨_, bits⟩ different tie
      rw [amount, amount, distance, distance, signed_mul_self,
        div_left_inj' (parts_pos positive).ne', Nat.cast_inj] at tie
      refine (nearest_closest_signed num positive ?_).2 (fun same => different ?_) tie
      · rwa [natAbs_signed_mul]
      · rw [amount, amount, signed_eq_of_mul same]
  · simp only [ofSteps, small, if_false]
    exact .infinity (outside.mpr (by omega))

theorem amount_eq_mul (negative : Bool) (steps : Nat) :
    amount negative steps = signed negative 1 * (steps / unit) := by
  rw [amount, ← mul_div_assoc]
  congr 1
  cases negative <;> simp [signed]

theorem amount_ne (negative : Bool) {a b : Nat} (other : a ≠ b) :
    amount negative a ≠ amount negative b := by
  have sign : (signed negative 1 : ℚ) ≠ 0 := by cases negative <;> simp [signed]
  have step : (unit : ℚ) ≠ 0 := Nat.cast_ne_zero.mpr unit_pos.ne'
  rw [amount_eq_mul, amount_eq_mul]
  intro same
  exact other (Nat.cast_inj.mp ((div_left_inj' step).mp (mul_left_cancel₀ sign same)))

theorem abs_sub_amount (q : ℚ) (negative : Bool) (steps : Nat) :
    |q - amount negative steps| = |signed negative 1 * q - steps / unit| := by
  rw [amount_eq_mul]
  generalize (steps : ℚ) / unit = x
  cases negative with
  | false => simp [signed]
  | true =>
      rw [← abs_neg]
      congr 1
      simp only [signed, if_true]
      push_cast
      ring

theorem steps_lt {a b : Nat} (less : a < b) : (a : ℚ) / unit < b / unit :=
  div_lt_div_of_pos_right (Nat.cast_lt.mpr less) (Nat.cast_pos.mpr unit_pos)

theorem closer_between {p x y z : ℚ} (left : x < z) (right : z < y) (tie : |p - x| = |p - y|) :
    |p - z| < |p - x| := by
  rcases abs_eq_abs.mp tie with same | opposite
  · linarith
  · rw [abs_of_pos (a := p - x) (by linarith), abs_lt]
    constructor <;> linarith

variable {negative : Bool} {q : ℚ}

theorem Rounds.not_lt {a b : Nat} (first : Rounds negative q (.finite negative a))
    (second : Rounds negative q (.finite negative b)) : ¬a < b := by
  intro less
  obtain ⟨held, _, closest, even⟩ := first
  obtain ⟨heldToo, _, closestToo, evenToo⟩ := second
  have tie := le_antisymm (closest negative b heldToo) (closestToo negative a held)
  obtain ⟨_, bits⟩ := representable_finite_iff.mp held
  obtain ⟨small, bitsToo⟩ := representable_finite_iff.mp heldToo
  obtain ⟨nextBits, odd⟩ := next_double bits
  rcases Nat.lt_or_eq_of_le (next_le bits bitsToo less) with between | same
  · -- the next double lies between the two, and is closer to their middle
    have further := closest negative _ (.finite (between.trans small) nextBits)
    rw [abs_sub_amount, abs_sub_amount] at tie further
    have above : a < a + Nat.pow 2 (excess a) := Nat.lt_add_of_pos_right (Nat.pow_pos (by decide))
    exact absurd further (not_le.mpr (closer_between (steps_lt above) (steps_lt between) tie))
  · rw [same] at odd
    have apart := amount_ne negative less.ne
    exact odd ⟨even negative b heldToo apart.symm tie,
      evenToo negative a held apart tie.symm⟩

/-- There is one double that a number with a sign is rounded to. -/
theorem Rounds.unique {x y : Binary64} (first : Rounds negative q x)
    (second : Rounds negative q y) : x = y := by
  have firstToo := first
  have secondToo := second
  cases first with
  | infinity outside =>
      cases second with
      | infinity _ => rfl
      | finite _ inside => exact absurd outside (not_le.mpr inside)
  | finite _ inside =>
      cases second with
      | infinity outside => exact absurd outside (not_le.mpr inside)
      | finite _ _ =>
          have above := Rounds.not_lt firstToo secondToo
          have below := Rounds.not_lt secondToo firstToo
          congr 1
          omega

theorem rounds_iff (positive : 0 < den) (num : Nat) {x : Binary64} :
    Rounds negative (signed negative num / (den * unit)) x ↔ x = ofSteps negative num den := by
  have rounds := ofSteps_rounds positive negative num
  constructor
  · intro other
    exact other.unique rounds
  · intro same
    rw [same]
    exact rounds

theorem signed_mul (negative : Bool) (size scale : Nat) :
    signed negative (size * scale) = signed negative size * scale := by
  cases negative <;> simp [signed]

theorem quotient_rounds (positive : 0 < den) (negative : Bool) (k : Nat) :
    Rounds negative (signed negative k / den) (ofSteps negative (k * unit) den) := by
  have step : (unit : ℚ) ≠ 0 := Nat.cast_ne_zero.mpr unit_pos.ne'
  have rounds := ofSteps_rounds positive negative (k * unit)
  rwa [signed_mul, Int.cast_mul, Int.cast_natCast, mul_div_mul_right _ _ step] at rounds

end Numbers

end ThrustBench.Binary64
