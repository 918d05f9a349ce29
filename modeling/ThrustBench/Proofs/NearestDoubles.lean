import Mathlib.Tactic.Ring
import ThrustBench.Decimal.Basic
import ThrustBench.Proofs.WholeDoubles

/-!
Rounding to doubles.  Whatever lies in the interval of a double rounds to that double, the result
depends on the quotient only, and every operation gives doubles.
-/

namespace ThrustBench.Binary64

theorem roundDiv_of_close {num den m : Nat} (positive : 0 < den)
    (low : 2 * (m * den) ≤ 2 * num + den) (high : 2 * num ≤ 2 * (m * den) + den)
    (odd : m % 2 = 1 → 2 * (m * den) < 2 * num + den ∧ 2 * num < 2 * (m * den) + den) :
    roundDiv num den = m := by
  have split : den * (num / den) + num % den = num := Nat.div_add_mod num den
  have small : num % den < den := Nat.mod_lt num positive
  unfold roundDiv
  generalize num / den = quotient at split ⊢
  generalize num % den = remainder at split small ⊢
  subst split
  -- the quotient is the number itself, or the one below it
  have notAbove : quotient ≤ m := by
    by_contra above
    have more : (m + 1) * den ≤ quotient * den := Nat.mul_le_mul_right den (by omega)
    rw [Nat.add_mul, Nat.mul_comm quotient den] at more
    omega
  have notBelow : m ≤ quotient + 1 := by
    by_contra below
    have more : (quotient + 2) * den ≤ m * den := Nat.mul_le_mul_right den (by omega)
    rw [Nat.add_mul, Nat.mul_comm quotient den] at more
    omega
  by_cases same : m = quotient
  · subst same
    rw [Nat.mul_comm m den] at low high odd
    by_cases below : 2 * remainder < den
    · simp [below]
    · have tie : den = 2 * remainder := by omega
      have even : m % 2 = 0 := by
        by_contra uneven
        have strict := (odd (by omega)).2
        omega
      simp [tie, even]
  · obtain rfl : m = quotient + 1 := by omega
    rw [Nat.add_mul, Nat.mul_comm quotient den] at low high odd
    by_cases above : den < 2 * remainder
    · have notLess : ¬2 * remainder < den := by omega
      simp [above, notLess]
    · have tie : den = 2 * remainder := by omega
      have uneven : quotient % 2 = 1 := by
        by_contra even
        have strict := (odd (by omega)).1
        omega
      simp [tie, uneven]

theorem le_roundDiv (num den : Nat) : num / den ≤ roundDiv num den := by
  unfold roundDiv
  simp only
  split
  · exact Nat.le_refl _
  · split <;> omega

theorem roundDiv_le (num den : Nat) : roundDiv num den ≤ num / den + 1 := by
  unfold roundDiv
  simp only
  split
  · omega
  · split <;> omega

theorem roundDiv_close (num : Nat) {den : Nat} (positive : 0 < den) :
    2 * (roundDiv num den * den) ≤ 2 * num + den ∧
      2 * num ≤ 2 * (roundDiv num den * den) + den := by
  have split : den * (num / den) + num % den = num := Nat.div_add_mod num den
  have small : num % den < den := Nat.mod_lt num positive
  unfold roundDiv
  generalize num / den = quotient at split ⊢
  generalize num % den = remainder at split small ⊢
  subst split
  simp only
  split
  · rw [Nat.mul_comm quotient den]
    omega
  · split
    · rw [Nat.add_mul, Nat.mul_comm quotient den]
      omega
    · rcases Nat.mod_two_eq_zero_or_one quotient with even | odd
      · rw [even, Nat.add_zero, Nat.mul_comm quotient den]
        omega
      · rw [odd, Nat.add_mul, Nat.mul_comm quotient den]
        omega

theorem roundDiv_scale {factor : Nat} (positive : 0 < factor) (num den : Nat) :
    roundDiv (num * factor) (den * factor) = roundDiv num den := by
  have quotient : num * factor / (den * factor) = num / den :=
    Nat.mul_div_mul_right num den positive
  have remainder : num * factor % (den * factor) = num % den * factor :=
    Nat.mul_mod_mul_right factor num den
  have below : 2 * (num % den * factor) < den * factor ↔ 2 * (num % den) < den := by
    rw [← Nat.mul_assoc]
    exact Nat.mul_lt_mul_right positive
  have above : den * factor < 2 * (num % den * factor) ↔ den < 2 * (num % den) := by
    rw [← Nat.mul_assoc]
    exact Nat.mul_lt_mul_right positive
  simp only [roundDiv, quotient, remainder, below, above]

theorem nearest_scale {factor : Nat} (positive : 0 < factor) (num den : Nat) :
    nearest (num * factor) (den * factor) = nearest num den := by
  have quotient : num * factor / (den * factor) = num / den :=
    Nat.mul_div_mul_right num den positive
  simp only [nearest, quotient]
  generalize Nat.pow 2 (excess (num / den)) = grain
  rw [show den * factor * grain = den * grain * factor by ring, roundDiv_scale positive]

theorem ofSteps_scale {factor : Nat} (positive : 0 < factor) (negative : Bool) (num den : Nat) :
    ofSteps negative (num * factor) (den * factor) = ofSteps negative num den := by
  simp only [ofSteps, nearest_scale positive]

theorem excess_eq {x e : Nat} (low : Nat.pow 2 52 * Nat.pow 2 e ≤ x)
    (high : x < Nat.pow 2 53 * Nat.pow 2 e) : excess x = e := by
  have lower : 2 ^ (52 + e) ≤ x := by rw [Nat.pow_add]; exact low
  have upper : x < 2 ^ (52 + e + 1) := by
    rw [show 52 + e + 1 = 53 + e by omega, Nat.pow_add]
    exact high
  have given : x ≠ 0 := by
    have some : 0 < 2 ^ (52 + e) := Nat.pow_pos (by decide)
    omega
  have bits : x.log2 = 52 + e := (Nat.log2_eq_iff given).mpr ⟨lower, upper⟩
  rw [excess, bits]
  omega

theorem excess_of_small {x : Nat} (small : x < Nat.pow 2 53) : excess x = 0 := by
  have bound := excess_shifted 0 small
  rw [show Nat.pow 2 0 = 1 from rfl, Nat.mul_one] at bound
  omega

theorem bounds_of_excess {x : Nat} (more : excess x ≠ 0) :
    Nat.pow 2 52 * Nat.pow 2 (excess x) ≤ x ∧ x < Nat.pow 2 53 * Nat.pow 2 (excess x) := by
  have bits : x.log2 = 52 + excess x := by
    unfold excess at more ⊢
    omega
  have given : x ≠ 0 := by
    rintro rfl
    simp [excess] at more
  obtain ⟨lower, upper⟩ := (Nat.log2_eq_iff given).mp bits
  refine ⟨?_, ?_⟩
  · rw [Nat.pow_add] at lower
    exact lower
  · rw [show 52 + excess x + 1 = 53 + excess x by omega, Nat.pow_add] at upper
    exact upper

theorem lt_of_excess {x : Nat} (none : excess x = 0) : x < Nat.pow 2 53 := by
  by_cases given : x = 0
  · rw [given]
    exact Nat.pow_pos (by decide)
  · have bits : x.log2 < 53 := by
      unfold excess at none
      omega
    exact (Nat.log2_lt given).mp bits

theorem lt_pow_excess (x : Nat) : x < Nat.pow 2 53 * Nat.pow 2 (excess x) := by
  by_cases none : excess x = 0
  · rw [none]
    exact (lt_of_excess none).trans_le (Nat.le_of_eq (Nat.mul_one _).symm)
  · exact (bounds_of_excess none).2

theorem excess_mono {x y : Nat} (le : x ≤ y) : excess x ≤ excess y := by
  have bits : x.log2 ≤ y.log2 := by
    by_cases given : x = 0
    · subst given
      simp
    · exact (Nat.le_log2 (by omega)).mpr ((Nat.log2_self_le given).trans le)
  unfold excess
  omega

/-- A double as a computation can give it: of 53 significant bits, and not too large. -/
inductive Representable : Binary64 → Prop
  | nan : Representable nan
  | infinity (negative : Bool) : Representable (infinity negative)
  | finite {negative : Bool} {steps : Nat} (small : steps < limit)
      (bits : Nat.pow 2 (excess steps) ∣ steps) : Representable (finite negative steps)

theorem representable_finite_iff {negative : Bool} {steps : Nat} :
    (finite negative steps).Representable ↔
      steps < limit ∧ Nat.pow 2 (excess steps) ∣ steps := by
  constructor
  · rintro (_ | _ | ⟨small, bits⟩)
    exact ⟨small, bits⟩
  · rintro ⟨small, bits⟩
    exact .finite small bits

theorem roundDiv_grain_le (num den : Nat) :
    roundDiv num (den * Nat.pow 2 (excess (num / den))) ≤ Nat.pow 2 53 := by
  have most := lt_pow_excess (num / den)
  have cut : num / (den * Nat.pow 2 (excess (num / den))) < Nat.pow 2 53 := by
    rw [← Nat.div_div_eq_div_mul]
    exact Nat.div_lt_of_lt_mul (by rwa [Nat.mul_comm] at most)
  have bound := roundDiv_le num (den * Nat.pow 2 (excess (num / den)))
  omega

theorem le_roundDiv_grain {num den : Nat} (more : excess (num / den) ≠ 0) :
    Nat.pow 2 52 ≤ roundDiv num (den * Nat.pow 2 (excess (num / den))) := by
  refine le_trans ?_ (le_roundDiv _ _)
  rw [← Nat.div_div_eq_div_mul]
  exact (Nat.le_div_iff_mul_le (Nat.pow_pos (by decide))).mpr (bounds_of_excess more).1

theorem carried_eq (e : Nat) : Nat.pow 2 53 * Nat.pow 2 e = Nat.pow 2 52 * Nat.pow 2 (e + 1) := by
  rw [show Nat.pow 2 (e + 1) = Nat.pow 2 e * 2 from rfl,
    show Nat.pow 2 53 = Nat.pow 2 52 * 2 from rfl]
  ring

theorem excess_carried (e : Nat) : excess (Nat.pow 2 53 * Nat.pow 2 e) = e + 1 := by
  rw [carried_eq]
  exact excess_eq (Nat.le_refl _)
    (Nat.mul_lt_mul_of_pos_right (by decide) (Nat.pow_pos (by decide)))

theorem nearest_dvd {num den : Nat} :
    Nat.pow 2 (excess (nearest num den)) ∣ nearest num den := by
  have grown := roundDiv_grain_le num den
  simp only [nearest]
  generalize roundDiv num (den * Nat.pow 2 (excess (num / den))) = m at grown
  generalize excess (num / den) = e
  by_cases small : m < Nat.pow 2 53
  · exact Nat.dvd_mul_left_of_dvd (Nat.pow_dvd_pow 2 (excess_shifted e small)) m
  · -- the next power of two has one bit more than it needs
    have top : m = Nat.pow 2 53 := by omega
    rw [top, excess_carried, carried_eq]
    exact Nat.dvd_mul_left _ _

theorem nearest_of_tiny {num den : Nat} (tiny : 2 * num < den) : nearest num den = 0 := by
  have none : num / den = 0 := Nat.div_eq_of_lt (by omega)
  have whole : num % den = num := Nat.mod_eq_of_lt (by omega)
  simp [nearest, none, excess, roundDiv, whole, tiny]

theorem le_nearest {num den bound : Nat} (positive : 0 < den) (wide : 53 ≤ bound)
    (large : Nat.pow 2 bound * den ≤ num) : Nat.pow 2 bound ≤ nearest num den := by
  have floor : Nat.pow 2 bound ≤ num / den := (Nat.le_div_iff_mul_le positive).mpr large
  have more : excess (num / den) ≠ 0 := by
    intro none
    have small := lt_of_excess none
    have wider : Nat.pow 2 53 ≤ Nat.pow 2 bound := Nat.pow_le_pow_right (by decide) wide
    omega
  have most := (bounds_of_excess more).2
  have bits : bound ≤ 52 + excess (num / den) := by
    have below : Nat.pow 2 bound < Nat.pow 2 (53 + excess (num / den)) := by
      rw [show Nat.pow 2 (53 + excess (num / den)) = _ from Nat.pow_add 2 53 _]
      exact floor.trans_lt most
    have exponents := (Nat.pow_lt_pow_iff_right (by decide : 1 < 2)).mp below
    omega
  calc
    Nat.pow 2 bound ≤ Nat.pow 2 (52 + excess (num / den)) := Nat.pow_le_pow_right (by decide) bits
    _ = Nat.pow 2 52 * Nat.pow 2 (excess (num / den)) := Nat.pow_add 2 52 _
    _ ≤ nearest num den := Nat.mul_le_mul_right _ (le_roundDiv_grain more)

theorem limit_pos : 0 < limit := by
  unfold limit
  generalize 2098 = exponent
  exact Nat.pow_pos (by decide)

theorem ofSteps_representable (negative : Bool) (num den : Nat) :
    (ofSteps negative num den).Representable := by
  by_cases small : nearest num den < limit
  · simp only [ofSteps, small, if_true]
    exact .finite small nearest_dvd
  · simp only [ofSteps, small, if_false]
    exact .infinity negative

theorem zero_representable (negative : Bool) : (zero negative).Representable :=
  .finite limit_pos (Nat.dvd_zero _)

theorem ofInt_representable (n : Int) : (ofInt n).Representable := by
  unfold ofInt ofQuotient
  exact ofSteps_representable _ _ _

theorem ofDecimal_representable (negative : Bool) (d : Decimal) :
    (ofDecimal negative d).Representable := by
  unfold ofDecimal
  generalize unit = one
  simp only
  split
  · exact zero_representable negative
  · split
    · exact .infinity negative
    · split
      · exact zero_representable negative
      · split
        · exact ofSteps_representable _ _ _
        · exact ofSteps_representable _ _ _

theorem add_representable (x y : Binary64) : (x.add y).Representable := by
  cases x with
  | nan => exact .nan
  | infinity a =>
      cases y with
      | nan => exact .nan
      | infinity b =>
          simp only [add]
          split
          · exact .infinity a
          · exact .nan
      | finite b n => exact .infinity a
  | finite a m =>
      cases y with
      | nan => exact .nan
      | infinity b => exact .infinity b
      | finite b n =>
          simp only [add]
          split
          · exact zero_representable _
          · exact ofSteps_representable _ _ _

theorem div_representable (x y : Binary64) : (x.div y).Representable := by
  cases x with
  | nan => exact .nan
  | infinity a =>
      cases y with
      | nan => exact .nan
      | infinity b => exact .nan
      | finite b n => exact .infinity _
  | finite a m =>
      cases y with
      | nan => exact .nan
      | infinity b => exact zero_representable _
      | finite b n =>
          simp only [div]
          split
          · exact .nan
          · exact ofSteps_representable _ _ _

theorem roundPlaces_representable (places : Nat) (x : Binary64) :
    (x.roundPlaces places).Representable := by
  cases x with
  | nan => exact .nan
  | infinity negative => exact .infinity negative
  | finite negative steps =>
      rw [roundPlaces]
      exact ofDecimal_representable _ _

end ThrustBench.Binary64
