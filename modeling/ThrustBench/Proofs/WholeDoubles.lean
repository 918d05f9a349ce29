import ThrustBench.Binary64.Basic

/-!
Whole numbers of up to 53 bits are doubles.
-/

namespace ThrustBench.Binary64

theorem unit_pos : 0 < unit := by
  unfold unit
  -- the number itself is never needed, and it is large
  generalize 1074 = exponent
  exact Nat.pow_pos (by decide)

theorem signed_natAbs (k : Int) (scale : Nat) :
    signed (decide (k < 0)) (k.natAbs * scale) = k * scale := by
  by_cases negative : k < 0
  · have size : (k.natAbs : Int) = -k := by omega
    simp only [signed, negative, decide_true, if_true, Int.natCast_mul, size, Int.neg_mul,
      Int.neg_neg]
  · have size : (k.natAbs : Int) = k := by omega
    simp [signed, negative, size]

theorem roundDiv_of_dvd {num den : Nat} (positive : 0 < den) (exact : den ∣ num) :
    roundDiv num den = num / den := by
  have remainder : num % den = 0 := Nat.mod_eq_zero_of_dvd exact
  simp [roundDiv, remainder, positive]

theorem excess_shifted {m : Nat} (exponent : Nat) (small : m < Nat.pow 2 53) :
    excess (m * Nat.pow 2 exponent) ≤ exponent := by
  unfold excess
  by_cases given : m * Nat.pow 2 exponent = 0
  · rw [given]
    exact Nat.zero_le exponent
  · have bound : m * Nat.pow 2 exponent < 2 ^ (53 + exponent) := by
      rw [Nat.pow_add]
      exact Nat.mul_lt_mul_of_pos_right small (Nat.pow_pos (by decide))
    have bits := (Nat.log2_lt given).mpr bound
    omega

theorem nearest_shifted {m : Nat} (exponent : Nat) (small : m < Nat.pow 2 53) :
    nearest (m * Nat.pow 2 exponent) 1 = m * Nat.pow 2 exponent := by
  have grainy : Nat.pow 2 (excess (m * Nat.pow 2 exponent)) ∣ m * Nat.pow 2 exponent :=
    Nat.dvd_mul_left_of_dvd (Nat.pow_dvd_pow 2 (excess_shifted exponent small)) m
  have positive : 0 < Nat.pow 2 (excess (m * Nat.pow 2 exponent)) := Nat.pow_pos (by decide)
  simp only [nearest, Nat.div_one, Nat.one_mul]
  rw [roundDiv_of_dvd positive grainy, Nat.div_mul_cancel grainy]

theorem shifted_lt {m : Nat} {exponent bound : Nat} (small : m < Nat.pow 2 53)
    (room : 53 + exponent ≤ bound) : m * Nat.pow 2 exponent < Nat.pow 2 bound := by
  have shifted : m * Nat.pow 2 exponent < Nat.pow 2 (53 + exponent) := by
    have sum : Nat.pow 2 (53 + exponent) = Nat.pow 2 53 * Nat.pow 2 exponent :=
      Nat.pow_add 2 53 exponent
    rw [sum]
    exact Nat.mul_lt_mul_of_pos_right small (Nat.pow_pos (by decide))
  exact Nat.lt_of_lt_of_le shifted (Nat.pow_le_pow_right (by decide) room)

theorem ofInt_of_small {n : Int} (small : n.natAbs < Nat.pow 2 53) :
    ofInt n = finite (decide (n < 0)) (n.natAbs * unit) := by
  have kept : nearest (n.natAbs * unit) 1 = n.natAbs * unit := by
    unfold unit
    generalize 1074 = exponent
    exact nearest_shifted exponent small
  have inside : n.natAbs * unit < limit := by
    have room : 53 + 1074 ≤ 2098 := by decide
    unfold unit limit
    generalize 1074 = exponent, 2098 = bound at room ⊢
    exact shifted_lt small room
  simp only [ofInt, ofQuotient, ofSteps, kept, inside, if_true]

end ThrustBench.Binary64
