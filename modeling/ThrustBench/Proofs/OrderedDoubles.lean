import Mathlib.Data.Int.ConditionallyCompleteOrder
import Mathlib.Order.ConditionallyCompleteLattice.Basic
import ThrustBench.Clock
import ThrustBench.Number
import ThrustBench.Proofs.NearestDoubles

/-!
The order of doubles.  Rounding keeps it, so differences and quotients do: a later look at the clock
does not show an earlier time, and what was too old for a given age stays so.
-/

namespace ThrustBench

namespace Binary64

theorem roundDiv_mono {num num' : Nat} (den : Nat) (le : num ≤ num') :
    roundDiv num den ≤ roundDiv num' den := by
  have split : den * (num / den) + num % den = num := Nat.div_add_mod num den
  have split' : den * (num' / den) + num' % den = num' := Nat.div_add_mod num' den
  have quotients : num / den ≤ num' / den := Nat.div_le_div_right le
  rcases Nat.lt_or_eq_of_le quotients with less | same
  · have first := roundDiv_le num den
    have second := le_roundDiv num' den
    omega
  · rw [← same] at split'
    have remainders : num % den ≤ num' % den := by omega
    unfold roundDiv
    rw [← same]
    generalize num / den = quotient
    simp only
    split
    · split
      · exact Nat.le_refl _
      · split <;> omega
    · have notBelow : ¬2 * (num' % den) < den := by omega
      simp only [notBelow, if_false]
      split <;> split <;> omega

theorem nearest_mono {num num' : Nat} (den : Nat) (le : num ≤ num') :
    nearest num den ≤ nearest num' den := by
  have quotients : num / den ≤ num' / den := Nat.div_le_div_right le
  rcases Nat.lt_or_eq_of_le (excess_mono quotients) with finer | same
  · -- a power of two lies between the two
    have positive : 0 < den := by
      by_contra none
      obtain rfl : den = 0 := by omega
      simp [excess] at finer
    have more : excess (num' / den) ≠ 0 := by omega
    have large : Nat.pow 2 (52 + excess (num' / den)) * den ≤ num' := by
      have least := (bounds_of_excess more).1
      rw [show Nat.pow 2 (52 + excess (num' / den)) = _ from Nat.pow_add 2 52 _]
      exact (Nat.le_div_iff_mul_le positive).mp least
    calc
      nearest num den ≤ Nat.pow 2 53 * Nat.pow 2 (excess (num / den)) :=
        Nat.mul_le_mul_right _ (roundDiv_grain_le num den)
      _ = Nat.pow 2 (53 + excess (num / den)) := (Nat.pow_add 2 53 _).symm
      _ ≤ Nat.pow 2 (52 + excess (num' / den)) := Nat.pow_le_pow_right (by decide) (by omega)
      _ ≤ nearest num' den := le_nearest positive (by omega) large
  · simp only [nearest, ← same]
    exact Nat.mul_le_mul_right _ (roundDiv_mono _ le)

theorem nearest_zero (den : Nat) : nearest 0 den = 0 := by
  simp [nearest, roundDiv]

theorem nearest_of_bits {steps : Nat} (bits : Nat.pow 2 (excess steps) ∣ steps) :
    nearest steps 1 = steps := by
  have positive : 0 < Nat.pow 2 (excess steps) := Nat.pow_pos (by decide)
  simp only [nearest, Nat.div_one, Nat.one_mul]
  rw [roundDiv_of_dvd positive bits, Nat.div_mul_cancel bits]

/-- Where a double stands: at a number of steps, or at one of the two ends.  What is not a number
stands nowhere. -/
def place : Binary64 → Option (WithBot (WithTop Int))
  | nan => none
  | infinity negative => some (if negative then ⊥ else ⊤)
  | finite negative steps => some ((signed negative steps : WithTop Int) : WithBot (WithTop Int))

theorem place_finite (negative : Bool) (steps : Nat) :
    (finite negative steps).place =
      some ((signed negative steps : WithTop Int) : WithBot (WithTop Int)) := rfl

theorem lt_iff (x y : Binary64) :
    x.lt y = true ↔ ∃ a ∈ x.place, ∃ b ∈ y.place, a < b := by
  cases x with
  | nan => simp [lt, place]
  | infinity first =>
      cases y with
      | nan => simp [lt, place]
      | infinity second => cases first <;> cases second <;> simp [lt, place]
      | finite second n => cases first <;> simp [lt, place]
  | finite first m =>
      cases y with
      | nan => simp [lt, place]
      | infinity second =>
          cases second
          · have below : ((signed first m : WithTop Int) : WithBot (WithTop Int)) < ⊤ :=
              WithBot.coe_lt_coe.mpr (WithTop.coe_lt_top _)
            simp [lt, place, below]
          · simp [lt, place]
      | finite second n => simp [lt, place]

theorem le_iff (x y : Binary64) :
    x.le y = true ↔ ∃ a ∈ x.place, ∃ b ∈ y.place, a ≤ b := by
  cases x with
  | nan => simp [le, lt, eq, place]
  | infinity first =>
      cases y with
      | nan => simp [le, lt, eq, place]
      | infinity second => cases first <;> cases second <;> simp [le, lt, eq, place]
      | finite second n => cases first <;> simp [le, lt, eq, place]
  | finite first m =>
      cases y with
      | nan => simp [le, lt, eq, place]
      | infinity second => cases second <;> simp [le, lt, eq, place]
      | finite second n =>
          simp only [le, lt, eq, place_finite, Bool.or_eq_true, decide_eq_true_eq, Option.mem_def,
            Option.some.injEq, exists_eq_left', WithBot.coe_le_coe, WithTop.coe_le_coe]
          omega

theorem le_of_place {x y : Binary64} {a b : WithBot (WithTop Int)} (here : x.place = some a)
    (there : y.place = some b) (le : a ≤ b) : x.le y = true :=
  (le_iff x y).mpr ⟨a, here, b, there, le⟩

theorem lt_of_le_of_lt {x y z : Binary64} (first : x.le y = true) (second : y.lt z = true) :
    x.lt z = true := by
  rw [le_iff] at first
  rw [lt_iff] at second ⊢
  obtain ⟨a, here, b, between, le⟩ := first
  obtain ⟨b', between', c, there, less⟩ := second
  obtain rfl : b = b' := Option.some.inj (between.symm.trans between')
  exact ⟨a, here, c, there, le.trans_lt less⟩

theorem lt_of_lt_of_not_lt {x y z : Binary64} (less : x.lt y = true) (bounded : z.lt y = false)
    (given : z ≠ nan) : x.lt z = true := by
  rw [Bool.eq_false_iff, ne_eq, lt_iff] at bounded
  rw [lt_iff] at less ⊢
  obtain ⟨a, here, b, there, order⟩ := less
  obtain ⟨c, known⟩ : ∃ c, z.place = some c := by
    cases z with
    | nan => exact absurd rfl given
    | infinity negative => exact ⟨_, rfl⟩
    | finite negative steps => exact ⟨_, rfl⟩
  have notBelow : ¬c < b := fun below => bounded ⟨c, known, b, there, below⟩
  exact ⟨a, here, c, known, order.trans_le (not_lt.mp notBelow)⟩

def rounded (num : Int) (den : Nat) : WithBot (WithTop Int) :=
  if nearest num.natAbs den < limit then
    ((signed (decide (num < 0)) (nearest num.natAbs den) : WithTop Int) : WithBot (WithTop Int))
  else if num < 0 then ⊥ else ⊤

theorem place_ofSteps (negative : Bool) (num den : Nat) :
    (ofSteps negative num den).place = some (rounded (signed negative num) den) := by
  by_cases none : num = 0
  · subst none
    cases negative <;> simp [ofSteps, rounded, signed, nearest_zero, limit_pos, place]
  · have size : (signed negative num).natAbs = num := by
      cases negative <;> simp [signed]
    have sign : signed negative num < 0 ↔ negative = true := by
      have positive : 0 < num := Nat.pos_of_ne_zero none
      cases negative <;> simp [signed, positive]
    by_cases few : nearest num den < limit
    · simp [ofSteps, rounded, size, sign, few, place]
    · simp [ofSteps, rounded, size, sign, few, place]

theorem rounded_mono {num num' : Int} (den : Nat) (le : num ≤ num') :
    rounded num den ≤ rounded num' den := by
  by_cases below : num' < 0
  · -- both are negative, and the smaller one is the larger in size
    have negative : num < 0 := by omega
    have sizes := nearest_mono den (show num'.natAbs ≤ num.natAbs by omega)
    simp only [rounded, below, negative, decide_true, signed, if_true]
    split
    · have few : nearest num'.natAbs den < limit := by omega
      rw [if_pos few, WithBot.coe_le_coe, WithTop.coe_le_coe]
      omega
    · exact bot_le
  · by_cases negative : num < 0
    · have low : rounded num den ≤ ((0 : WithTop Int) : WithBot (WithTop Int)) := by
        simp only [rounded, negative, decide_true, signed, if_true]
        split
        · rw [WithBot.coe_le_coe, ← WithTop.coe_zero, WithTop.coe_le_coe]
          omega
        · exact bot_le
      refine low.trans ?_
      simp only [rounded, below, decide_false, signed, if_false, Bool.false_eq_true]
      split
      · rw [WithBot.coe_le_coe, ← WithTop.coe_zero, WithTop.coe_le_coe]
        omega
      · exact le_top
    · have sizes := nearest_mono den (show num.natAbs ≤ num'.natAbs by omega)
      simp only [rounded, below, negative, decide_false, signed, if_false, Bool.false_eq_true]
      split
      · split
        · rw [WithBot.coe_le_coe, WithTop.coe_le_coe]
          omega
        · exact le_top
      · have many : ¬nearest num'.natAbs den < limit := by omega
        rw [if_neg many]

theorem rounded_signed {negative : Bool} {steps : Nat}
    (held : (finite negative steps).Representable) :
    rounded (signed negative steps) 1 =
      ((signed negative steps : WithTop Int) : WithBot (WithTop Int)) := by
  cases held with
  | finite small bits =>
      have exact := place_ofSteps negative steps 1
      simpa [ofSteps, nearest_of_bits bits, small, place] using exact.symm

section Differences

theorem place_add (a b : Bool) (m n : Nat) :
    ((finite a m).add (finite b n)).place = some (rounded (signed a m + signed b n) 1) := by
  simp only [add]
  generalize signed a m + signed b n = sum
  split
  · next none =>
      subst none
      simp [zero, place, rounded, nearest_zero, limit_pos, signed]
  · have size := signed_natAbs sum 1
    rw [Nat.mul_one, Int.natCast_one, Int.mul_one] at size
    rw [place_ofSteps, size]

theorem place_sub (a b : Bool) (m n : Nat) :
    ((finite a m).sub (finite b n)).place = some (rounded (signed a m - signed b n) 1) := by
  have opposite : signed (!b) n = -signed b n := by
    cases b <;> simp [signed]
  rw [sub, neg, place_add, opposite, Int.sub_eq_add_neg]

variable {t x x' y : Binary64}

theorem not_lt_nan (t : Binary64) : t.lt nan = false := by
  cases t <;> rfl

theorem not_lt_bottom (t : Binary64) : t.lt (infinity true) = false := by
  cases t <;> simp [lt]

theorem not_top_lt (t : Binary64) : (infinity false).lt t = false := by
  cases t <;> rfl

theorem lt_top_of_lt (less : t.lt x = true) : t.lt (infinity false) = true := by
  cases t with
  | nan => cases x <;> simp [lt] at less
  | infinity negative => cases negative <;> cases x <;> simp_all [lt]
  | finite negative steps => rfl

theorem not_lt_bottom_sub (t y : Binary64) : t.lt ((infinity true).sub y) = false := by
  cases y with
  | nan => exact not_lt_nan t
  | infinity negative => cases negative <;> simp [sub, neg, add, not_lt_bottom, not_lt_nan]
  | finite negative steps => exact not_lt_bottom t

theorem lt_sub_mono (later : x.le x' = true) (less : t.lt (x.sub y) = true) :
    t.lt (x'.sub y) = true := by
  cases x with
  | nan => simp [le, lt, eq] at later
  | infinity a =>
      cases a
      · -- nothing is later than the upper end
        cases x' with
        | nan => simp [le, lt, eq] at later
        | infinity a' =>
            cases a'
            · exact less
            · simp [le, lt, eq] at later
        | finite a' m' => simp [le, lt, eq] at later
      · rw [not_lt_bottom_sub] at less
        exact absurd less Bool.false_ne_true
  | finite a m =>
      cases x' with
      | nan => simp [le, lt, eq] at later
      | infinity a' =>
          cases a'
          · cases y with
            | nan => exact less
            | infinity b =>
                cases b
                · exact absurd (less.symm.trans (not_lt_bottom t)) (by decide)
                · exact less
            | finite b n => exact lt_top_of_lt less
          · simp [le, lt, eq] at later
      | finite a' m' =>
          cases y with
          | nan => exact less
          | infinity b => exact less
          | finite b n =>
              simp only [lt_iff, le_iff, place_sub, place_finite, Option.mem_def,
                Option.some.injEq, exists_eq_left', WithBot.coe_le_coe,
                WithTop.coe_le_coe] at later less ⊢
              obtain ⟨c, low, under⟩ := less
              exact ⟨c, low, under.trans_le (rounded_mono 1 (by omega))⟩

/-- A time that lies below another one less an age is not younger than that age then, although both
differences are rounded. -/
theorem not_sub_lt (time : t.Representable) (age : y.Representable)
    (less : t.lt (x.sub y) = true) : (x.sub t).lt y = false := by
  cases y with
  | nan => exact not_lt_nan _
  | infinity b =>
      cases b
      · -- nothing lies below a time less an age without end
        cases x with
        | nan => exact absurd (less.symm.trans (not_lt_nan t)) (by decide)
        | infinity a =>
            cases a
            · exact absurd (less.symm.trans (not_lt_nan t)) (by decide)
            · exact absurd (less.symm.trans (not_lt_bottom t)) (by decide)
        | finite a m => exact absurd (less.symm.trans (not_lt_bottom t)) (by decide)
      · exact not_lt_bottom _
  | finite b n =>
      cases x with
      | nan => rfl
      | infinity a =>
          cases a
          · cases t with
            | nan => rfl
            | infinity c => cases c <;> rfl
            | finite c k => rfl
          · rw [not_lt_bottom_sub] at less
            exact absurd less Bool.false_ne_true
      | finite a m =>
          cases t with
          | nan => rfl
          | infinity c =>
              cases c
              · rw [not_top_lt] at less
                exact absurd less Bool.false_ne_true
              · rfl
          | finite c k =>
              have before : signed c k < signed a m - signed b n := by
                by_contra notBefore
                have order := rounded_mono 1 (Int.not_lt.mp notBefore)
                rw [rounded_signed time] at order
                simp only [lt_iff, place_sub, place_finite, Option.mem_def, Option.some.injEq,
                  exists_eq_left'] at less
                exact absurd less order.not_gt
              have order := rounded_mono 1 (show signed b n ≤ signed a m - signed c k by omega)
              rw [rounded_signed age] at order
              rw [Bool.eq_false_iff, ne_eq, lt_iff]
              simp only [place_sub, place_finite, Option.mem_def, Option.some.injEq,
                exists_eq_left', not_lt]
              exact order

end Differences

theorem place_ofInt (n : Int) : (ofInt n).place = some (rounded (n * unit) 1) := by
  rw [ofInt, ofQuotient, place_ofSteps, signed_natAbs]

theorem ofInt_mono {m n : Int} (le : m ≤ n) : (ofInt m).le (ofInt n) = true := by
  have scaled : m * unit ≤ n * unit :=
    Int.mul_le_mul_of_nonneg_right le (Int.natCast_nonneg unit)
  exact le_of_place (place_ofInt m) (place_ofInt n) (rounded_mono 1 scaled)

theorem place_div (a : Bool) (k : Nat) {n : Nat} (given : n ≠ 0) :
    ((finite a k).div (finite false n)).place = some (rounded (signed a k * unit) n) := by
  have scaled : signed a (k * unit) = signed a k * unit := by
    generalize unit = scale
    cases a <;> simp [signed]
  simp only [div, given, if_false, Bool.xor_false]
  rw [place_ofSteps, scaled]

theorem div_mono {x y : Binary64} {n : Nat} (given : n ≠ 0) (order : x.le y = true) :
    (x.div (finite false n)).le (y.div (finite false n)) = true := by
  cases x with
  | nan => simp [le, lt, eq] at order
  | infinity a =>
      cases y with
      | nan => simp [le, lt, eq] at order
      | infinity b => simpa [div] using order
      | finite b l =>
          cases a
          · simp [le, lt, eq] at order
          · exact le_of_place rfl (place_div b l given) bot_le
  | finite a k =>
      cases y with
      | nan => simp [le, lt, eq] at order
      | infinity b =>
          cases b
          · exact le_of_place (place_div a k given) rfl le_top
          · simp [le, lt, eq] at order
      | finite b l =>
          simp only [le_iff, place_finite, Option.mem_def, Option.some.injEq, exists_eq_left',
            WithBot.coe_le_coe, WithTop.coe_le_coe] at order
          have scaled : signed a k * unit ≤ signed b l * unit :=
            Int.mul_le_mul_of_nonneg_right order (Int.natCast_nonneg unit)
          exact le_of_place (place_div a k given) (place_div b l given) (rounded_mono n scaled)

end Binary64

namespace Clock

theorem seconds_mono {m n : Int} (later : m ≤ n) : (seconds m).le (seconds n) = true := by
  obtain ⟨steps, given, million⟩ : ∃ k, k ≠ 0 ∧ Binary64.ofInt 1000000 = .finite false k :=
    ⟨_, Nat.mul_ne_zero (by decide) Binary64.unit_pos.ne', Binary64.ofInt_of_small (by decide)⟩
  rw [seconds, seconds, million]
  exact Binary64.div_mono given (Binary64.ofInt_mono later)

theorem seconds_representable (micros : Int) : (seconds micros).Representable :=
  Binary64.div_representable _ _

end Clock

namespace Number

def compared : Number → Binary64
  | whole n => .finite (decide (n < 0)) (n.natAbs * Binary64.unit)
  | real x => x

theorem lt_eq (m n : Number) : m.lt n = m.compared.lt n.compared := by
  cases m with
  | whole m =>
      cases n with
      | whole n => simp only [lt, steps?, compared, Binary64.lt, Binary64.signed_natAbs]
      | real y =>
          cases y with
          | nan => rfl
          | infinity negative => cases negative <;> rfl
          | finite negative steps =>
              simp only [lt, steps?, compared, Binary64.lt, Binary64.signed_natAbs]
  | real x =>
      cases n with
      | whole n =>
          cases x with
          | nan => rfl
          | infinity negative => cases negative <;> rfl
          | finite negative steps =>
              simp only [lt, steps?, compared, Binary64.lt, Binary64.signed_natAbs]
      | real y => rfl

end Number

end ThrustBench
