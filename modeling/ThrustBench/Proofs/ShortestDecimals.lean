import ThrustBench.Proofs.NearestDoubles
import ThrustBench.Proofs.Running

/-!
The shortest decimal of a double reads back as that double.  A grid point that passes the test lies
in the interval of the double, and among the points of 17 digits there is always one that does.
-/

namespace ThrustBench.Binary64

theorem nearest_of_grain {num scale m e : Nat} (positive : 0 < scale)
    (grain : excess (num / scale) = e)
    (low : 2 * (m * Nat.pow 2 e * scale) ≤ 2 * num + Nat.pow 2 e * scale)
    (high : 2 * num ≤ 2 * (m * Nat.pow 2 e * scale) + Nat.pow 2 e * scale)
    (odd : m % 2 = 1 → 2 * (m * Nat.pow 2 e * scale) < 2 * num + Nat.pow 2 e * scale ∧
      2 * num < 2 * (m * Nat.pow 2 e * scale) + Nat.pow 2 e * scale) :
    nearest num scale = m * Nat.pow 2 e := by
  have power : 0 < Nat.pow 2 e := Nat.pow_pos (by decide)
  simp only [nearest, grain]
  generalize Nat.pow 2 e = G at *
  have same : m * (scale * G) = m * G * scale := by ring
  have width : scale * G = G * scale := Nat.mul_comm _ _
  rw [roundDiv_of_close (m := m) (Nat.mul_pos positive power)]
  · rw [same, width]; exact low
  · rw [same, width]; exact high
  · rw [same, width]; exact odd

theorem nearest_of_subnormal {steps num scale : Nat} (few : excess steps = 0)
    (positive : 0 < scale) (low : 2 * (steps * scale) ≤ 2 * num + scale)
    (high : 2 * num ≤ 2 * (steps * scale) + scale)
    (odd : steps % 2 = 1 → 2 * (steps * scale) < 2 * num + scale ∧
      2 * num < 2 * (steps * scale) + scale) :
    nearest num scale = steps := by
  have notAbove : num / scale ≤ steps := by
    have less : num < (steps + 1) * scale := by
      rw [Nat.add_mul]
      omega
    exact Nat.lt_succ_iff.mp (Nat.div_lt_of_lt_mul (by rwa [Nat.mul_comm] at less))
  have small : num / scale < Nat.pow 2 53 := notAbove.trans_lt (lt_of_excess few)
  have rounded := nearest_of_grain (m := steps) (e := 0) positive (excess_of_small small)
  rw [show Nat.pow 2 0 = 1 from rfl, Nat.mul_one, Nat.one_mul] at rounded
  exact rounded low high odd

theorem nearest_of_normal {m e num scale : Nat} (lower : Nat.pow 2 52 < m)
    (upper : m < Nat.pow 2 53) (positive : 0 < scale)
    (low : 2 * (m * Nat.pow 2 e * scale) ≤ 2 * num + Nat.pow 2 e * scale)
    (high : 2 * num ≤ 2 * (m * Nat.pow 2 e * scale) + Nat.pow 2 e * scale)
    (odd : m % 2 = 1 → 2 * (m * Nat.pow 2 e * scale) < 2 * num + Nat.pow 2 e * scale ∧
      2 * num < 2 * (m * Nat.pow 2 e * scale) + Nat.pow 2 e * scale) :
    nearest num scale = m * Nat.pow 2 e := by
  refine nearest_of_grain positive (excess_eq ?_ ?_) low high odd
  · have room : (Nat.pow 2 52 + 1) * (Nat.pow 2 e * scale) ≤ m * (Nat.pow 2 e * scale) :=
      Nat.mul_le_mul_right _ lower
    rw [Nat.le_div_iff_mul_le positive, Nat.mul_assoc]
    rw [Nat.mul_assoc] at low
    rw [Nat.add_mul, Nat.one_mul] at room
    omega
  · have room : (m + 1) * (Nat.pow 2 e * scale) ≤ Nat.pow 2 53 * (Nat.pow 2 e * scale) :=
      Nat.mul_le_mul_right _ upper
    have some : 0 < Nat.pow 2 e * scale := Nat.mul_pos (Nat.pow_pos (by decide)) positive
    rw [Nat.div_lt_iff_lt_mul positive, Nat.mul_assoc]
    rw [Nat.mul_assoc] at high
    rw [Nat.add_mul, Nat.one_mul] at room
    omega

/-- Below a power of two the grain is half of what it is above. -/
theorem nearest_of_power {e num scale : Nat} (positive : 0 < scale)
    (low : (2 * (Nat.pow 2 52 * Nat.pow 2 (e + 1)) - Nat.pow 2 e) * scale ≤ 2 * num)
    (high : 2 * num ≤ (2 * (Nat.pow 2 52 * Nat.pow 2 (e + 1)) + Nat.pow 2 (e + 1)) * scale) :
    nearest num scale = Nat.pow 2 52 * Nat.pow 2 (e + 1) := by
  have twice : Nat.pow 2 (e + 1) = 2 * Nat.pow 2 e := Nat.pow_succ'
  have some : 0 < Nat.pow 2 e * scale := Nat.mul_pos (Nat.pow_pos (by decide)) positive
  rw [twice] at low high ⊢
  have large : Nat.pow 2 52 = 4503599627370496 := by decide
  have larger : Nat.pow 2 53 = 9007199254740992 := by decide
  by_cases above : Nat.pow 2 52 * (2 * Nat.pow 2 e) * scale ≤ num
  · have rounded := @nearest_of_grain num scale (Nat.pow 2 52) (e + 1) positive
    rw [twice] at rounded
    refine rounded (excess_eq ?_ ?_) ?_ ?_ ?_
    · rw [twice, Nat.le_div_iff_mul_le positive]
      exact above
    · rw [twice, Nat.div_lt_iff_lt_mul positive]
      rw [Nat.add_mul] at high
      rw [large] at high
      rw [larger]
      generalize Nat.pow 2 e = H at *
      generalize scaled : H * scale = S at some
      have first : 2 * (4503599627370496 * (2 * H)) * scale = 18014398509481984 * S := by
        rw [← scaled]; ring
      have second : 2 * H * scale = 2 * S := by rw [← scaled]; ring
      have third : 9007199254740992 * (2 * H) * scale = 18014398509481984 * S := by
        rw [← scaled]; ring
      omega
    · omega
    · rw [Nat.add_mul] at high
      rw [Nat.mul_assoc 2 (Nat.pow 2 52 * _) scale] at high
      exact high
    · intro odd
      rw [large] at odd
      omega
  · have below : num < Nat.pow 2 52 * (2 * Nat.pow 2 e) * scale := by omega
    have rounded := @nearest_of_grain num scale (Nat.pow 2 53) e positive
    rw [Nat.sub_mul] at low
    rw [show Nat.pow 2 52 * (2 * Nat.pow 2 e) = Nat.pow 2 53 * Nat.pow 2 e by
      rw [large, larger]; ring] at *
    refine rounded (excess_eq ?_ ?_) ?_ ?_ ?_
    · rw [Nat.le_div_iff_mul_le positive]
      rw [larger] at low below
      rw [large]
      generalize Nat.pow 2 e = H at *
      generalize scaled : H * scale = S at *
      have first : 2 * (9007199254740992 * H) * scale = 18014398509481984 * S := by
        rw [← scaled]; ring
      have second : 4503599627370496 * H * scale = 4503599627370496 * S := by
        rw [← scaled]; ring
      omega
    · rw [Nat.div_lt_iff_lt_mul positive]
      exact below
    · rw [Nat.mul_assoc 2 (Nat.pow 2 53 * _) scale] at low
      omega
    · omega
    · intro odd
      rw [larger] at odd
      omega

theorem readsBack_inside {steps count : Nat} {g : Grid} (reads : readsBack steps g count = true) :
    (2 * steps - (gaps steps).1) * g.scale ≤ 2 * (count * g.den) ∧
      2 * (count * g.den) ≤ (2 * steps + (gaps steps).2) * g.scale ∧
      (steps / Nat.pow 2 (excess steps) % 2 = 1 →
        (2 * steps - (gaps steps).1) * g.scale < 2 * (count * g.den) ∧
          2 * (count * g.den) < (2 * steps + (gaps steps).2) * g.scale) := by
  simp only [readsBack, Nat.mul_assoc 2 count] at reads
  split at reads
  · rename_i even
    simp only [Bool.and_eq_true, decide_eq_true_eq] at reads
    exact ⟨reads.1, reads.2, fun odd => by omega⟩
  · simp only [Bool.and_eq_true, decide_eq_true_eq] at reads
    exact ⟨reads.1.le, reads.2.le, fun _ => reads⟩

theorem nearest_of_readsBack {steps count : Nat} {g : Grid}
    (bits : Nat.pow 2 (excess steps) ∣ steps) (positive : 0 < g.scale)
    (reads : readsBack steps g count = true) : nearest (count * g.den) g.scale = steps := by
  obtain ⟨low, high, odd⟩ := readsBack_inside reads
  generalize count * g.den = num at *
  generalize g.scale = scale at *
  by_cases few : excess steps = 0
  · have ends : gaps steps = (1, 1) := by simp [gaps, few]
    rw [ends] at low high odd
    simp only [Nat.sub_mul, Nat.add_mul, Nat.one_mul, Nat.mul_assoc 2 steps] at low high odd
    rw [few, show Nat.pow 2 0 = 1 from rfl, Nat.div_one] at odd
    refine nearest_of_subnormal few positive (by omega) high fun uneven => ?_
    obtain ⟨above, below⟩ := odd uneven
    exact ⟨by omega, below⟩
  · obtain ⟨e, more⟩ : ∃ e, excess steps = e + 1 := ⟨excess steps - 1, by omega⟩
    obtain ⟨least, most⟩ := bounds_of_excess few
    have power : 0 < Nat.pow 2 (e + 1) := Nat.pow_pos (by decide)
    have bitCount : steps.log2 = 52 + (e + 1) := by
      unfold excess at more
      omega
    rw [more] at bits least most odd
    obtain ⟨m, rfl⟩ := bits
    rw [Nat.mul_comm _ m] at *
    by_cases lowest : m * Nat.pow 2 (e + 1) = Nat.pow 2 (m * Nat.pow 2 (e + 1)).log2
    · have ends : gaps (m * Nat.pow 2 (e + 1)) = (Nat.pow 2 e, Nat.pow 2 (e + 1)) := by
        have half : Nat.pow 2 (e + 1) / 2 = Nat.pow 2 e := by
          rw [show Nat.pow 2 (e + 1) = Nat.pow 2 e * 2 from rfl]
          omega
        simp only [gaps, more, half]
        rw [if_pos ⟨by omega, lowest⟩]
      have first : m * Nat.pow 2 (e + 1) = Nat.pow 2 52 * Nat.pow 2 (e + 1) := by
        rw [lowest, bitCount]
        exact Nat.pow_add 2 52 (e + 1)
      rw [ends, first] at low high
      rw [first]
      exact nearest_of_power positive low high
    · have ends : gaps (m * Nat.pow 2 (e + 1)) = (Nat.pow 2 (e + 1), Nat.pow 2 (e + 1)) := by
        simp only [gaps, more]
        rw [if_neg fun both => lowest both.2]
      have lower : Nat.pow 2 52 ≤ m := Nat.le_of_mul_le_mul_right least power
      have upper : m < Nat.pow 2 53 := Nat.lt_of_mul_lt_mul_right most
      have above : Nat.pow 2 52 < m := by
        refine lower.lt_of_ne fun same => lowest ?_
        rw [bitCount, ← same]
        exact (Nat.pow_add 2 52 (e + 1)).symm
      rw [ends] at low high odd
      rw [Nat.mul_div_cancel m power] at odd
      simp only [Nat.sub_mul, Nat.add_mul, Nat.mul_assoc 2] at low high odd
      refine nearest_of_normal above upper positive (by omega) high fun uneven => ?_
      obtain ⟨strict, below⟩ := odd uneven
      exact ⟨by omega, below⟩

theorem gaps_wide (steps : Nat) :
    0 < (gaps steps).1 ∧ (gaps steps).1 ≤ (gaps steps).2 ∧
      steps ≤ Nat.pow 2 53 * (gaps steps).1 := by
  by_cases few : excess steps = 0
  · have small := lt_of_excess few
    have ends : gaps steps = (1, 1) := by simp [gaps, few]
    rw [ends]
    exact ⟨by decide, by decide, by omega⟩
  · obtain ⟨e, more⟩ : ∃ e, excess steps = e + 1 := ⟨excess steps - 1, by omega⟩
    obtain ⟨_, most⟩ := bounds_of_excess few
    have power : 0 < Nat.pow 2 e := Nat.pow_pos (by decide)
    have twice : Nat.pow 2 (e + 1) = Nat.pow 2 e * 2 := rfl
    rw [more, twice] at most
    by_cases lowest : steps = Nat.pow 2 steps.log2
    · have bitCount : steps.log2 = 53 + e := by
        unfold excess at more
        omega
      have ends : gaps steps = (Nat.pow 2 e, Nat.pow 2 (e + 1)) := by
        have half : Nat.pow 2 (e + 1) / 2 = Nat.pow 2 e := by omega
        simp only [gaps, more, half]
        rw [if_pos ⟨by omega, lowest⟩]
      have same : steps = Nat.pow 2 53 * Nat.pow 2 e := by
        rw [lowest, bitCount]
        exact Nat.pow_add 2 53 e
      rw [ends]
      exact ⟨power, by simp only; omega, same.le⟩
    · have ends : gaps steps = (Nat.pow 2 (e + 1), Nat.pow 2 (e + 1)) := by
        simp only [gaps, more]
        rw [if_neg fun both => lowest both.2]
      rw [ends]
      refine ⟨by simp only; omega, Nat.le_refl _, ?_⟩
      rw [twice]
      exact most.le

theorem readsBack_of_fine {steps : Nat} {g : Grid} (positive : 0 < g.den)
    (fine : g.den * Nat.pow 10 16 ≤ steps * g.scale) :
    readsBack steps g (roundDiv (steps * g.scale) g.den) = true := by
  obtain ⟨some, narrow, wide⟩ := gaps_wide steps
  obtain ⟨above, below⟩ := roundDiv_close (steps * g.scale) positive
  have scaled : steps * g.scale ≤ Nat.pow 2 53 * ((gaps steps).1 * g.scale) := by
    rw [← Nat.mul_assoc]
    exact Nat.mul_le_mul_right _ wide
  have wider : (gaps steps).1 * g.scale ≤ (gaps steps).2 * g.scale :=
    Nat.mul_le_mul_right _ narrow
  have digits : Nat.pow 10 16 = 10000000000000000 := by decide
  have bits : Nat.pow 2 53 = 9007199254740992 := by decide
  rw [digits] at fine
  rw [bits] at scaled
  have strict : (2 * steps - (gaps steps).1) * g.scale <
        2 * roundDiv (steps * g.scale) g.den * g.den ∧
      2 * roundDiv (steps * g.scale) g.den * g.den < (2 * steps + (gaps steps).2) * g.scale := by
    rw [Nat.sub_mul, Nat.add_mul, Nat.mul_assoc 2 steps, Nat.mul_assoc 2 (roundDiv _ _)]
    omega
  simp only [readsBack]
  split
  · simp only [Bool.and_eq_true, decide_eq_true_eq]
    exact ⟨strict.1.le, strict.2.le⟩
  · simp only [Bool.and_eq_true, decide_eq_true_eq]
    exact strict

/-- Powers of two and of ten: thirteen bits are less than four digits. -/
theorem two_pow_le_ten_pow {a b : Nat} (k : Nat) (first : a ≤ 13 * k) (second : 4 * k ≤ b) :
    Nat.pow 2 a ≤ Nat.pow 10 b :=
  calc
    2 ^ a ≤ 2 ^ (13 * k) := Nat.pow_le_pow_right (by decide) first
    _ = (2 ^ 13) ^ k := Nat.pow_mul ..
    _ ≤ (10 ^ 4) ^ k := Nat.pow_le_pow_left (by decide) k
    _ = 10 ^ (4 * k) := (Nat.pow_mul ..).symm
    _ ≤ 10 ^ b := Nat.pow_le_pow_right (by decide) second

theorem width_pos (n : Nat) : 0 < Decimal.width n := Nat.length_toDigits_pos

theorem lt_pow_width (n : Nat) : n < Nat.pow 10 (Decimal.width n) :=
  (Nat.length_toDigits_le_iff (by decide) (width_pos n)).mp (Nat.le_refl _)

theorem pow_width_le {n : Nat} (given : n ≠ 0) : Nat.pow 10 (Decimal.width n - 1) ≤ n := by
  by_cases one : Decimal.width n = 1
  · rw [one]
    exact Nat.pos_of_ne_zero given
  · have several : 0 < Decimal.width n - 1 := by
      have some := width_pos n
      omega
    by_contra less
    have short := (Nat.length_toDigits_le_iff (b := 10) (n := n) (by decide) several).mpr
      (Nat.lt_of_not_le less)
    change Decimal.width n ≤ _ at short
    omega

theorem fine_of_width {one steps places w : Nat} (filled : 0 < w)
    (least : Nat.pow 10 (w - 1) * one ≤ steps * Nat.pow 10 places) :
    (w < places + 17 → one * Nat.pow 10 16 ≤ steps * Nat.pow 10 (places + 17 - w)) ∧
      (places + 17 ≤ w → one * Nat.pow 10 (w - (places + 17)) * Nat.pow 10 16 ≤ steps) := by
  have sum (a b : Nat) : Nat.pow 10 (a + b) = Nat.pow 10 a * Nat.pow 10 b := Nat.pow_add 10 a b
  have some (a : Nat) : 0 < Nat.pow 10 a := Nat.pow_pos (by decide)
  constructor
  · intro below
    have split : Nat.pow 10 (places + 17 - w) * Nat.pow 10 (w - 1) =
        Nat.pow 10 places * Nat.pow 10 16 := by
      rw [← sum, ← sum]
      congr 1
      omega
    refine Nat.le_of_mul_le_mul_right ?_ (some (w - 1))
    calc
      one * Nat.pow 10 16 * Nat.pow 10 (w - 1) =
          Nat.pow 10 (w - 1) * one * Nat.pow 10 16 := by ring
      _ ≤ steps * Nat.pow 10 places * Nat.pow 10 16 := Nat.mul_le_mul_right _ least
      _ = steps * Nat.pow 10 (places + 17 - w) * Nat.pow 10 (w - 1) := by
        rw [Nat.mul_assoc, Nat.mul_assoc, split]
  · intro above
    have split : Nat.pow 10 (w - 1) =
        Nat.pow 10 (w - (places + 17)) * Nat.pow 10 16 * Nat.pow 10 places := by
      rw [← sum, ← sum]
      congr 1
      omega
    refine Nat.le_of_mul_le_mul_right ?_ (some places)
    rw [split] at least
    calc
      one * Nat.pow 10 (w - (places + 17)) * Nat.pow 10 16 * Nat.pow 10 places =
          Nat.pow 10 (w - (places + 17)) * Nat.pow 10 16 * Nat.pow 10 places * one := by ring
      _ ≤ steps * Nat.pow 10 places := least

theorem grid_pos (exponent : Int) : 0 < (grid exponent).den ∧ 0 < (grid exponent).scale := by
  have some (a : Nat) : 0 < Nat.pow 10 a := Nat.pow_pos (by decide)
  have one := unit_pos
  unfold grid
  generalize unit = step at one ⊢
  split
  · exact ⟨one, some _⟩
  · exact ⟨Nat.mul_pos one (some _), Nat.one_pos⟩

theorem unit_le_ten_pow : unit ≤ Nat.pow 10 350 := by
  have bits : 1074 ≤ 13 * 83 := by decide
  have digits : 4 * 83 ≤ 350 := by decide
  unfold unit
  generalize 1074 = a, 350 = b at bits digits ⊢
  exact two_pow_le_ten_pow 83 bits digits

theorem limit_le_ten_pow : limit ≤ Nat.pow 10 400 * unit := by
  have split : 2098 = 1024 + 1074 := rfl
  have bits : 1024 ≤ 13 * 79 := by decide
  have digits : 4 * 79 ≤ 400 := by decide
  unfold unit limit
  generalize 2098 = total, 1074 = half, 1024 = a, 400 = b at split bits digits ⊢
  subst split
  calc
    Nat.pow 2 (a + half) = Nat.pow 2 a * Nat.pow 2 half := Nat.pow_add 2 a half
    _ ≤ Nat.pow 10 b * Nat.pow 2 half :=
      Nat.mul_le_mul_right _ (two_pow_le_ten_pow 79 bits digits)

theorem twice_unit_le_ten_pow : 2 * unit ≤ Nat.pow 10 400 := by
  have bits : 1074 + 1 ≤ 13 * 83 := by decide
  have digits : 4 * 83 ≤ 400 := by decide
  unfold unit
  generalize 1074 = a, 400 = b at bits digits ⊢
  calc
    2 * Nat.pow 2 a = Nat.pow 2 (a + 1) := Nat.pow_succ'.symm
    _ ≤ Nat.pow 10 b := two_pow_le_ten_pow 83 bits digits

theorem order_fine {steps : Nat} (given : steps ≠ 0) :
    (grid (order steps - 16)).den * Nat.pow 10 16 ≤ steps * (grid (order steps - 16)).scale := by
  have first := unit_le_ten_pow
  have positive := unit_pos
  have offset : (351 : Int) = (350 : Nat) + 1 := rfl
  unfold order
  rw [offset]
  generalize 350 = places at first ⊢
  have filled : steps * Nat.pow 10 places / unit ≠ 0 := by
    have enough : unit ≤ steps * Nat.pow 10 places :=
      first.trans (Nat.le_mul_of_pos_left _ (Nat.pos_of_ne_zero given))
    exact (Nat.div_pos enough positive).ne'
  have least := (Nat.le_div_iff_mul_le positive).mp (pow_width_le filled)
  have some := width_pos (steps * Nat.pow 10 places / unit)
  generalize Decimal.width (steps * Nat.pow 10 places / unit) = w at least some
  obtain ⟨below, above⟩ := fine_of_width some least
  unfold grid
  generalize unit = step at below above
  by_cases low : w < places + 17
  · have exponent : (w : Int) - (places + 1) - 16 < 0 := by omega
    have size : ((w : Int) - (places + 1) - 16).natAbs = places + 17 - w := by omega
    simp only [exponent, if_true, size]
    exact below low
  · have exponent : ¬(w : Int) - (places + 1) - 16 < 0 := by omega
    have size : ((w : Int) - (places + 1) - 16).natAbs = w - (places + 17) := by omega
    simp only [exponent, if_false, size, Nat.mul_one]
    exact above (by omega)

theorem onGrid?_readsBack {steps : Nat} {exponent : Int} {d : Decimal}
    (found : onGrid? steps exponent = some d) :
    readsBack steps (grid d.exponent) d.digits = true := by
  unfold onGrid? at found
  simp only at found
  generalize (if roundDiv (steps * (grid exponent).scale) (grid exponent).den = _ then _ else _) =
    far at found
  split at found
  · rename_i reads
    cases found
    exact reads
  · split at found
    · rename_i reads
      cases found
      exact reads
    · cases found

theorem shortestFrom_readsBack {steps : Nat} (given : steps ≠ 0) (counts : List Nat) :
    readsBack steps (grid (shortestFrom steps counts).exponent)
      (shortestFrom steps counts).digits = true := by
  induction counts with
  | nil =>
      have close := readsBack_of_fine (grid_pos (order steps - 16)).1 (order_fine given)
      have found : onGrid? steps (order steps - 16) =
          some ⟨roundDiv (steps * (grid (order steps - 16)).scale) (grid (order steps - 16)).den,
            order steps - 16⟩ := by
        simp only [onGrid?, close, if_true]
      rw [shortestFrom, found]
      exact close
  | cons count counts ih =>
      rw [shortestFrom]
      split
      · rename_i found
        exact onGrid?_readsBack found
      · exact ih

theorem limit_le_of_large {digits : Nat} {exponent : Int} (given : digits ≠ 0)
    (large : 400 < exponent + Decimal.width digits) :
    limit * (grid exponent).scale ≤ digits * (grid exponent).den := by
  have wide := limit_le_ten_pow
  have least := pow_width_le given
  have filled := width_pos digits
  have sum (a b : Nat) : Nat.pow 10 (a + b) = Nat.pow 10 a * Nat.pow 10 b := Nat.pow_add 10 a b
  have literal : (400 : Int) = (400 : Nat) := rfl
  rw [literal] at large
  unfold grid
  generalize limit = top, unit = step, 400 = places at wide large ⊢
  by_cases small : exponent < 0
  · simp only [small, if_true]
    have enough : Nat.pow 10 places * Nat.pow 10 exponent.natAbs ≤ digits := by
      rw [← sum]
      exact (Nat.pow_le_pow_right (by decide) (by omega)).trans least
    calc
      top * Nat.pow 10 exponent.natAbs ≤
          Nat.pow 10 places * step * Nat.pow 10 exponent.natAbs := Nat.mul_le_mul_right _ wide
      _ = Nat.pow 10 places * Nat.pow 10 exponent.natAbs * step := by ring
      _ ≤ digits * step := Nat.mul_le_mul_right _ enough
  · simp only [small, if_false, Nat.mul_one]
    have enough : Nat.pow 10 places ≤ digits * Nat.pow 10 exponent.natAbs := by
      refine le_trans ?_ (Nat.mul_le_mul_right _ least)
      rw [← sum]
      exact Nat.pow_le_pow_right (by decide) (by omega)
    calc
      top ≤ Nat.pow 10 places * step := wide
      _ ≤ digits * Nat.pow 10 exponent.natAbs * step := Nat.mul_le_mul_right _ enough
      _ = digits * (step * Nat.pow 10 exponent.natAbs) := by ring

theorem lt_of_tiny {digits : Nat} {exponent : Int}
    (tiny : exponent + Decimal.width digits < -400) :
    2 * (digits * (grid exponent).den) < (grid exponent).scale := by
  have narrow := twice_unit_le_ten_pow
  have most := lt_pow_width digits
  have positive := unit_pos
  have small : exponent < 0 := by omega
  have literal : (400 : Int) = (400 : Nat) := rfl
  rw [literal] at tiny
  unfold grid
  generalize unit = step, 400 = places at narrow tiny positive ⊢
  simp only [small, if_true]
  calc
    2 * (digits * step) = digits * (2 * step) := by ring
    _ < Nat.pow 10 (Decimal.width digits) * (2 * step) :=
      Nat.mul_lt_mul_of_pos_right most (by omega)
    _ ≤ Nat.pow 10 (Decimal.width digits) * Nat.pow 10 places := Nat.mul_le_mul_left _ narrow
    _ = Nat.pow 10 (Decimal.width digits + places) := (Nat.pow_add 10 _ _).symm
    _ ≤ Nat.pow 10 exponent.natAbs := Nat.pow_le_pow_right (by decide) (by omega)

theorem ofSteps_of_large (negative : Bool) {num den : Nat} (positive : 0 < den)
    (large : limit * den ≤ num) : ofSteps negative num den = infinity negative := by
  have rounded : limit ≤ nearest num den := by
    have wide : 53 ≤ 2098 := by decide
    unfold limit at large ⊢
    generalize 2098 = bound at wide large ⊢
    exact le_nearest positive wide large
  simp only [ofSteps, Nat.not_lt.mpr rounded, if_false]

theorem ofSteps_of_tiny (negative : Bool) {num den : Nat} (tiny : 2 * num < den) :
    ofSteps negative num den = zero negative := by
  simp only [ofSteps, nearest_of_tiny tiny, limit_pos, if_true, zero]

theorem ofDecimal_eq (negative : Bool) (d : Decimal) :
    ofDecimal negative d =
      ofSteps negative (d.digits * (grid d.exponent).den) (grid d.exponent).scale := by
  obtain ⟨digits, exponent⟩ := d
  have positive := (grid_pos exponent).2
  by_cases none : digits = 0
  · have tiny : 2 * (digits * (grid exponent).den) < (grid exponent).scale := by
      rw [none, Nat.zero_mul]
      exact positive
    rw [ofDecimal, if_pos none, ofSteps_of_tiny negative tiny]
  · rw [ofDecimal, if_neg none]
    simp only
    by_cases large : 400 < exponent + Decimal.width digits
    · rw [if_pos large, ofSteps_of_large negative positive (limit_le_of_large none large)]
    · rw [if_neg large]
      by_cases tiny : exponent + Decimal.width digits < -400
      · rw [if_pos tiny, ofSteps_of_tiny negative (lt_of_tiny tiny)]
      · rw [if_neg tiny, grid]
        generalize unit = step
        by_cases small : exponent < 0
        · simp only [small, if_true]
        · simp only [small, if_false]
          rw [Nat.mul_assoc, Nat.mul_comm (Nat.pow 10 _)]

theorem nearest_shortest {steps : Nat} (given : steps ≠ 0)
    (bits : Nat.pow 2 (excess steps) ∣ steps) :
    nearest ((shortest steps).digits * (grid (shortest steps).exponent).den)
      (grid (shortest steps).exponent).scale = steps := by
  unfold shortest
  exact nearest_of_readsBack bits (grid_pos _).2 (shortestFrom_readsBack given _)

theorem ofDecimal_shortest {negative : Bool} {steps : Nat} (given : steps ≠ 0)
    (small : steps < limit) (bits : Nat.pow 2 (excess steps) ∣ steps) :
    ofDecimal negative (shortest steps) = finite negative steps := by
  rw [ofDecimal_eq, ofSteps]
  simp only [nearest_shortest given bits, small, if_true]

theorem shortest_digits_ne_zero {steps : Nat} (given : steps ≠ 0)
    (bits : Nat.pow 2 (excess steps) ∣ steps) : (shortest steps).digits ≠ 0 := by
  intro none
  have rounded := nearest_shortest given bits
  rw [none, Nat.zero_mul, nearest_of_tiny (by simpa using (grid_pos _).2)] at rounded
  exact given rounded.symm

end ThrustBench.Binary64
