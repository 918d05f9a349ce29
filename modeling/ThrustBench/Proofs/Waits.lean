import ThrustBench.Proofs.Acts
import ThrustBench.Proofs.ClosestDoubles
import ThrustBench.Proofs.OrderedDoubles

/-!
How a wait ends.  The machine looks at the clock to see whether the wait is over, and looks again
to see how much of it is left; time may pass at each look.  A wait ends once the time is reached,
or because a stop is asked for, or in a failure: exactly if the time is reached between the two
looks of one turn, since what is left is then negative.
-/

namespace ThrustBench

namespace Binary64

theorem nearest_pos {k : Nat} (given : 0 < k) : 0 < nearest k 1 := by
  have one : nearest 1 1 = 1 := nearest_of_bits (by rw [excess_of_small (by decide)])
  rw [← Nat.succ_le_iff, ← one]
  exact nearest_mono 1 given

theorem ofSteps_sides (negative : Bool) {k : Nat} (given : 0 < k) :
    (ofSteps negative k 1).lt (zero false) = negative ∧
      (zero false).lt (ofSteps negative k 1) = !negative := by
  have size := nearest_pos given
  by_cases few : nearest k 1 < limit
  · cases negative <;> simp [ofSteps, few, lt, zero, signed, size]
  · cases negative <;> simp [ofSteps, few, lt, zero]

theorem sub_sides {y : Binary64} (a : Bool) (m : Nat) (given : y ≠ nan) :
    ((finite a m).sub y).lt (zero false) = (finite a m).lt y ∧
      (zero false).lt ((finite a m).sub y) = y.lt (finite a m) := by
  cases y with
  | nan => exact absurd rfl given
  | infinity b => cases b <;> simp [sub, neg, add, lt, zero]
  | finite b n =>
      have opposite : signed (!b) n = -signed b n := by cases b <;> simp [signed]
      have first : (finite a m).lt (finite b n) = decide (signed a m < signed b n) := rfl
      have second : (finite b n).lt (finite a m) = decide (signed b n < signed a m) := rfl
      rw [first, second, sub, neg, add, opposite]
      generalize signed a m = x
      generalize signed b n = z
      by_cases same : x + -z = 0
      · have equal : x = z := by omega
        simp [lt, zero, signed, equal]
      · have sides := ofSteps_sides (decide (x + -z < 0)) (show 0 < (x + -z).natAbs by omega)
        rw [if_neg same, sides.1, sides.2, ← decide_not, decide_eq_decide, decide_eq_decide]
        omega

theorem sub_ne_nan {y : Binary64} (a : Bool) (m : Nat) (given : y ≠ nan) :
    (finite a m).sub y ≠ nan := by
  cases y with
  | nan => exact absurd rfl given
  | infinity b => simp [sub, neg, add]
  | finite b n =>
      rw [sub, neg, add]
      split
      · simp [zero]
      · rw [ofSteps]
        split <;> simp

theorem min_sides {x y : Binary64} (positive : (zero false).lt x = true) (given : y ≠ nan) :
    (x.min y).lt (zero false) = y.lt (zero false) ∧
      (zero false).lt (x.min y) = (zero false).lt y := by
  have known : x ≠ nan := by
    rintro rfl
    simp [lt, zero] at positive
  by_cases smaller : y.lt x = true
  · simp [min, smaller]
  · rw [Bool.not_eq_true] at smaller
    have above : x.lt (zero false) = false := by
      cases x with
      | nan => rfl
      | infinity b => cases b <;> simp_all [lt, zero]
      | finite b n =>
          cases b <;> simp [lt, zero, signed] at positive ⊢
          omega
    have after : y.lt (zero false) = false := by
      by_contra before
      rw [Bool.not_eq_false] at before
      rw [lt_of_lt_of_not_lt before above known] at smaller
      exact Bool.noConfusion smaller
    simp [min, smaller, above, after, positive, lt_of_lt_of_not_lt positive smaller given]

protected theorem le_trans {x y z : Binary64} (first : x.le y = true) (second : y.le z = true) :
    x.le z = true := by
  rw [le_iff] at *
  obtain ⟨a, here, b, between, low⟩ := first
  obtain ⟨b', between', c, there, high⟩ := second
  obtain rfl : b = b' := Option.some.inj (between.symm.trans between')
  exact ⟨a, here, c, there, low.trans high⟩

protected theorem not_lt_of_le {x y : Binary64} (le : x.le y = true) : y.lt x = false := by
  rw [Bool.eq_false_iff, ne_eq, lt_iff]
  rintro ⟨b, there, a, here, less⟩
  obtain ⟨a', here', b', there', order⟩ := (le_iff x y).mp le
  obtain rfl : a = a' := Option.some.inj (here.symm.trans here')
  obtain rfl : b = b' := Option.some.inj (there.symm.trans there')
  exact absurd less order.not_gt

theorem le_two_mul_nearest (x : Nat) : x ≤ 2 * nearest x 1 := by
  have grain : 0 < 1 * Nat.pow 2 (excess (x / 1)) :=
    Nat.mul_pos Nat.one_pos (Nat.pow_pos (by decide))
  have close := (roundDiv_close x grain).2
  have rounded := nearest_eq x 1
  have size (more : excess x ≠ 0) := (bounds_of_excess more).1
  simp only [Nat.div_one, Nat.one_mul] at close rounded
  rw [← rounded] at close
  by_cases more : excess x = 0
  · rw [more, show Nat.pow 2 0 = 1 from rfl] at close
    omega
  · have wide : 2 * Nat.pow 2 (excess x) ≤ Nat.pow 2 52 * Nat.pow 2 (excess x) :=
      Nat.mul_le_mul_right _ (by decide)
    have least := size more
    omega

theorem ofSteps_of_lt {negative : Bool} {num den : Nat} (small : nearest num den < limit) :
    ofSteps negative num den = finite negative (nearest num den) := by
  simp only [ofSteps, small, if_true]

theorem div_finite {a : Bool} {k n : Nat} (given : n ≠ 0) :
    (finite a k).div (finite false n) = ofSteps a (k * unit) n := by
  rw [div, if_neg given, Bool.xor_false]

theorem le_ofSteps {steps num den : Nat} (negative : Bool) (enough : steps ≤ nearest num den) :
    (finite negative steps).le (ofSteps false num den) = true := by
  rw [ofSteps]
  split
  · cases negative <;> simp [le, lt, eq, signed] <;> omega
  · rfl

end Binary64

namespace Clock

open Binary64

theorem ofInt_million : ofInt 1000000 = finite false (1000000 * unit) := by
  rw [ofInt_of_small (by decide)]
  simp

theorem million_pos : 0 < 1000000 * unit := Nat.mul_pos (by decide) unit_pos

theorem le_seconds {negative : Bool} {steps : Nat} (held : (finite negative steps).Representable)
    {now : Int} (late : (2 * (steps * 1000000 / unit + 1) : Nat) ≤ now) :
    (finite negative steps).le (seconds now) = true := by
  refine Binary64.le_trans ?_ (seconds_mono late)
  have whole (k : Nat) : ofInt k = ofSteps false (k * unit) 1 := by
    have above : ¬(k : Int) < 0 := by omega
    rw [ofInt, ofQuotient, Int.natAbs_natCast, decide_eq_false above]
  rw [seconds, ofInt_million, whole, ofSteps]
  split
  · -- the quotient still covers the time after both roundings
    have most : steps * 1000000 < unit * (steps * 1000000 / unit + 1) :=
      Nat.lt_mul_div_succ _ unit_pos
    have half := le_two_mul_nearest (2 * (steps * 1000000 / unit + 1) * unit)
    rw [div_finite million_pos.ne']
    refine le_ofSteps negative ?_
    have kept : nearest (steps * (1000000 * unit)) (1 * (1000000 * unit)) = steps := by
      cases held with
      | finite small bits =>
          rw [nearest_scale million_pos, nearest_of_bits bits]
    rw [Nat.one_mul, ← Nat.mul_assoc] at kept
    refine kept.ge.trans ?_
    refine nearest_mono _ (Nat.mul_le_mul_right unit ?_)
    generalize steps * 1000000 / unit + 1 = whole at *
    have total : 2 * whole * unit = 2 * (unit * whole) := by ring
    omega
  · rfl

def InRange (c : Clock) : Prop := c.now.natAbs ≤ Nat.pow 2 63

theorem nearest_range {den : Nat} (positive : 0 < den) :
    nearest (Nat.pow 2 63 * unit * den) den = Nat.pow 2 63 * unit := by
  have scaled := nearest_scale positive (Nat.pow 2 63 * unit) 1
  rw [Nat.one_mul] at scaled
  rw [scaled]
  unfold unit
  generalize 1074 = exponent
  have whole : Nat.pow 2 63 * Nat.pow 2 exponent = 1 * Nat.pow 2 (63 + exponent) := by
    rw [Nat.one_mul]
    exact (Nat.pow_add 2 63 exponent).symm
  rw [whole]
  exact nearest_shifted _ (by decide)

theorem range_lt_limit : Nat.pow 2 64 * unit * Nat.pow 2 53 < limit := by
  have room : 64 + 1074 + 53 < 2098 := by decide
  unfold unit limit
  generalize 1074 = exponent, 2098 = bound at room ⊢
  have product : Nat.pow 2 64 * Nat.pow 2 exponent * Nat.pow 2 53 =
      Nat.pow 2 (64 + exponent + 53) := by
    rw [show Nat.pow 2 (64 + exponent + 53) = 2 ^ (64 + exponent + 53) from rfl, Nat.pow_add,
      Nat.pow_add]
    rfl
  rw [product]
  exact Nat.pow_lt_pow_right (by decide) room

theorem seconds_of_range {c : Clock} (range : c.InRange) :
    ∃ sign steps, seconds c.now = finite sign steps ∧ steps ≤ Nat.pow 2 63 * unit := by
  have inside : Nat.pow 2 63 * unit < limit := by
    refine lt_of_le_of_lt ?_ range_lt_limit
    exact (Nat.mul_le_mul_right unit (by decide)).trans (Nat.le_mul_of_pos_right _ (by decide))
  have first : nearest (c.now.natAbs * unit) 1 ≤ Nat.pow 2 63 * unit := by
    rw [← nearest_range Nat.one_pos, Nat.mul_one]
    exact nearest_mono 1 (Nat.mul_le_mul_right unit range)
  have second : nearest (nearest (c.now.natAbs * unit) 1 * unit) (1000000 * unit) ≤
      Nat.pow 2 63 * unit := by
    rw [← nearest_range million_pos]
    exact nearest_mono _ (Nat.mul_le_mul first (Nat.le_mul_of_pos_left unit (by decide)))
  refine ⟨decide (c.now < 0), _, ?_, second⟩
  rw [seconds, ofInt_million, ofInt, ofQuotient, ofSteps_of_lt (first.trans_lt inside),
    div_finite million_pos.ne', ofSteps_of_lt (second.trans_lt inside)]

theorem exists_finish {c : Clock} (range : c.InRange) {negative : Bool} {steps : Nat}
    (held : (finite negative steps).Representable) :
    ∃ sign total, (seconds c.now).add (finite negative steps) = finite sign total := by
  obtain ⟨sign, start, begins, early⟩ := seconds_of_range range
  obtain ⟨e, carried, -⟩ := exists_limit_eq
  have room : Nat.pow 2 64 * unit < Nat.pow 2 e := by
    have more := range_lt_limit
    rw [carried, Nat.mul_comm] at more
    exact Nat.lt_of_mul_lt_mul_left more
  cases held with
  | finite small bits =>
      rw [carried] at small
      have most := le_of_bits bits small
      have size : (signed sign start + signed negative steps).natAbs ≤ start + steps := by
        cases sign <;> cases negative <;> simp only [signed] <;> omega
      have inside : nearest (signed sign start + signed negative steps).natAbs 1 < limit := by
        by_contra outside
        rw [carried, not_lt, carried_le_nearest_iff _ Nat.one_pos, Nat.mul_one] at outside
        have double : Nat.pow 2 64 = 2 * Nat.pow 2 63 := by decide
        have last : Nat.pow 2 54 - 1 = 2 * (Nat.pow 2 53 - 1) + 1 := by decide
        rw [double, Nat.mul_assoc] at room
        rw [last, Nat.add_mul, Nat.mul_assoc, Nat.one_mul] at outside
        clear double last range begins carried bits small
        generalize Nat.pow 2 63 * unit = reach at *
        generalize (Nat.pow 2 53 - 1) * Nat.pow 2 e = top at *
        generalize Nat.pow 2 e = grain at *
        omega
      rw [begins, add]
      split
      · exact ⟨_, _, rfl⟩
      · exact ⟨_, _, ofSteps_of_lt inside⟩

end Clock

namespace Routine

def Machine.later (m : Machine) (passed : Int) : Machine :=
  { m with clock := m.clock.advance passed }

def Machine.asked (m : Machine) : Machine := { m with checks := m.checks + 1 }

namespace Act

def lookPassing (passed : Int) : Act Binary64 := modifyGet fun m =>
  (Clock.seconds m.clock.now, m.later passed)

/-- Sleeps up to a time by a clock at whose look number `k` the time `drift k` passes. -/
def sleepUntilBy (drift : Nat → Int) (finish : Binary64) : Nat → Nat → Act Unit
  | 0, _ => throw .neverEnds
  | bound + 1, looks => do
    if (← lookPassing (drift looks)).lt finish then
      if ← stopAsked then throw (.interrupted "Execution stopped")
      sleep (stretch.min (finish.sub (← lookPassing (drift (looks + 1)))))
      sleepUntilBy drift finish bound (looks + 2)

def waitBy (drift : Nat → Int) (seconds : Binary64) : Act Unit := do
  log ("[WAIT] " ++ seconds.text ++ " s")
  let finish := (← lookPassing (drift 0)).add seconds
  sleepUntilBy drift finish (stretches (← get) finish) 1

end Act

theorem perform_lookPassing (passed : Int) (m : Machine) :
    (Act.lookPassing passed).perform m = (.ok (Clock.seconds m.clock.now), m.later passed) := rfl

theorem perform_asked (m : Machine) :
    Act.stopAsked.perform m = (.ok m.asked.stopped, m.asked) := rfl

theorem perform_sleep (seconds : Binary64) (m : Machine) :
    (Act.sleep seconds).perform m =
      if seconds.lt (.zero false) then (.error .negativeSleep, m)
      else (.ok (), { m with clock := m.clock.wait seconds }) := by
  rw [Act.sleep]
  cases seconds.lt (.zero false) with
  | true => rfl
  | false => rfl

section Turns

variable {drift : Nat → Int} {finish : Binary64} {looks : Nat} {m : Machine}

def turned (drift : Nat → Int) (finish : Binary64) (looks : Nat) (m : Machine) : Machine :=
  let n := (m.later (drift looks)).asked.later (drift (looks + 1))
  let left := finish.sub (Clock.seconds (m.clock.now + drift looks))
  { n with clock := n.clock.wait (Act.stretch.min left) }

theorem perform_turn (drift : Nat → Int) (finish : Binary64) (bound looks : Nat) (m : Machine) :
    (Act.sleepUntilBy drift finish (bound + 1) looks).perform m =
      if (Clock.seconds m.clock.now).lt finish then
        if m.asked.stopped then
          (.error (.interrupted "Execution stopped"), (m.later (drift looks)).asked)
        else if (Act.stretch.min (finish.sub (Clock.seconds (m.clock.now + drift looks)))).lt
            (.zero false) then
          (.error .negativeSleep, (m.later (drift looks)).asked.later (drift (looks + 1)))
        else (Act.sleepUntilBy drift finish bound (looks + 2)).perform (turned drift finish looks m)
      else (.ok (), m.later (drift looks)) := by
  rw [Act.sleepUntilBy, perform_bind, perform_lookPassing]
  simp only
  split
  · rw [perform_bind, perform_asked]
    simp only
    have same : (m.later (drift looks)).asked.stopped = m.asked.stopped := rfl
    rw [same]
    cases m.asked.stopped with
    | true => rfl
    | false =>
        simp only [Bool.false_eq_true, if_false]
        rw [perform_bind, perform_lookPassing]
        simp only
        have second : (m.later (drift looks)).asked.clock.now = m.clock.now + drift looks := rfl
        rw [perform_bind, perform_sleep, second, turned]
        cases (Act.stretch.min (finish.sub (Clock.seconds (m.clock.now + drift looks)))).lt
            (.zero false) with
        | true => simp only [if_true]
        | false => simp only [Bool.false_eq_true, if_false]
  · rfl

end Turns

section Steady

variable {α β : Type} {tick : Int} {drift : Nat → Int}

def SameAt (tick : Int) (first second : Act α) : Prop :=
  ∀ m, m.clock.tick = tick →
    first.perform m = second.perform m ∧ (second.perform m).2.clock.tick = tick

theorem SameAt.bind {first second : Act α} {f g : α → Act β} (same : SameAt tick first second)
    (later : ∀ a, SameAt tick (f a) (g a)) : SameAt tick (first >>= f) (second >>= g) := by
  intro m steady
  obtain ⟨equal, kept⟩ := same m steady
  rw [perform_bind, perform_bind, equal]
  rcases done : second.perform m with ⟨result, n⟩
  rw [done] at kept
  cases result with
  | error fault => exact ⟨rfl, kept⟩
  | ok a => exact later a n kept

theorem SameAt.time (passes : drift looks = tick) :
    SameAt tick (Act.lookPassing (drift looks)) Act.time := by
  rintro m rfl
  rw [perform_time, perform_lookPassing, passes]
  simp only [Clock.look, Machine.later, Clock.advance, and_self]

theorem SameAt.asked : SameAt tick Act.stopAsked Act.stopAsked :=
  fun _ steady => ⟨rfl, steady⟩

theorem SameAt.throw (fault : Fault) :
    SameAt tick (MonadExcept.throw fault : Act α) (MonadExcept.throw fault) :=
  fun _ steady => ⟨rfl, steady⟩

theorem SameAt.sleep (seconds : Binary64) :
    SameAt tick (Act.sleep seconds) (Act.sleep seconds) := by
  intro m steady
  refine ⟨rfl, ?_⟩
  rw [perform_sleep]
  split
  · exact steady
  · unfold Clock.wait
    split
    · exact steady
    · exact steady

theorem sleepUntilBy_same (steady : ∀ k, drift k = tick) (finish : Binary64) (bound looks : Nat) :
    SameAt tick (Act.sleepUntilBy drift finish bound looks) (Act.sleepUntil finish bound) := by
  induction bound generalizing looks with
  | zero => exact .throw _
  | succ bound ih =>
      rw [Act.sleepUntilBy, Act.sleepUntil]
      have rest := (SameAt.time (steady (looks + 1))).bind fun again =>
        (SameAt.sleep (Act.stretch.min (finish.sub again))).bind fun _ => ih (looks + 2)
      refine (SameAt.time (steady looks)).bind fun now => ?_
      split
      · refine SameAt.asked.bind fun stopped => ?_
        cases stopped with
        | true => exact (SameAt.throw _).bind fun _ => rest
        | false => exact rest
      · exact fun m kept => ⟨rfl, kept⟩

theorem waitBy_eq {m : Machine} (steady : ∀ k, drift k = m.clock.tick) (seconds : Binary64) :
    (Act.waitBy drift seconds).perform m = (Act.wait seconds).perform m := by
  have same : SameAt m.clock.tick (Act.waitBy drift seconds) (Act.wait seconds) := by
    rw [Act.waitBy, Act.wait, Act.pause]
    refine SameAt.bind (fun n kept => ⟨rfl, kept⟩) fun _ => ?_
    refine (SameAt.time (steady 0)).bind fun now => ?_
    refine SameAt.bind (fun n kept => ⟨rfl, kept⟩) fun n => ?_
    exact sleepUntilBy_same steady _ _ _
  exact (same m rfl).1

end Steady

section Endings

theorem seconds_ne_nan (micros : Int) : Clock.seconds micros ≠ .nan := by
  intro none
  have same := Clock.seconds_mono (Int.le_refl micros)
  rw [none] at same
  exact Bool.noConfusion same

theorem stretch_pos : (Binary64.zero false).lt Act.stretch = true := by decide +kernel

theorem left_sides (sign : Bool) (total : Nat) (micros : Int) :
    let left := Act.stretch.min ((Binary64.finite sign total).sub (Clock.seconds micros))
    left.lt (.zero false) = (Binary64.finite sign total).lt (Clock.seconds micros) ∧
      (Binary64.zero false).lt left = (Clock.seconds micros).lt (.finite sign total) := by
  have given := seconds_ne_nan micros
  have sides := Binary64.min_sides stretch_pos (Binary64.sub_ne_nan sign total given)
  have ends := Binary64.sub_sides sign total given
  exact ⟨sides.1.trans ends.1, sides.2.trans ends.2⟩

def afterTurns (drift : Nat → Int) (finish : Binary64) (m : Machine) : Nat → Machine
  | 0 => m
  | n + 1 => turned drift finish (2 * n + 1) (afterTurns drift finish m n)

structure Passes (drift : Nat → Int) (finish : Binary64) (looks : Nat) (m : Machine) : Prop where
  before : (Clock.seconds m.clock.now).lt finish = true
  unasked : m.asked.stopped = false
  inside : finish.lt (Clock.seconds (m.clock.now + drift looks)) = false

/-- How a sleep ends in a turn: the time is reached, or a stop is asked for, or the time is reached
only between the two looks of the turn. -/
inductive Ends (drift : Nat → Int) (finish : Binary64) (looks : Nat) (m : Machine) :
    Except Fault Unit × Machine → Prop
  | reached (late : (Clock.seconds m.clock.now).lt finish = false) :
      Ends drift finish looks m (.ok (), m.later (drift looks))
  | stopped (before : (Clock.seconds m.clock.now).lt finish = true)
      (asked : m.asked.stopped = true) :
      Ends drift finish looks m
        (.error (.interrupted "Execution stopped"), (m.later (drift looks)).asked)
  | overstepped (before : (Clock.seconds m.clock.now).lt finish = true)
      (unasked : m.asked.stopped = false)
      (past : finish.lt (Clock.seconds (m.clock.now + drift looks)) = true) :
      Ends drift finish looks m
        (.error .negativeSleep, (m.later (drift looks)).asked.later (drift (looks + 1)))

variable {drift : Nat → Int} {sign : Bool} {total : Nat} {m : Machine}

/-- So many turns are enough: each takes a microsecond, unless it ends when the time is reached. -/
def Enough (total : Nat) (finish : Binary64) (bound : Nat) (m : Machine) : Prop :=
  0 < bound ∧ ((Clock.seconds m.clock.now).lt finish = false ∨
    (2 * (total * 1000000 / Binary64.unit + 1) : Nat) < m.clock.now + bound)

theorem not_lt_of_later {earlier later : Int} {finish : Binary64} (order : earlier ≤ later)
    (late : (Clock.seconds earlier).lt finish = false) :
    (Clock.seconds later).lt finish = false := by
  by_contra before
  rw [Bool.not_eq_false] at before
  rw [Binary64.lt_of_le_of_lt (Clock.seconds_mono order) before] at late
  exact Bool.noConfusion late

theorem turned_now (forward : ∀ k, 0 ≤ drift k) (sign : Bool) (total looks : Nat) (m : Machine) :
    let finish := Binary64.finite sign total
    m.clock.now < (turned drift finish looks m).clock.now ∨
      (Clock.seconds (turned drift finish looks m).clock.now).lt finish = false := by
  intro finish
  have first := forward looks
  have second := forward (looks + 1)
  have sides := (left_sides sign total (m.clock.now + drift looks)).2
  simp only [turned, Clock.wait]
  split
  · left
    simp only [Clock.advance, Machine.later, Machine.asked, Clock.micros]
    omega
  · next none =>
      right
      rw [Bool.not_eq_true, sides] at none
      refine not_lt_of_later ?_ none
      simp only [Clock.advance, Machine.later, Machine.asked]
      omega

theorem Enough.turned {looks bound : Nat} (forward : ∀ k, 0 ≤ drift k)
    (held : (Binary64.finite sign total).Representable)
    (enough : Enough total (.finite sign total) (bound + 1) m)
    (passes : Passes drift (.finite sign total) looks m) :
    Enough total (.finite sign total) bound (turned drift (.finite sign total) looks m) := by
  have early : m.clock.now < (2 * (total * 1000000 / Binary64.unit + 1) : Nat) := by
    by_contra late
    have reached := Binary64.not_lt_of_le (Clock.le_seconds held (Int.not_lt.mp late))
    rw [passes.before] at reached
    exact Bool.noConfusion reached
  rcases enough.2 with late | room
  · rw [passes.before] at late
    exact Bool.noConfusion late
  · refine ⟨by omega, ?_⟩
    rcases turned_now forward sign total looks m with later | late
    · exact .inr (by omega)
    · exact .inl late

theorem sleepUntilBy_ends (forward : ∀ k, 0 ≤ drift k)
    (held : (Binary64.finite sign total).Representable) {n bound : Nat}
    (passed : ∀ i < n, Passes drift (.finite sign total) (2 * i + 1)
      (afterTurns drift (.finite sign total) m i))
    (enough : Enough total (.finite sign total) bound
      (afterTurns drift (.finite sign total) m n)) :
    ∃ k, (∀ i < k, Passes drift (.finite sign total) (2 * i + 1)
        (afterTurns drift (.finite sign total) m i)) ∧
      Ends drift (.finite sign total) (2 * k + 1) (afterTurns drift (.finite sign total) m k)
        ((Act.sleepUntilBy drift (.finite sign total) bound (2 * n + 1)).perform
          (afterTurns drift (.finite sign total) m n)) := by
  induction bound generalizing n with
  | zero => exact absurd enough.1 (Nat.lt_irrefl 0)
  | succ bound ih =>
      rw [perform_turn, (left_sides sign total _).1]
      split
      · next before =>
          split
          · next asked => exact ⟨n, passed, .stopped before asked⟩
          · next unasked =>
              rw [Bool.not_eq_true] at unasked
              split
              · next past => exact ⟨n, passed, .overstepped before unasked past⟩
              · next inside =>
                  have passes : Passes drift (.finite sign total) (2 * n + 1) _ :=
                    ⟨before, unasked, Bool.not_eq_true _ ▸ inside⟩
                  refine ih (n := n + 1) (fun i less => ?_) (enough.turned forward held passes)
                  rcases Nat.lt_succ_iff_lt_or_eq.mp less with earlier | rfl
                  · exact passed i earlier
                  · exact passes
      · next late => exact ⟨n, passed, .reached (Bool.not_eq_true _ ▸ late)⟩

theorem le_of_not_lt {micros : Int}
    (late : (Clock.seconds micros).lt (.finite sign total) = false) :
    (Binary64.finite sign total).le (Clock.seconds micros) = true := by
  have given := seconds_ne_nan micros
  generalize Clock.seconds micros = now at late given
  cases now with
  | nan => exact absurd rfl given
  | infinity negative =>
      cases negative
      · rfl
      · simp [Binary64.lt] at late
  | finite negative steps =>
      simp only [Binary64.lt, Binary64.le, Binary64.eq, decide_eq_false_iff_not, Bool.or_eq_true,
        decide_eq_true_eq] at late ⊢
      omega

/-- A turn finds the clock before the end, is not stopped, and finds it past the end when it looks
again; all turns before it went through. -/
def OverstepsAt (drift : Nat → Int) (finish : Binary64) (m : Machine) (n : Nat) : Prop :=
  (∀ i < n, Passes drift finish (2 * i + 1) (afterTurns drift finish m i)) ∧
    (Clock.seconds (afterTurns drift finish m n).clock.now).lt finish = true ∧
    (afterTurns drift finish m n).asked.stopped = false ∧
    finish.lt (Clock.seconds ((afterTurns drift finish m n).clock.now + drift (2 * n + 1))) = true

theorem Ends.overstepped_iff {finish : Binary64} {k : Nat} {ended : Except Fault Unit × Machine}
    (passed : ∀ i < k, Passes drift finish (2 * i + 1) (afterTurns drift finish m i))
    (ends : Ends drift finish (2 * k + 1) (afterTurns drift finish m k) ended) :
    ended.1 = .error .negativeSleep ↔ ∃ n, OverstepsAt drift finish m n := by
  constructor
  · intro refused
    cases ends with
    | reached late => simp at refused
    | stopped before asked => simp at refused
    | overstepped before unasked past => exact ⟨k, passed, before, unasked, past⟩
  · rintro ⟨n, through, before, unasked, past⟩
    rcases Nat.lt_trichotomy n k with earlier | rfl | later
    · exact absurd ((passed n earlier).inside.symm.trans past) (by decide)
    · cases ends with
      | reached late => exact absurd (late.symm.trans before) (by decide)
      | stopped _ asked => exact absurd (unasked.symm.trans asked) (by decide)
      | overstepped => rfl
    · have passes := through k later
      cases ends with
      | reached late => exact absurd (late.symm.trans passes.before) (by decide)
      | stopped _ asked => exact absurd (passes.unasked.symm.trans asked) (by decide)
      | overstepped _ _ past => exact absurd (passes.inside.symm.trans past) (by decide)

def begun (drift : Nat → Int) (seconds : Binary64) (m : Machine) : Machine :=
  Machine.later { m with log := m.log ++ ["[WAIT] " ++ seconds.text ++ " s"] } (drift 0)

theorem perform_waitBy (drift : Nat → Int) (seconds : Binary64) (m : Machine) :
    let finish := (Clock.seconds m.clock.now).add seconds
    (Act.waitBy drift seconds).perform m =
      (Act.sleepUntilBy drift finish (Act.stretches (begun drift seconds m) finish) 1).perform
        (begun drift seconds m) := by
  intro finish
  have logged : (Act.log ("[WAIT] " ++ seconds.text ++ " s")).perform m =
      (.ok (), { m with log := m.log ++ ["[WAIT] " ++ seconds.text ++ " s"] }) := rfl
  rw [Act.waitBy, perform_bind, logged]
  simp only
  rw [perform_bind, perform_lookPassing]
  simp only
  rw [perform_bind]
  rfl

theorem enough_stretches (sign : Bool) (total : Nat) (m : Machine) :
    Enough total (.finite sign total) (Act.stretches m (.finite sign total)) m := by
  rw [Act.stretches, Enough]
  generalize 2 * (total * 1000000 / Binary64.unit + 1) = reach
  exact ⟨by omega, .inr (by omega)⟩

theorem waitBy_ends {seconds : Binary64} (forward : ∀ k, 0 ≤ drift k) (range : m.clock.InRange)
    (held : seconds.Representable) (number : seconds ≠ .nan)
    (bounded : seconds.isInfinite = false) :
    ∃ sign total k, (Clock.seconds m.clock.now).add seconds = .finite sign total ∧
      (∀ i < k, Passes drift (.finite sign total) (2 * i + 1)
        (afterTurns drift (.finite sign total) (begun drift seconds m) i)) ∧
      Ends drift (.finite sign total) (2 * k + 1)
        (afterTurns drift (.finite sign total) (begun drift seconds m) k)
        ((Act.waitBy drift seconds).perform m) := by
  cases seconds with
  | nan => exact absurd rfl number
  | infinity negative => simp [Binary64.isInfinite] at bounded
  | finite negative steps =>
      obtain ⟨sign, total, whole⟩ := Clock.exists_finish range held
      have fits := Binary64.add_representable (Clock.seconds m.clock.now) (.finite negative steps)
      rw [perform_waitBy]
      rw [whole] at fits ⊢
      obtain ⟨k, passed, ends⟩ := @sleepUntilBy_ends drift sign total
        (begun drift (.finite negative steps) m) forward fits 0 _ (fun i less => by omega)
        (enough_stretches sign total _)
      exact ⟨sign, total, k, rfl, passed, ends⟩

/-- Whatever time passes at the looks, a wait of a finite number of seconds comes to an end: it
returns when the clock has reached the time, or fails because a stop is asked for, or fails because
it would sleep a negative time.  The last happens exactly if the clock steps over the end between
the two looks of one turn, so never by a clock that stands still at a look. -/
theorem wait_ends_or_oversteps (drift : Nat → Int) (m : Machine) (seconds : Binary64)
    (forward : ∀ k, 0 ≤ drift k) (range : m.clock.InRange) (held : seconds.Representable)
    (number : seconds ≠ .nan) (bounded : seconds.isInfinite = false) :
    let finish := (Clock.seconds m.clock.now).add seconds
    let ended := (Act.waitBy drift seconds).perform m
    (ended.1 = .ok () ∧ finish.le (Clock.seconds ended.2.clock.now) = true ∨
        ended.1 = .error (.interrupted "Execution stopped") ∧ ended.2.stopped = true ∨
        ended.1 = .error .negativeSleep ∧ ended.2.stopped = false) ∧
      (ended.1 = .error .negativeSleep ↔
        ∃ n, OverstepsAt drift finish (begun drift seconds m) n) ∧
      ((∀ k, drift k = 0) → ended.1 ≠ .error .negativeSleep) ∧
      ((∀ k, drift k = m.clock.tick) → (Act.wait seconds).perform m = ended) := by
  obtain ⟨sign, total, k, whole, passed, ends⟩ := waitBy_ends forward range held number bounded
  simp only [whole]
  have refused := ends.overstepped_iff passed
  have steady := fun same => @waitBy_eq drift m same seconds
  generalize (Act.waitBy drift seconds).perform m = ended at ends refused steady ⊢
  refine ⟨?_, refused, ?_, fun same => (steady same).symm⟩
  · cases ends with
    | reached late =>
        refine .inl ⟨rfl, le_of_not_lt (not_lt_of_later ?_ late)⟩
        have passes := forward (2 * k + 1)
        simp only [Machine.later, Clock.advance]
        omega
    | stopped before asked => exact .inr (.inl ⟨rfl, asked⟩)
    | overstepped before unasked past => exact .inr (.inr ⟨rfl, unasked⟩)
  · intro still failed
    obtain ⟨n, _, before, _, past⟩ := refused.mp failed
    rw [still, Int.add_zero] at past
    have behind := Binary64.not_lt_of_le (Bool.or_eq_true_iff.mpr (.inl before))
    exact absurd (behind.symm.trans past) (by decide)

theorem wait_ends_or_oversteps_microsecond :
    ((Act.wait (.ofDecimal false ⟨15, -7⟩)).perform { clock := { tick := 1 } }).1 =
      .error .negativeSleep := by
  have endings := wait_ends_or_oversteps (fun _ => 1) { clock := { tick := 1 } }
    (.ofDecimal false ⟨15, -7⟩) (by simp) (by unfold Clock.InRange; decide)
    (Binary64.ofDecimal_representable false _) (by decide +kernel) (by decide +kernel)
  rw [endings.2.2.2 fun _ => rfl]
  refine endings.2.1.mpr ⟨0, fun i less => by omega, ?_, rfl, ?_⟩
  · decide +kernel
  · decide +kernel

end Endings

end Routine

end ThrustBench
