import Mathlib.Data.List.DropRight
import ThrustBench.Proofs.Latest
import ThrustBench.Stopwatch

/-!
What the stopwatch counts.  It keeps two offsets against a clock that only a reset restarts; told by
the moments at which it was pressed, its count is the time between the first and the second press
since the reset, between the third and the fourth, and so on, the last one up to now.
-/

namespace ThrustBench.Stopwatch

inductive Use where
  | press
  | reset
  | tick
  deriving DecidableEq

structure Moment where
  clock : Clock
  use : Use

/-- The stopwatch after a use.  A label that cannot be written leaves it as it is. -/
def apply (s : Stopwatch) (m : Moment) : Stopwatch :=
  match m.use with
  | .press => s.press m.clock
  | .reset => s.reset m.clock
  | .tick => (s.tick m.clock).toOption.getD s

def after (s : Stopwatch) (history : List Moment) : Stopwatch := history.foldl apply s

def fresh (clock : Clock) : Stopwatch := { origin := clock.now }

def millis (since time : Int) : Int := (time - since).fdiv 1000

/-- The running intervals that presses make: from every other press to the next, or up to now. -/
def intervals (now : Int) : List Int → List (Int × Int)
  | [] => []
  | [start] => [(start, now)]
  | start :: stop :: later => (start, stop) :: intervals now later

def total (elapsed : Int → Int) : List (Int × Int) → Int
  | [] => 0
  | (start, stop) :: later => elapsed stop - elapsed start + total elapsed later

def restarted (made : Clock) (history : List Moment) : Int :=
  (latest? (fun _ m => if m.use = .reset then some m.clock.now else none) history).getD made.now

def presses (history : List Moment) : List Int :=
  ((history.rtakeWhile fun m => m.use ≠ .reset).filter fun m => m.use = .press).map
    fun m => m.clock.now

theorem after_snoc (s : Stopwatch) (history : List Moment) (m : Moment) :
    s.after (history ++ [m]) = (s.after history).apply m := by
  simp [after]

section Spans

variable {elapsed : Int → Int}

theorem total_append (first second : List (Int × Int)) :
    total elapsed (first ++ second) = total elapsed first + total elapsed second := by
  induction first with
  | nil => simp [total]
  | cons span first ih =>
      obtain ⟨start, stop⟩ := span
      simp only [List.cons_append, total, ih]
      omega

theorem intervals_snoc_of_odd (now time : Int) (times : List Int) (odd : times.length % 2 = 1) :
    intervals now (times ++ [time]) = intervals time times := by
  induction times using intervals.induct with
  | case1 => simp at odd
  | case2 start => rfl
  | case3 start stop later ih =>
      simp only [List.length_cons] at odd
      simp only [List.cons_append, intervals, ih (by omega)]

theorem intervals_snoc_of_even (now time : Int) (times : List Int) (even : times.length % 2 = 0) :
    intervals now (times ++ [time]) = intervals now times ++ [(time, now)] := by
  induction times using intervals.induct with
  | case1 => rfl
  | case2 start => simp at even
  | case3 start stop later ih =>
      simp only [List.length_cons] at even
      simp only [List.cons_append, intervals, ih (by omega)]

theorem intervals_of_even (now other : Int) (times : List Int) (even : times.length % 2 = 0) :
    intervals now times = intervals other times := by
  induction times using intervals.induct with
  | case1 => rfl
  | case2 start => simp at even
  | case3 start stop later ih =>
      simp only [List.length_cons] at even
      simp only [intervals, ih (by omega)]

end Spans

section History

variable (made : Clock) (history : List Moment) (m : Moment)

theorem restarted_snoc :
    restarted made (history ++ [m]) =
      if m.use = .reset then m.clock.now else restarted made history := by
  unfold restarted
  rw [latest?_snoc]
  split <;> simp

theorem presses_snoc :
    presses (history ++ [m]) =
      match m.use with
      | .press => presses history ++ [m.clock.now]
      | .reset => []
      | .tick => presses history := by
  unfold presses
  rw [List.rtakeWhile_concat]
  cases use : m.use <;> simp [use]

end History

structure Told (s : Stopwatch) (since : Int) (times : List Int) : Prop where
  origin : s.origin = since
  paused : s.paused = decide (times.length % 2 = 0)
  count : ∀ clock, s.count clock = total (millis since) (intervals clock.now times)

section Uses

variable {s : Stopwatch} {since : Int} {times : List Int}

theorem told_fresh (clock : Clock) : (fresh clock).Told clock.now [] := ⟨rfl, rfl, fun _ => rfl⟩

theorem Told.press (told : s.Told since times) (clock : Clock) :
    (s.press clock).Told since (times ++ [clock.now]) := by
  have before := told.count clock
  cases paused : s.paused with
  | true =>
      have even : times.length % 2 = 0 := by simpa [paused] using told.paused.symm
      have pressed : s.press clock =
          { s with
            delta := s.elapsed clock - s.stamp, paused := false, icon := "icons/pause.png" } := by
        simp [Stopwatch.press, paused, begin]
      rw [pressed]
      refine ⟨told.origin, ?_, ?_⟩
      · rw [List.length_append, List.length_singleton]
        exact (decide_eq_false (by omega)).symm
      · intro later
        simp only [Stopwatch.count, paused, if_true] at before
        rw [intervals_snoc_of_even _ _ _ even, total_append, intervals_of_even _ clock.now _ even,
          ← before]
        simp only [Stopwatch.count, elapsed, Clock.elapsed, told.origin, total, millis,
          Bool.false_eq_true, if_false]
        omega
  | false =>
      have odd : times.length % 2 = 1 := by
        have := told.paused
        rw [paused, eq_comm, decide_eq_false_iff_not] at this
        omega
      have pressed : s.press clock =
          { s with
            stamp := s.elapsed clock - s.delta, paused := true, icon := "icons/play.png" } := by
        simp [Stopwatch.press, paused, pause]
      rw [pressed]
      refine ⟨told.origin, ?_, ?_⟩
      · rw [List.length_append, List.length_singleton]
        exact (decide_eq_true (by omega)).symm
      · intro later
        simp only [Stopwatch.count, paused, Bool.false_eq_true, if_false] at before
        rw [intervals_snoc_of_odd _ _ _ odd, ← before]
        rfl

theorem told_reset (s : Stopwatch) (clock : Clock) : (s.reset clock).Told clock.now [] := by
  have paused : (s.reset clock).paused = true := by
    cases running : s.paused <;> simp [reset, press, pause, running]
  have stamp : (s.reset clock).stamp = 0 := rfl
  refine ⟨rfl, paused, fun later => ?_⟩
  rw [count, paused, stamp]
  rfl

theorem Told.label (told : s.Told since times) (label : String) :
    Told { s with label := label } since times :=
  ⟨told.origin, told.paused, told.count⟩

end Uses

theorem tick_label (s : Stopwatch) (clock : Clock) :
    ∃ label, (s.tick clock).toOption.getD s = { s with label := label } := by
  unfold tick setLabel
  split
  · exact ⟨s.label, rfl⟩
  · cases labelFor (.whole (s.elapsed clock - s.delta)) with
    | error fault => exact ⟨s.label, rfl⟩
    | ok label => exact ⟨label, rfl⟩

theorem told_after (made : Clock) (history : List Moment) :
    ((fresh made).after history).Told (restarted made history) (presses history) := by
  induction history using List.reverseRecOn with
  | nil => exact told_fresh made
  | append_singleton history m ih =>
      rw [after_snoc, restarted_snoc, presses_snoc]
      cases use : m.use with
      | press => simpa [apply, use] using ih.press m.clock
      | reset => simpa [apply, use] using told_reset _ m.clock
      | tick =>
          obtain ⟨label, same⟩ := tick_label ((fresh made).after history) m.clock
          simp only [apply, use, same]
          exact ih.label label

section Course

variable {s : Stopwatch}

theorem value_getD (s : Stopwatch) (clock : Clock) : (s.value clock).getD 0 = s.count clock := by
  unfold value
  split
  · simp [*]
  · rfl

theorem millis_mono {since time later : Int} (ordered : time ≤ later) :
    millis since time ≤ millis since later := by
  have natural : (0 : Int) ≤ 1000 := by decide
  unfold millis
  rw [Int.fdiv_eq_ediv_of_nonneg _ natural, Int.fdiv_eq_ediv_of_nonneg _ natural]
  omega

theorem count_mono (s : Stopwatch) {clock later : Clock} (ordered : clock.now ≤ later.now) :
    s.count clock ≤ s.count later := by
  unfold count
  split
  · exact Int.le_refl _
  · exact Int.sub_le_sub_right (millis_mono ordered) s.delta

theorem count_apply (s : Stopwatch) {m : Moment} (keeps : m.use ≠ .reset) :
    (s.apply m).count m.clock = s.count m.clock := by
  unfold apply
  cases use : m.use with
  | reset => exact absurd use keeps
  | tick =>
      obtain ⟨label, same⟩ := s.tick_label m.clock
      simp only [same]
      rfl
  | press =>
      cases paused : s.paused with
      | true =>
          simp only [press, begin, count, paused, if_true, Bool.false_eq_true, if_false]
          exact Int.sub_sub_self _ _
      | false => simp [press, pause, count, paused]

theorem count_grows (more : List Moment) {later : Clock} : ∀ {s : Stopwatch} {clock : Clock},
    (∀ m ∈ more, m.use ≠ .reset) →
    (clock.now :: (more.map fun m => m.clock.now) ++ [later.now]).Pairwise (· ≤ ·) →
    s.count clock ≤ (s.after more).count later := by
  induction more with
  | nil =>
      intro s clock _ ordered
      apply s.count_mono
      simpa using ordered
  | cons m more ih =>
      intro s clock keeps ordered
      rw [List.map_cons, List.cons_append, List.cons_append, List.pairwise_cons] at ordered
      calc s.count clock
        _ ≤ s.count m.clock := s.count_mono (ordered.1 _ List.mem_cons_self)
        _ = (s.apply m).count m.clock := (s.count_apply (keeps m List.mem_cons_self)).symm
        _ ≤ ((s.apply m).after more).count later := by
          apply ih _ ordered.2
          exact fun other member => keeps other (List.mem_cons_of_mem m member)

theorem count_nonneg (made : Clock) (history : List Moment) : ∀ {now : Clock},
    (made.now :: (history.map fun m => m.clock.now) ++ [now.now]).Pairwise (· ≤ ·) →
    0 ≤ ((fresh made).after history).count now := by
  induction history using List.reverseRecOn with
  | nil =>
      intro now _
      exact Int.le_refl 0
  | append_singleton history m ih =>
      intro now ordered
      rw [List.map_append, ← List.cons_append, List.pairwise_append] at ordered
      obtain ⟨earlier, _, last⟩ := ordered
      have following : m.clock.now ≤ now.now := last _ (by simp) _ (by simp)
      rw [after_snoc]
      apply Int.le_trans _ (count_mono _ following)
      by_cases resets : m.use = .reset
      · have told := told_reset ((fresh made).after history) m.clock
        simp only [apply, resets, told.count, intervals, total]
        exact Int.le_refl 0
      · rw [count_apply _ resets]
        exact ih (by simpa using earlier)

theorem after_ticks (idle : List Moment) : ∀ {s : Stopwatch}, (∀ m ∈ idle, m.use = .tick) →
    ∃ label, s.after idle = { s with label := label } := by
  induction idle with
  | nil =>
      intro s _
      exact ⟨s.label, rfl⟩
  | cons m idle ih =>
      intro s ticks
      obtain ⟨label, same⟩ := s.tick_label m.clock
      have first : s.apply m = { s with label := label } := by
        simpa only [apply, ticks m List.mem_cons_self] using same
      obtain ⟨last, rest⟩ := ih (s := s.apply m) fun other member =>
        ticks other (List.mem_cons_of_mem m member)
      refine ⟨last, ?_⟩
      change (s.apply m).after idle = _
      rw [rest, first]

end Course

/-- At every moment of an ordered history the value of the stopwatch, nothing being 0, is the time
that passed in its running intervals since it was set back last.  So it is never negative, stands
still while the stopwatch is paused, does not fall until the stopwatch is set back, and is nothing
right after that, whether it ran or not. -/
theorem value_eq_running_time (made : Clock) (history : List Moment) (now : Clock)
    (ordered : (made.now :: (history.map fun m => m.clock.now) ++ [now.now]).Pairwise (· ≤ ·)) :
    let s := (fresh made).after history
    let value (s : Stopwatch) (clock : Clock) : Int := (s.value clock).getD 0
    value s now =
        total (millis (restarted made history)) (intervals now.now (presses history)) ∧
      (s.paused = true ↔ (presses history).length % 2 = 0) ∧
      0 ≤ value s now ∧
      (s.paused = true → ∀ idle later, (∀ m ∈ idle, m.use = .tick) →
        value (s.after idle) later = value s now) ∧
      (∀ more later, (∀ m ∈ more, m.use ≠ .reset) →
        (now.now :: (more.map fun m => m.clock.now) ++ [later.now]).Pairwise (· ≤ ·) →
        value s now ≤ value (s.after more) later) ∧
      (s.apply ⟨now, .reset⟩).value now = none := by
  intro s value
  have told : s.Told (restarted made history) (presses history) := told_after made history
  simp only [value, value_getD]
  refine ⟨told.count now, ?_, count_nonneg made history ordered, ?_, ?_, ?_⟩
  · rw [told.paused, decide_eq_true_iff]
  · intro paused idle later ticks
    obtain ⟨label, same⟩ := after_ticks idle (s := s) ticks
    rw [same, count, count, paused]
    rfl
  · intro more later keeps following
    exact count_grows more keeps following
  · have reset := (told_reset s now).count now
    change (s.reset now).value now = none
    rw [Stopwatch.value, reset]
    rfl

def setBackRunning : List Moment :=
  [⟨⟨1000500, 0⟩, .press⟩, ⟨⟨1002400, 0⟩, .press⟩, ⟨⟨1003100, 0⟩, .press⟩, ⟨⟨1009000, 0⟩, .tick⟩,
    ⟨⟨1009999, 0⟩, .reset⟩, ⟨⟨1010998, 0⟩, .press⟩]

theorem value_eq_running_time_setBackRunning :
    let s := (fresh ⟨1000000, 0⟩).after setBackRunning
    restarted ⟨1000000, 0⟩ setBackRunning = 1009999 ∧ presses setBackRunning = [1010998] ∧
      (s.value ⟨1010999, 0⟩).getD 0 = 1 ∧
      (s.value ⟨1010999, 0⟩).getD 0 ≤
        ((s.after [⟨⟨1012000, 0⟩, .press⟩]).value ⟨2000000, 0⟩).getD 0 ∧
      (s.apply ⟨⟨1010999, 0⟩, .reset⟩).value ⟨1010999, 0⟩ = none := by
  intro s
  have since : restarted ⟨1000000, 0⟩ setBackRunning = 1009999 := by decide
  have times : presses setBackRunning = [1010998] := by decide
  obtain ⟨counted, _, _, _, grows, reset⟩ :=
    value_eq_running_time ⟨1000000, 0⟩ setBackRunning ⟨1010999, 0⟩ (by decide)
  refine ⟨since, times, ?_, grows _ _ (by simp) (by decide), reset⟩
  rw [since, times] at counted
  exact counted.trans (by decide)

end ThrustBench.Stopwatch
