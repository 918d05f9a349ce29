import ThrustBench.Proofs.Running

/-!
A script that is cancelled has done what it would have done up to that moment, and does nothing
more.
-/

namespace ThrustBench.Script

/-- When a script is cancelled: as a wait begins or while a point is added, counted from 0. -/
inductive Moment where
  | wait (index : Nat)
  | point (index : Nat)
  deriving DecidableEq

namespace Moment

def index : Moment → Nat
  | wait k | point k => k

def verb : Moment → Verb
  | wait _ => .wait
  | point _ => .addPoint

def counts : Moment → Event → Bool
  | wait _ => Event.isWait
  | point _ => fun e => e.point?.isSome

def passed : Moment → Run → Nat
  | wait _, r => r.waits
  | point _, r => r.points

/-- The moment comes in a run, and nothing fails just then: the lines of the wait were taken in, or
the point was not refused. -/
def ReachedBy (plan : Plan) : Moment → Run → Prop
  | wait k, r => k < r.waits
  | point k, r => ∃ p, (pointsOf r.events)[k]? = some p ∧ plan.refuse k p = none

/-- The run that is cancelled during a command, given the runs before and after that command when
it is not.  The time of a wait does not pass. -/
def stop (m : Moment) (before after : Run) : Run :=
  match m with
  | wait _ => { after with abort := true, clock := before.clock }
  | point _ => { after with abort := true }

@[simp] theorem stop_abort (m : Moment) (before after : Run) :
    (m.stop before after).abort = true := by
  cases m <;> rfl

@[simp] theorem stop_events (m : Moment) (before after : Run) :
    (m.stop before after).events = after.events := by
  cases m <;> rfl

end Moment

def Plan.cancelledAt (plan : Plan) : Moment → Plan
  | .wait k => { plan.uncancelled with cancelAtWait := some k }
  | .point k => { plan.uncancelled with cancelAtPoint := some k }

@[simp] theorem Plan.cancelledAt_wait (plan : Plan) (k : Nat) :
    (plan.cancelledAt (.wait k)).cancelAtWait = some k := rfl

@[simp] theorem Plan.cancelledAt_point (plan : Plan) (k : Nat) :
    (plan.cancelledAt (.point k)).cancelAtPoint = some k := rfl

@[simp] theorem Plan.cancelledAt_refuse (plan : Plan) (m : Moment) :
    (plan.cancelledAt m).refuse = plan.refuse := by
  cases m <;> rfl

namespace Run

theorem beginWait_cancelledAt (plan : Plan) (m : Moment) (r : Run) :
    r.beginWait (plan.cancelledAt m) = r.beginWait plan.uncancelled := by
  cases m <;> rfl

theorem act_cancelledAt_other (plan : Plan) (m : Moment) (r : Run) (verb : Verb) (args : List Datum)
    (other : ¬(verb = m.verb ∧ m.passed r = m.index)) :
    r.act (plan.cancelledAt m) verb args = r.act plan.uncancelled verb args := by
  cases verb with
  | wait =>
      cases m with
      | point k => rfl
      | wait k =>
          have notNow : k ≠ r.waits := by
            simp only [Moment.verb, Moment.passed, Moment.index, true_and] at other
            exact Ne.symm other
          simp [act, wait, waitSeconds, beginWait_cancelledAt, notNow]
  | addPoint =>
      cases m with
      | wait k => rfl
      | point k =>
          have notNow : k ≠ r.points := by
            simp only [Moment.verb, Moment.passed, Moment.index, true_and] at other
            exact Ne.symm other
          simp [act, addPoint, notNow]
  | _ => rfl

theorem act_cancelledAt {plan : Plan} {m : Moment} {r r' : Run} {args : List Datum} {value : Datum}
    (now : m.passed r = m.index) (done : r.act plan.uncancelled m.verb args = (r', .ok value)) :
    r.act (plan.cancelledAt m) m.verb args = (m.stop r r', .ok value) := by
  cases m with
  | wait k =>
      simp only [Moment.passed, Moment.index] at now
      simp only [Moment.verb, act, wait] at done ⊢
      split at done
      · simp at done
      · split at done
        · simp at done
        · rename_i inTime
          simp only [inTime, Bool.false_eq_true, if_false]
          generalize begun : r.beginWait plan.uncancelled = result
          obtain ⟨r₁, outcome⟩ := result
          cases outcome with
          | error fault => simp [waitSeconds, begun] at done
          | ok _ =>
              obtain ⟨heard, hidden, rfl⟩ := beginWait_ok begun
              simp only [waitSeconds, begun, Plan.uncancelled_cancelAtWait, reduceCtorEq, if_false,
                Prod.mk.injEq, Except.ok.injEq] at done
              obtain ⟨rfl, rfl⟩ := done
              simp [waitSeconds, beginWait_cancelledAt, begun, now, Moment.stop]
  | point k =>
      simp only [Moment.passed, Moment.index] at now
      simp only [Moment.verb, act, addPoint, Plan.cancelledAt_refuse, Plan.uncancelled_refuse]
        at done ⊢
      split at done
      · simp at done
      · simp only [Plan.uncancelled_cancelAtPoint, reduceCtorEq, decide_false, Bool.or_false,
          Prod.mk.injEq, Except.ok.injEq] at done
        obtain ⟨rfl, rfl⟩ := done
        simp [now, Moment.stop]

theorem countP_shown (m : Moment) (events : List Event) :
    (shown events).countP m.counts = events.countP m.counts := by
  rw [shown, List.countP_filter]
  apply List.countP_congr
  intro e _
  cases m <;> cases e <;> simp [Moment.counts, Event.isWait, Event.point?, Event.isShown]

theorem countP_hidden (m : Moment) {heard : List Event}
    (hidden : ∀ e ∈ heard, e.isShown = false) : heard.countP m.counts = 0 := by
  rw [List.countP_eq_zero]
  intro e member counted
  have notShown := hidden e member
  cases m <;> cases e <;> simp_all [Moment.counts, Event.isWait, Event.point?, Event.isShown]

theorem Deed.passed {plan : Plan} {r r' : Run} {verb : Verb} {args : List Datum} {value : Datum}
    (m : Moment) (deed : Deed plan r verb args r' (.ok value)) :
    m.passed r' = m.passed r + (if verb = m.verb then 1 else 0) ∧
      r'.events.countP m.counts =
        r.events.countP m.counts + (if verb = m.verb then 1 else 0) := by
  cases deed with
  | remembers | reads | chooses =>
      cases m <;> simp [Moment.passed, Moment.verb]
  | @sends args k p =>
      have silent : ((p.delivered (Stand.throttleCommand (.whole k))).map Event.sent).countP
          m.counts = 0 := by
        rw [List.countP_eq_zero]
        intro e member
        obtain ⟨text, _, rfl⟩ := List.mem_map.mp member
        cases m <;> simp [Moment.counts, Event.isWait, Event.point?]
      cases m <;> simp [Moment.passed, Moment.verb, List.countP_append, silent]
  | prints lines which =>
      have silent : (lines.map Event.printed).countP m.counts = 0 := by
        rw [List.countP_eq_zero]
        intro e member
        obtain ⟨text, _, rfl⟩ := List.mem_map.mp member
        cases m <;> simp [Moment.counts, Event.isWait, Event.point?]
      rcases which with rfl | rfl <;>
        cases m <;> simp [Moment.passed, Moment.verb, List.countP_append, silent]
  | waits heard abort clock hidden =>
      simp only [List.countP_append, List.countP_cons, countP_hidden m hidden]
      cases m <;> simp [Moment.passed, Moment.verb, Moment.counts, Event.isWait, Event.point?]
  | adds =>
      cases m <;>
        simp [Moment.passed, Moment.verb, List.countP_append, Moment.counts, Event.isWait,
          Event.point?]

theorem index_lt_of_reached {plan : Plan} {m : Moment} {r : Run}
    (counted : r.events.countP m.counts = m.passed r) (reached : m.ReachedBy plan r) :
    m.index < m.passed r := by
  cases m with
  | wait k => exact reached
  | point k =>
      obtain ⟨p, found, _⟩ := reached
      have bound := (List.getElem?_eq_some_iff.mp found).1
      rw [pointsOf, List.length_filterMap_eq_countP] at bound
      rw [← counted]
      exact bound

theorem Deed.unreached {plan : Plan} {r r' : Run} {verb : Verb} {args : List Datum} {fault : Fault}
    {m : Moment} (deed : Deed plan r verb args r' (.error fault))
    (counted : r.events.countP m.counts = m.passed r) (early : m.passed r ≤ m.index) :
    ¬m.ReachedBy plan r' := by
  intro reached
  cases deed with
  | fails =>
      have late := index_lt_of_reached counted reached
      omega
  | interrupted board heard fault hidden =>
      cases m with
      | wait k =>
          simp only [Moment.ReachedBy, Moment.passed, Moment.index] at reached early
          omega
      | point k =>
          have silent := countP_hidden (.point k) hidden
          have late := index_lt_of_reached (by
            simp only [List.countP_append, List.countP_cons, silent, counted]
            rfl) reached
          simp only [Moment.passed, Moment.index] at early late
          omega
  | refused refusal =>
      cases m with
      | wait k =>
          simp only [Moment.ReachedBy, Moment.passed, Moment.index, handPoint_run] at reached early
          omega
      | point k =>
          obtain ⟨p, found, accepted⟩ := reached
          have length : (pointsOf r.events).length = r.points := by
            rw [pointsOf, List.length_filterMap_eq_countP]
            exact counted
          simp only [Moment.passed, Moment.index] at early
          simp only [handPoint_run, pointsOf, List.filterMap_append] at found
          rw [← pointsOf, List.getElem?_append_right (by omega), length] at found
          have now : k = r.points := by
            have bound := (List.getElem?_eq_some_iff.mp found).1
            simp [Event.point?] at bound
            omega
          subst now
          simp only [Nat.sub_self, List.filterMap_cons, Event.point?, List.filterMap_nil,
            List.getElem?_cons_zero, Option.some.injEq] at found
          subst found
          rw [accepted] at refusal
          simp at refusal

theorem Deed.marks {plan : Plan} {r r' : Run} {args : List Datum} {value : Datum} {m : Moment}
    (deed : Deed plan r m.verb args r' (.ok value)) :
    ∃ e, m.counts e = true ∧ shown r'.events = shown r.events ++ [e] := by
  cases m with
  | wait k =>
      simp only [Moment.verb] at deed
      cases deed with
      | waits heard abort clock hidden =>
          refine ⟨.waited r.clock.now, rfl, ?_⟩
          rw [shown_append, shown_cons_of_shown rfl, shown_of_hidden hidden]
      | prints lines which => simp at which
  | point k =>
      simp only [Moment.verb] at deed
      cases deed with
      | adds accepted =>
          refine ⟨.point r.handPoint.2, rfl, ?_⟩
          simp only [handPoint_run]
          rw [shown_append, shown_cons_of_shown rfl]
          rfl
      | prints lines which => simp at which

theorem performAll_counts (plan : Plan) (m : Moment) (script : List Command) :
    ∀ {r r' : Run} {values : List Datum}, performAll plan r script = (r', .ok values) →
      r.events.countP m.counts = m.passed r → r'.events.countP m.counts = m.passed r' := by
  induction script with
  | nil =>
      intro r r' values done counted
      simp only [performAll, Prod.mk.injEq] at done
      obtain ⟨rfl, _⟩ := done
      exact counted
  | cons c cs ih =>
      intro r r' values done counted
      obtain ⟨r₁, value, others, step, rest, _⟩ := performAll_cons_inv done
      apply ih rest
      have both := (Deed.of_perform step).passed m
      omega

theorem performAll_passed_le (plan : Plan) (m : Moment) (script : List Command) :
    ∀ {r r' : Run} {values : List Datum}, performAll plan r script = (r', .ok values) →
      m.passed r ≤ m.passed r' := by
  induction script with
  | nil =>
      intro r r' values done
      simp only [performAll, Prod.mk.injEq] at done
      obtain ⟨rfl, _⟩ := done
      exact Nat.le_refl _
  | cons c cs ih =>
      intro r r' values done
      obtain ⟨r₁, value, others, step, rest, _⟩ := performAll_cons_inv done
      have first := ((Deed.of_perform step).passed m).1
      have later := ih rest
      omega

theorem performAll_cancelledAt {plan : Plan} {m : Moment} {script : List Command} :
    ∀ {r r' : Run} {values : List Datum}, performAll plan.uncancelled r script = (r', .ok values) →
      m.passed r' ≤ m.index → performAll (plan.cancelledAt m) r script = (r', .ok values) := by
  induction script with
  | nil => intro r r' values done _; exact done
  | cons c cs ih =>
      intro r r' values done early
      obtain ⟨r₁, value, others, step, rest, rfl⟩ := performAll_cons_inv done
      have passed := ((Deed.of_perform step).passed m).1
      have later := performAll_passed_le plan.uncancelled m cs rest
      have other : ¬(c.verb = m.verb ∧ m.passed r = m.index) := by
        -- the moment's own command would be counted, and the count never falls again
        rintro ⟨kind, now⟩
        rw [if_pos kind] at passed
        omega
      have same : r.perform (plan.cancelledAt m) c.verb c.data = (r₁, .ok value) := by
        rw [← step, perform, perform, act_cancelledAt_other plan m r c.verb c.data other]
      rw [performAll_cons_ok same, ih rest early]
      rfl

theorem performAll_of_stop {plan : Plan} {m : Moment} {before after : List Command} {c : Command}
    {r r₁ r₂ : Run} {values : List Datum} {value : Datum}
    (first : performAll plan.uncancelled r before = (r₁, .ok values))
    (now : m.passed r₁ = m.index)
    (step : r₁.perform (plan.cancelledAt m) c.verb c.data = (r₂, .ok value))
    (cancelled : r₂.abort = true) :
    performAll (plan.cancelledAt m) r (before ++ c :: after) =
      (r₂, if after = [] then .ok (values ++ [value]) else .error .aborted) := by
  have same : performAll (plan.cancelledAt m) r before = (r₁, .ok values) :=
    performAll_cancelledAt first (Nat.le_of_eq now)
  rw [performAll_append_ok same, performAll_cons_ok step, performAll_of_cancelled cancelled]
  by_cases last : after = []
  · simp [last, Except.map]
  · simp [last, Except.map]

theorem performAll_reaches (plan : Plan) (m : Moment) (script : List Command) : ∀ r : Run,
    r.abort = false → r.events.countP m.counts = m.passed r → m.passed r ≤ m.index →
    m.ReachedBy plan (performAll plan.uncancelled r script).1 →
    ∃ before c after r₁ r₂ values value, script = before ++ c :: after ∧
      c.verb = m.verb ∧ m.passed r₁ = m.index ∧ r₁.abort = false ∧
      performAll plan.uncancelled r before = (r₁, .ok values) ∧
      r₁.act plan.uncancelled c.verb c.data = (r₂, .ok value) := by
  induction script with
  | nil =>
      intro r _ counted early reached
      have late := index_lt_of_reached counted reached
      omega
  | cons c cs ih =>
      intro r running counted early reached
      have free := perform_of_running running plan.uncancelled c.verb c.data
      generalize step : r.act plan.uncancelled c.verb c.data = result at free
      obtain ⟨r', outcome⟩ := result
      have deed := Deed.of_act step
      cases outcome with
      | error fault =>
          rw [performAll_cons_error free] at reached
          exact absurd reached (deed.unreached counted early)
      | ok value =>
          by_cases now : c.verb = m.verb ∧ m.passed r = m.index
          · exact ⟨[], c, cs, r, r', [], value, rfl, now.1, now.2, running, rfl, step⟩
          · obtain ⟨passed, events⟩ := deed.passed m
            have later : m.passed r' ≤ m.index := by
              by_cases counts : c.verb = m.verb
              · have notYet : m.passed r ≠ m.index := fun here => now ⟨counts, here⟩
                rw [if_pos counts] at passed
                omega
              · rw [if_neg counts] at passed
                omega
            rw [performAll_cons_ok free] at reached
            obtain ⟨before, c', after, r₁, r₂, values, value', split, kind, here, going, whole,
              last⟩ := ih r' (deed.abort.trans running) (by omega) later reached
            refine ⟨c :: before, c', after, r₁, r₂, value :: values, value', by simp [split], kind,
              here, going, ?_, last⟩
            rw [performAll_cons_ok free, whole]
            rfl

end Run

/-- What is seen of a cancelled script is what is seen of the same script up to the wait or the
point at which it is cancelled.  The commands behind it leave the run as it is, and the job ends as
it does when nothing fails. -/
theorem cancelled_prefix_of_whole (j : Job) (script : List Command) (plan : Plan) (stand : Stand)
    (clock : Clock) (moment : Moment) (whole : Run)
    (uncancelled : (j.body (.ok script) plan.uncancelled stand clock).run = some whole)
    (reached : moment.ReachedBy plan whole) :
    let out := j.body (.ok script) (plan.cancelledAt moment) stand clock
    ∃ cut, out.run = some cut ∧
      shown cut.events <+: shown whole.events ∧
      (∃ earlier event, shown cut.events = earlier ++ [event] ∧ moment.counts event = true ∧
        earlier.countP moment.counts = moment.index) ∧
      (∃ before command after begun done values value,
        script = before ++ command :: after ∧ command.verb = moment.verb ∧
        Run.performAll plan.uncancelled (Run.begin stand clock) before = (begun, .ok values) ∧
        begun.perform plan.uncancelled command.verb command.data = (done, .ok value) ∧
        cut = moment.stop begun done) ∧
      out.stand = cut.stand ∧ out.clock = cut.clock ∧
      out.raised = none ∧ out.job = ⟨false, false, j.completions + 1⟩ := by
  intro out
  rw [Job.body_ok, Job.conclude_run, Option.some.injEq] at uncancelled
  subst uncancelled
  obtain ⟨before, c, after, begun, done, values, value, split, kind, now, running, free, last⟩ :=
    Run.performAll_reaches plan moment script (Run.begin stand clock) rfl
      (by cases moment <;> rfl) (by cases moment <;> exact Nat.zero_le _) reached
  have freeStep : begun.perform plan.uncancelled c.verb c.data = (done, .ok value) := by
    rw [Run.perform_of_running running]
    exact last
  have cutStep : begun.perform (plan.cancelledAt moment) c.verb c.data =
      (moment.stop begun done, .ok value) := by
    rw [Run.perform_of_running running, kind]
    rw [kind] at last
    exact Run.act_cancelledAt now last
  have final : Run.performAll (plan.cancelledAt moment) (Run.begin stand clock)
      (before ++ c :: after) = _ :=
    Run.performAll_of_stop free now cutStep (moment.stop_abort begun done)
  have concluded : out = { j with bodyRunning := true }.conclude (moment.stop begun done)
      (if after = [] then .ok (values ++ [value]) else .error .aborted) := by
    simp only [out, Job.body_ok, split, final]
  rw [concluded]
  refine ⟨moment.stop begun done, Job.conclude_run _ _ _, ?_, ?_, ?_, ?_, ?_, ?_, ?_⟩
  · have grown : done.events <+:
        (Run.performAll plan.uncancelled (Run.begin stand clock) script).1.events := by
      rw [split, Run.performAll_append_ok free, Run.performAll_cons_ok freeStep]
      exact Run.performAll_events plan.uncancelled after done
    rw [Moment.stop_events]
    exact grown.filter _
  · rw [kind] at last
    obtain ⟨e, counts, seen⟩ := (Run.Deed.of_act last).marks
    have earlier := Run.performAll_counts plan.uncancelled moment before free
      (by cases moment <;> rfl)
    refine ⟨shown begun.events, e, ?_, counts, ?_⟩
    · rw [Moment.stop_events, seen]
    · rw [Run.countP_shown, earlier, now]
  · exact ⟨before, c, after, begun, done, values, value, split, kind, free, freeStep, rfl⟩
  · exact Job.conclude_stand _ _ _
  · exact Job.conclude_clock _ _ _
  · split <;> simp [Job.conclude_ok, Job.conclude_aborted]
  · split <;> simp [Job.conclude_ok, Job.conclude_aborted]

def twoWaits : List Command :=
  [⟨.wait, [['5']]⟩, ⟨.setThrottle, [['7']]⟩, ⟨.addPoint, []⟩, ⟨.wait, [['9']]⟩,
    ⟨.setThrottle, [['0']]⟩, ⟨.addPoint, []⟩]

theorem cancelled_prefix_of_whole_second_wait :
    (Moment.wait 1).ReachedBy { feed := [["lc1(5)"]] }
      (Run.performAll (Plan.uncancelled { feed := [["lc1(5)"]] })
        (Run.begin { port := some {} } {}) twoWaits).1 ∧
    (Job.body {} (.ok twoWaits) (Plan.cancelledAt { feed := [["lc1(5)"]] } (.wait 1))
      { port := some {} } {}).job = ⟨false, false, 1⟩ := by
  have reached : (Moment.wait 1).ReachedBy { feed := [["lc1(5)"]] }
      (Run.performAll (Plan.uncancelled { feed := [["lc1(5)"]] })
        (Run.begin { port := some {} } {}) twoWaits).1 := by
    simp only [Moment.ReachedBy]
    decide +kernel
  obtain ⟨cut, _, _, _, _, _, _, _, job⟩ :=
    cancelled_prefix_of_whole {} twoWaits { feed := [["lc1(5)"]] } { port := some {} } {}
      (.wait 1) _ (by rw [Job.body_ok, Job.conclude_run]) reached
  exact ⟨reached, job⟩

end ThrustBench.Script
