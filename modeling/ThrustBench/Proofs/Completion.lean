import ThrustBench.Proofs.Accepted
import ThrustBench.Proofs.Running
import ThrustBench.Session.Scripting

/-!
Which scripts end as they should.  A job is completed unless its file cannot be read or one of its
commands is kept from being carried out; then the button that would start the next script stays
locked.
-/

namespace ThrustBench

def Fails {α : Type} (result : Except Fault α) : Prop :=
  ∃ fault, result = .error fault ∧ fault ≠ .aborted

@[simp] theorem fails_error {α : Type} (fault : Fault) :
    Fails (.error fault : Except Fault α) ↔ fault ≠ .aborted := by
  simp [Fails]

@[simp] theorem fails_ok {α : Type} (value : α) : ¬Fails (.ok value : Except Fault α) := by
  simp [Fails]

theorem error_of_bind {α β : Type} {first : Except Fault α} {next : α → Except Fault β}
    {fault : Fault} (failed : first >>= next = .error fault) :
    first = .error fault ∨ ∃ value, first = .ok value ∧ next value = .error fault := by
  cases first with
  | error cause =>
      simp only [bind, Except.bind, Except.error.injEq] at failed
      exact .inl (by rw [failed])
  | ok value => exact .inr ⟨value, rfl, failed⟩

theorem Binary64.ofSteps_of_infinite {negative : Bool} {num den : Nat}
    (large : (ofSteps negative num den).isInfinite = true) :
    ofSteps negative num den = infinity negative := by
  by_cases small : nearest num den < limit
  · simp [ofSteps, small, isInfinite] at large
  · simp [ofSteps, small]

theorem Number.whole_lt_infinity (n : Int) : (whole n).lt (.real (.infinity false)) = true :=
  rfl

theorem Number.toReal_error {n : Number} {fault : Fault} (failed : n.toReal = .error fault) :
    fault = .wholeTooLarge := by
  cases n with
  | whole k =>
      simp only [toReal] at failed
      split at failed
      · exact (Except.error.inj failed).symm
      · simp at failed
  | real x => simp [toReal] at failed

theorem Number.sub_error {m n : Number} {fault : Fault} (failed : m.sub n = .error fault) :
    fault = .wholeTooLarge := by
  unfold sub at failed
  split at failed
  · simp at failed
  · rcases error_of_bind failed with first | ⟨x, _, later⟩
    · exact toReal_error first
    · rcases error_of_bind later with second | ⟨y, _, last⟩
      · exact toReal_error second
      · simp [pure, Except.pure] at last

theorem Datum.sub_error {a b : Datum} {fault : Fault} (failed : a.sub b = .error fault) :
    fault ≠ .aborted := by
  unfold sub at failed
  split at failed
  · simp [Number.sub_error failed]
  · simp [← Except.error.inj failed]

namespace Board

theorem reading_error {c : Channel} {line : String} {fault : Fault}
    (failed : reading c line = .error fault) : fault ≠ .aborted := by
  have long : ∀ {cause : Fault}, Reading.whole line = .error cause → cause ≠ .aborted := by
    intro cause unread
    unfold Reading.whole at unread
    split at unread
    · rename_i body _
      cases body with
      | unready => simp [Reading.WholeBody.value] at unread
      | number negative digits =>
          simp only [Reading.WholeBody.value] at unread
          split at unread
          · simp [← Except.error.inj unread]
          · simp at unread
    · simp at unread
  cases whole : Reading.whole line with
  | error cause =>
      cases c <;> simp [reading, whole, Except.map] at failed
      all_goals exact failed ▸ long whole
  | ok value => cases c <;> simp [reading, whole, Except.map] at failed

theorem announced_error {c : Channel} {n : Number} {offset : Datum} {fault : Fault}
    (failed : announced c n offset = .error fault) : fault ≠ .aborted := by
  rcases error_of_bind failed with first | ⟨difference, _, later⟩
  · exact Datum.sub_error first
  · split at later <;> simp [pure, Except.pure] at later

theorem decode_error {b : Board} {line : String} {fault : Fault}
    (failed : (b.decode line).2 = .error fault) : fault ≠ .aborted := by
  unfold decode at failed
  split at failed
  · simp at failed
  · split at failed
    · rename_i cause unread
      exact Except.error.inj failed ▸ reading_error unread
    · simp at failed
    · simp only at failed
      split at failed
      · rename_i cause unknown
        exact Except.error.inj failed ▸ announced_error unknown
      · simp at failed

/-- One of the lines fails when those before it were taken in. -/
def Chokes (b : Board) (lines : List String) : Prop :=
  ∃ before line after, lines = before ++ line :: after ∧ Fails ((b.decodeAll before).decode line).2

theorem not_chokes_nil (b : Board) : ¬b.Chokes [] := by
  rintro ⟨before, line, after, split, _⟩
  simp at split

theorem chokes_cons (b : Board) (line : String) (lines : List String) :
    b.Chokes (line :: lines) ↔ Fails (b.decode line).2 ∨ (b.decode line).1.Chokes lines := by
  constructor
  · rintro ⟨before, failing, after, split, fails⟩
    cases before with
    | nil =>
        simp only [List.nil_append, List.cons.injEq] at split
        rw [split.1]
        exact .inl fails
    | cons first before =>
        simp only [List.cons_append, List.cons.injEq] at split
        obtain ⟨rfl, rfl⟩ := split
        exact .inr ⟨before, failing, after, rfl, fails⟩
  · rintro (fails | ⟨before, failing, after, rfl, fails⟩)
    · exact ⟨[], line, lines, rfl, fails⟩
    · exact ⟨line :: before, failing, after, rfl, fails⟩

end Board

namespace Script

namespace Run

theorem hearAll_fails_iff (lines : List String) : ∀ r : Run,
    Fails (r.hearAll lines).2 ↔ r.stand.board.Chokes lines := by
  induction lines with
  | nil => intro r; simp [hearAll, Board.not_chokes_nil]
  | cons line lines ih =>
      intro r
      rw [Board.chokes_cons]
      cases outcome : (r.stand.board.decode line).2 with
      | error fault =>
          have other := Board.decode_error outcome
          simp [hearAll, hear, outcome, other]
      | ok announcement =>
          have later := ih (r.hear line).1
          simp only [hear, outcome, note] at later
          simp [hearAll, hear, outcome, note, later]

theorem beginWait_fails_iff (plan : Plan) (r : Run) :
    Fails (r.beginWait plan).2 ↔ r.stand.board.Chokes (plan.feed[r.waits]?.getD []) := by
  have lines : Fails ((r.note (.waited r.clock.now)).hearAll (plan.feed[r.waits]?.getD [])).2 ↔
      r.stand.board.Chokes (plan.feed[r.waits]?.getD []) :=
    hearAll_fails_iff _ (r.note (.waited r.clock.now))
  generalize whole : (r.note (.waited r.clock.now)).hearAll (plan.feed[r.waits]?.getD []) = result
    at lines
  obtain ⟨r', outcome⟩ := result
  cases outcome with
  | error fault => simpa [beginWait, whole] using lines
  | ok _ => simpa [beginWait, whole] using lines

/-- What keeps a command of a script that was read from being carried out. -/
inductive Hindered (plan : Plan) (r : Run) : Command → Prop
  | digits {verb : Verb} {digits : List Char} (number : verb = .setThrottle ∨ verb = .wait)
      (many : Fault.digitLimit < digits.length) : Hindered plan r ⟨verb, [digits]⟩
  | unconnected {digits : List Char} (small : decimal digits ≤ 100) (none : r.stand.port = none) :
      Hindered plan r ⟨.setThrottle, [digits]⟩
  | long {digits : List Char}
      (long : longestWait.lt (.real (Binary64.ofQuotient (decimal digits) 1000)) = true) :
      Hindered plan r ⟨.wait, [digits]⟩
  | line {digits : List Char} (chokes : r.stand.board.Chokes (plan.feed[r.waits]?.getD [])) :
      Hindered plan r ⟨.wait, [digits]⟩
  | refused {fault : Fault} (refusal : plan.refuse r.points r.handPoint.2 = some fault)
      (other : fault ≠ .aborted) : Hindered plan r ⟨.addPoint, []⟩

theorem setThrottle_fails_iff (plan : Plan) (r : Run) {digits : List Char} (given : digits ≠ [])
    (plain : ∀ c ∈ digits, c.isDigit = true) :
    Fails (r.setThrottle (Command.data ⟨.setThrottle, [digits]⟩)).2 ↔
      Hindered plan r ⟨.setThrottle, [digits]⟩ := by
  have value := Command.one_whole .setThrottle given plain
  by_cases many : Fault.digitLimit < digits.length
  · rw [if_pos many] at value
    rw [setThrottle_unread value]
    exact ⟨fun _ => .digits (.inl rfl) many, fun _ => by simp⟩
  · rw [if_neg many] at value
    by_cases small : decimal digits ≤ 100
    · have inside : 0 ≤ (decimal digits : Int) ∧ (decimal digits : Int) ≤ 100 := by omega
      cases connected : r.stand.port with
      | none =>
          rw [setThrottle_unconnected value inside connected]
          exact ⟨fun _ => .unconnected small connected, fun _ => by simp⟩
      | some p =>
          rw [setThrottle_inside value inside connected]
          refine ⟨fun fails => by simp at fails, ?_⟩
          rintro (⟨_, many'⟩ | ⟨_, none⟩)
          · exact absurd many' many
          · simp [connected] at none
    · have outside : ¬(0 ≤ (decimal digits : Int) ∧ (decimal digits : Int) ≤ 100) := by omega
      rw [setThrottle_outside value outside]
      refine ⟨fun fails => by simp at fails, ?_⟩
      rintro (⟨_, many'⟩ | ⟨small', _⟩)
      · exact absurd many' many
      · exact absurd small' small

theorem lt_of_infinite {num : Nat} (large : (Binary64.ofQuotient num 1000).isInfinite = true) :
    longestWait.lt (.real (Binary64.ofQuotient num 1000)) = true := by
  have positive : decide ((num : Int) < 0) = false := by simp
  rw [Binary64.ofQuotient, positive] at large ⊢
  rw [Binary64.ofSteps_of_infinite large]
  exact Number.whole_lt_infinity _

theorem waitLength_plain {digits : List Char} (given : digits ≠ [])
    (plain : ∀ c ∈ digits, c.isDigit = true) (few : ¬Fault.digitLimit < digits.length) :
    waitLength (Command.data ⟨.wait, [digits]⟩) =
      if (Binary64.ofQuotient (decimal digits) 1000).isInfinite then .error .quotientTooLarge
      else .ok (Binary64.ofQuotient (decimal digits) 1000) := by
  have value := Command.one_whole .wait given plain
  rw [if_neg few] at value
  simp [waitLength, value, Number.div]

theorem waitSeconds_fails_iff (plan : Plan) (r : Run) (seconds : Binary64) :
    Fails (r.waitSeconds plan seconds).2 ↔
      r.stand.board.Chokes (plan.feed[r.waits]?.getD []) := by
  rw [← beginWait_fails_iff plan r]
  generalize begun : r.beginWait plan = result
  obtain ⟨r', outcome⟩ := result
  cases outcome with
  | error fault => simp [waitSeconds, begun]
  | ok _ =>
      simp only [waitSeconds, begun]
      split <;> simp

theorem wait_fails_iff (plan : Plan) (r : Run) {digits : List Char} (given : digits ≠ [])
    (plain : ∀ c ∈ digits, c.isDigit = true) :
    Fails (r.wait plan (Command.data ⟨.wait, [digits]⟩)).2 ↔
      Hindered plan r ⟨.wait, [digits]⟩ := by
  by_cases many : Fault.digitLimit < digits.length
  · have value := Command.one_whole .wait given plain
    rw [if_pos many] at value
    simp only [wait, waitLength, value]
    exact ⟨fun _ => .digits (.inr rfl) many, fun _ => by simp⟩
  · have length := waitLength_plain given plain many
    by_cases large : (Binary64.ofQuotient (decimal digits) 1000).isInfinite = true
    · rw [if_pos large] at length
      simp only [wait, length]
      exact ⟨fun _ => .long (lt_of_infinite large), fun _ => by simp⟩
    · rw [if_neg large] at length
      by_cases long : longestWait.lt (.real (Binary64.ofQuotient (decimal digits) 1000)) = true
      · simp only [wait, length, long, if_true]
        exact ⟨fun _ => .long long, fun _ => by simp⟩
      · rw [Bool.not_eq_true] at long
        simp only [wait, length, long, Bool.false_eq_true, if_false]
        rw [waitSeconds_fails_iff]
        refine ⟨.line, ?_⟩
        rintro (⟨_, many'⟩ | _ | long' | chokes)
        · exact absurd many' many
        · simp [long] at long'
        · exact chokes

theorem addPoint_fails_iff (plan : Plan) (r : Run) :
    Fails (r.addPoint plan).2 ↔ Hindered plan r ⟨.addPoint, []⟩ := by
  cases refusal : plan.refuse r.points r.handPoint.2 with
  | none =>
      simp only [addPoint, refusal]
      refine ⟨fun fails => by simp at fails, ?_⟩
      rintro (_ | _ | _ | _ | ⟨refusal', _⟩)
      simp [refusal] at refusal'
  | some fault =>
      simp only [addPoint, refusal, fails_error]
      refine ⟨.refused refusal, ?_⟩
      rintro (_ | _ | _ | _ | ⟨refusal', other⟩)
      rw [refusal, Option.some.injEq] at refusal'
      rw [refusal']
      exact other

theorem act_fails_iff (plan : Plan) (r : Run) {c : Command} (fits : c.WellFormed) :
    Fails (r.act plan c.verb c.data).2 ↔ Hindered plan r c := by
  obtain ⟨verb, arguments⟩ := c
  cases verb with
  | setThrottle =>
      obtain _ | ⟨plain, none⟩ := fits
      cases none
      exact setThrottle_fails_iff plan r plain.1 plain.2
  | wait =>
      obtain _ | ⟨plain, none⟩ := fits
      cases none
      exact wait_fails_iff plan r plain.1 plain.2
  | addPoint =>
      cases fits
      exact addPoint_fails_iff plan r
  | read channel =>
      refine ⟨fun fails => by simp [act] at fails, ?_⟩
      rintro (⟨number, _⟩)
      simp at number
  | useSpreadsheet =>
      refine ⟨fun fails => by simp [act] at fails, ?_⟩
      rintro (⟨number, _⟩)
      simp at number
  | useRaw =>
      obtain _ | ⟨_, none⟩ := fits
      refine ⟨fun fails => by simp [act, Command.data, chooseRaw] at fails, ?_⟩
      rintro (⟨number, _⟩)
      simp at number
  | writeSheetCell =>
      obtain _ | ⟨_, _ | ⟨_, _ | ⟨_, none⟩⟩⟩ := fits
      cases none
      refine ⟨fun fails => by simp [act, Command.data, writeSheetCell, unpackThree] at fails, ?_⟩
      rintro ⟨⟩

theorem perform_fails_iff (plan : Plan) (r : Run) (verb : Verb) (args : List Datum) :
    Fails (r.perform plan verb args).2 ↔ r.abort = false ∧ Fails (r.act plan verb args).2 := by
  cases running : r.abort with
  | false => simp [perform_of_running running]
  | true => simp [perform_of_cancelled running]

theorem Deed.abort_of_error {plan : Plan} {r r' : Run} {verb : Verb} {args : List Datum}
    {fault : Fault} (deed : Deed plan r verb args r' (.error fault)) : r'.abort = r.abort := by
  cases deed with
  | fails | interrupted | refused => rfl

theorem blame_eq_aborted {c : Command} {fault : Fault} :
    blame c fault = .aborted ↔ fault = .aborted := by
  cases fault <;> simp [blame]

theorem performAll_fails_iff (plan : Plan) (r : Run) (script : List Command) :
    Fails (performAll plan r script).2 ↔
      ∃ before c after r₁ values, script = before ++ c :: after ∧
        performAll plan r before = (r₁, .ok values) ∧
        Fails (r₁.perform plan c.verb c.data).2 := by
  constructor
  · rintro ⟨fault, failed, other⟩
    obtain ⟨before, c, after, r₁, values, cause, split, first, step, rfl⟩ :=
      performAll_error_inv (Prod.ext rfl failed)
    refine ⟨before, c, after, r₁, values, split, first, cause, by rw [step], ?_⟩
    simpa [blame_eq_aborted] using other
  · rintro ⟨before, c, after, r₁, values, rfl, first, cause, failed, other⟩
    have step : r₁.perform plan c.verb c.data = ((r₁.perform plan c.verb c.data).1, .error cause) :=
      Prod.ext rfl failed
    rw [performAll_append_ok first, performAll_cons_error step]
    simpa [Except.map, blame_eq_aborted] using other

theorem performAll_fails_running {plan : Plan} {r : Run} {script : List Command}
    (fails : Fails (performAll plan r script).2) : (performAll plan r script).1.abort = false := by
  obtain ⟨fault, failed, other⟩ := fails
  obtain ⟨before, c, after, r₁, values, cause, split, first, step, rfl⟩ :=
    performAll_error_inv (Prod.ext rfl failed)
  have running := (perform_fails_iff plan r₁ c.verb c.data).mp
    ⟨cause, by rw [step], by simpa [blame_eq_aborted] using other⟩
  rw [(Deed.of_perform step).abort_of_error]
  exact running.1

end Run

/-- The script of a file breaks off: the file cannot be read, or a command that is reached is
hindered. -/
def Breaks (content : Except Fault (List UInt8)) (plan : Plan) (stand : Stand) (clock : Clock) :
    Prop :=
  match content >>= parseFile with
  | .error _ => True
  | .ok script =>
    ∃ before c after r values, script = before ++ c :: after ∧
      Run.performAll plan (Run.begin stand clock) before = (r, .ok values) ∧
      r.abort = false ∧ Run.Hindered plan r c

theorem breaks_iff_fails {content : Except Fault (List UInt8)} {script : List Command}
    (accepted : content >>= parseFile = .ok script) (plan : Plan) (stand : Stand) (clock : Clock) :
    Breaks content plan stand clock ↔
      Fails (Run.performAll plan (Run.begin stand clock) script).2 := by
  have fits : ∀ c ∈ script, c.WellFormed := by
    cases content with
    | error fault => simp [bind, Except.bind] at accepted
    | ok bytes => exact (parseFile_wellFormed accepted).2
  simp only [Breaks, accepted, Run.performAll_fails_iff]
  constructor
  · rintro ⟨before, c, after, r, values, rfl, first, running, hindered⟩
    refine ⟨before, c, after, r, values, rfl, first, ?_⟩
    rw [Run.perform_fails_iff, Run.act_fails_iff plan r (fits c (by simp))]
    exact ⟨running, hindered⟩
  · rintro ⟨before, c, after, r, values, rfl, first, fails⟩
    rw [Run.perform_fails_iff, Run.act_fails_iff plan r (fits c (by simp))] at fails
    exact ⟨before, c, after, r, values, rfl, first, fails.1, fails.2⟩

namespace Job

theorem conclude_failed {j : Job} {run : Run} {fault : Fault} (running : run.abort = false)
    (other : fault ≠ .aborted) :
    j.conclude run (.error fault) =
      { job := j, stand := run.stand, clock := run.clock, run := some run,
        raised := some fault } := by
  cases fault <;> simp_all [conclude]

theorem body_of_breaks (j : Job) {content : Except Fault (List UInt8)} {plan : Plan}
    {stand : Stand} {clock : Clock} (breaks : Breaks content plan stand clock) :
    (j.body (content >>= parseFile) plan stand clock).job = { j with bodyRunning := true } ∧
      (j.body (content >>= parseFile) plan stand clock).raised.isSome = true := by
  cases accepted : content >>= parseFile with
  | error fault => exact ⟨rfl, rfl⟩
  | ok script =>
      rw [breaks_iff_fails accepted] at breaks
      have running := Run.performAll_fails_running breaks
      obtain ⟨fault, failed, other⟩ := breaks
      rw [body_ok, failed, conclude_failed running other]
      exact ⟨rfl, rfl⟩

theorem body_of_unbroken (j : Job) {content : Except Fault (List UInt8)} {plan : Plan}
    {stand : Stand} {clock : Clock} (unbroken : ¬Breaks content plan stand clock) :
    (j.body (content >>= parseFile) plan stand clock).job = ⟨false, false, j.completions + 1⟩ ∧
      (j.body (content >>= parseFile) plan stand clock).raised = none := by
  cases accepted : content >>= parseFile with
  | error fault => exact absurd (by simp [Breaks, accepted]) unbroken
  | ok script =>
      rw [breaks_iff_fails accepted] at unbroken
      rw [body_ok]
      cases result : (Run.performAll plan (Run.begin stand clock) script).2 with
      | ok values => simp [conclude_ok]
      | error fault =>
          have cancelled : fault = .aborted := by
            by_contra other
            exact unbroken ⟨fault, result, other⟩
          rw [cancelled, conclude_aborted]
          exact ⟨rfl, rfl⟩

end Job

end Script

namespace Session

theorem replayAll_panel (events : List Script.Event) : ∀ s : Session,
    (s.replayAll events).1.panel = s.panel := by
  induction events with
  | nil => intro s; rfl
  | cons e es ih =>
      intro s
      have kept : (s.replay e).1.panel = s.panel := by
        cases e with
        | heard announcement => cases announcement <;> rfl
        | _ => rfl
      exact (ih _).trans kept

def startedPlan (s : Session) (feed : List (List String)) (pressAtWait : Option Nat) :
    Script.Plan :=
  { s.panel.start.plan feed pressAtWait with
    refuse := fun _ p => Recorder.refusal? (s.scriptRow p) }

theorem runScript_panel (s : Session) (feed : List (List String)) (pressAtWait : Option Nat) :
    ∃ begun : Bool,
      ({ s with panel := s.panel.start }.runScript feed pressAtWait).session.panel =
        let panel : Script.Panel := { s.panel.start with thread := some ⟨s.panel.selected, begun⟩ }
        if (Script.Job.body {} (s.panel.selected.content s.panel.otherText >>= Script.parseFile)
          (s.startedPlan feed pressAtWait) s.stand s.clock).raised.isNone then panel.complete
        else panel := by
  refine ⟨(Script.Job.body {} (s.panel.selected.content s.panel.otherText >>= Script.parseFile)
    (s.startedPlan feed pressAtWait) s.stand s.clock).run.isSome, ?_⟩
  simp only [runScript, Script.Panel.start, replayAll_panel, Script.Panel.afterBody]
  rfl

theorem pressScript_of_running {s : Session} (running : s.panel.running = true) :
    s.pressScript.session = s := by
  have same : s.panel.press.1 = s.panel := by
    simp only [Script.Panel.press, running, if_true]
    split <;> rfl
  simp only [pressScript, same]

theorem pressScript_of_idle {s : Session} (idle : s.panel.running = false) :
    s.pressScript.session = { s with panel := s.panel.start } := by
  simp [pressScript, Script.Panel.press, idle]

end Session

/-- A job is completed once, and the next press of the button starts a script, exactly if the
script did not break off.  If it did, the job is left as it was under way, and pressing the button
does nothing any more. -/
theorem completed_iff_unbroken (j : Script.Job) (content : Except Fault (List UInt8))
    (plan : Script.Plan) (stand : Stand) (clock : Clock) (s : Session) (feed : List (List String))
    (pressAtWait : Option Nat) :
    let out := j.body (content >>= Script.parseFile) plan stand clock
    let after := ({ s with panel := s.panel.start }.runScript feed pressAtWait).session
    let breaks := Script.Breaks (s.panel.selected.content s.panel.otherText)
      (s.startedPlan feed pressAtWait) s.stand s.clock
    (¬Script.Breaks content plan stand clock ↔ out.job = ⟨false, false, j.completions + 1⟩) ∧
      (Script.Breaks content plan stand clock →
        out.job = ⟨j.scriptRunning, true, j.completions⟩ ∧ out.raised.isSome = true) ∧
      (¬breaks → after.panel.running = false ∧
        after.pressScript.session = { after with panel := after.panel.start }) ∧
      (breaks → after.panel.running = true ∧ after.pressScript.session = after ∧
        after.panel.buttonText = "Cancel" ∧ after.panel.selectorEnabled = false) := by
  intro out after breaks
  obtain ⟨begun, panel⟩ := s.runScript_panel feed pressAtWait
  change after.panel = _ at panel
  refine ⟨⟨?_, ?_⟩, fun broken => j.body_of_breaks broken, ?_, ?_⟩
  · exact fun unbroken => (j.body_of_unbroken unbroken).1
  · intro completed broken
    have left := (j.body_of_breaks broken).1
    simp only [out] at completed
    simp [completed] at left
  · intro unbroken
    rw [(Script.Job.body_of_unbroken {} unbroken).2] at panel
    have idle : after.panel.running = false := by rw [panel]; rfl
    exact ⟨idle, Session.pressScript_of_idle idle⟩
  · intro broken
    have raised := (Script.Job.body_of_breaks {} broken).2
    rw [← Option.not_isNone, Bool.not_eq_true'] at raised
    simp only [raised, Bool.false_eq_true, if_false] at panel
    have running : after.panel.running = true := by rw [panel]; rfl
    exact ⟨running, Session.pressScript_of_running running, by rw [panel]; rfl, by rw [panel]; rfl⟩

def straySign : List UInt8 := "WAIT 5 @".toUTF8.toList

theorem completed_iff_unbroken_straySign :
    Script.Breaks (.ok straySign) {} {} {} ∧
      (Script.Job.body {} (.ok straySign >>= Script.parseFile) {} {} {}).job =
        ⟨true, true, 0⟩ := by
  have unread : (Script.parseFile straySign).toOption = none := by decide +kernel
  have breaks : Script.Breaks (.ok straySign) {} {} {} := by
    cases parsed : Script.parseFile straySign with
    | error fault => simp [Script.Breaks, bind, Except.bind, parsed]
    | ok script => simp [parsed, Except.toOption] at unread
  exact ⟨breaks, ((completed_iff_unbroken {} (.ok straySign) {} {} {}
    (.start [] {}) [] none).2.1 breaks).1⟩

end ThrustBench
