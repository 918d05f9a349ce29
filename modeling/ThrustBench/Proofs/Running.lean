import ThrustBench.Proofs.WholeDoubles
import ThrustBench.Script.Job

/-!
What one command of a script can change, and from it what a whole run can change.
-/

namespace ThrustBench

def Board.decodeAll (b : Board) (lines : List String) : Board :=
  lines.foldl (fun b line => (b.decode line).1) b

theorem Board.decodeAll_append (b : Board) (first second : List String) :
    b.decodeAll (first ++ second) = (b.decodeAll first).decodeAll second := by
  simp [decodeAll]

def Port.delivered (p : Port) (text : String) : List String :=
  if p.isOpen && !p.failing then [text ++ "\n"] else []

theorem Port.write_text (p : Port) (text : String) :
    (p.write (.text text)).1 = { p with written := p.written ++ p.delivered text } := by
  by_cases works : (p.isOpen && !p.failing) = true
  · simp [write, delivered, works]
  · simp [write, delivered, works]

theorem Number.whole_lt_whole (m n : Int) : (Number.whole m).lt (.whole n) = decide (m < n) := by
  have positive : (0 : Int) < (Binary64.unit : Int) := by
    have natural := Binary64.unit_pos
    omega
  simp only [lt, steps?]
  rw [decide_eq_decide]
  exact Int.mul_lt_mul_right positive

theorem Stand.setThrottle_inside (s : Stand) {k : Int} (inside : 0 ≤ k ∧ k ≤ 100) :
    s.setThrottle (.whole k) = s.send (.text (throttleCommand (.whole k))) := by
  have notBelow : (Datum.whole k).lt (.whole 0) = .ok false := by
    simp only [Datum.lt, Datum.number?, Number.whole_lt_whole]
    simp [inside.1]
  have notAbove : (Datum.whole 100).lt (.whole k) = .ok false := by
    simp only [Datum.lt, Datum.number?, Number.whole_lt_whole]
    simp [inside.2]
  have fits : outsideThrottle (.whole k) = .ok false := by
    simp only [outsideThrottle, notBelow, notAbove]
    rfl
  simp only [setThrottle, fits]
  rfl

end ThrustBench

namespace ThrustBench.Script

def Event.isShown : Event → Bool
  | .heard _ => false
  | _ => true

def Event.isWait : Event → Bool
  | .waited _ => true
  | _ => false

def Event.sent? : Event → Option String
  | .sent text => some text
  | _ => none

def Event.point? : Event → Option Point
  | .point p => some p
  | _ => none

def shown (events : List Event) : List Event := events.filter Event.isShown

def sentBy (events : List Event) : List String := events.filterMap Event.sent?

def pointsOf (events : List Event) : List Point := events.filterMap Event.point?

theorem shown_append (first second : List Event) :
    shown (first ++ second) = shown first ++ shown second :=
  List.filter_append _ _

theorem shown_cons_of_shown {e : Event} (visible : e.isShown = true) (events : List Event) :
    shown (e :: events) = e :: shown events :=
  List.filter_cons_of_pos visible

theorem shown_of_hidden {events : List Event} (hidden : ∀ e ∈ events, e.isShown = false) :
    shown events = [] := by
  simpa [shown, List.filter_eq_nil_iff] using hidden

theorem sentBy_of_hidden {events : List Event} (hidden : ∀ e ∈ events, e.isShown = false) :
    sentBy events = [] := by
  rw [sentBy, List.filterMap_eq_nil_iff]
  intro e member
  have notShown := hidden e member
  cases e with
  | heard => rfl
  | _ => simp [Event.isShown] at notShown

theorem pointsOf_of_hidden {events : List Event} (hidden : ∀ e ∈ events, e.isShown = false) :
    pointsOf events = [] := by
  rw [pointsOf, List.filterMap_eq_nil_iff]
  intro e member
  have notShown := hidden e member
  cases e with
  | heard => rfl
  | _ => simp [Event.isShown] at notShown

def Plan.uncancelled (plan : Plan) : Plan :=
  { plan with cancelAtWait := none, cancelAtPoint := none }

@[simp] theorem Plan.uncancelled_feed (plan : Plan) : plan.uncancelled.feed = plan.feed := rfl

@[simp] theorem Plan.uncancelled_refuse (plan : Plan) : plan.uncancelled.refuse = plan.refuse := rfl

@[simp] theorem Plan.uncancelled_cancelAtWait (plan : Plan) :
    plan.uncancelled.cancelAtWait = none := rfl

@[simp] theorem Plan.uncancelled_cancelAtPoint (plan : Plan) :
    plan.uncancelled.cancelAtPoint = none := rfl

namespace Run

theorem hearAll_spec (lines : List String) : ∀ r : Run, ∃ board heard,
    (∀ e ∈ heard, e.isShown = false) ∧
    (r.hearAll lines).1 =
      { r with stand := { r.stand with board }, events := r.events ++ heard } ∧
    ((r.hearAll lines).2 = .ok () → board = r.stand.board.decodeAll lines) := by
  induction lines with
  | nil =>
      intro r
      exact ⟨r.stand.board, [], by simp, by simp [hearAll], fun _ => rfl⟩
  | cons line lines ih =>
      intro r
      cases outcome : (r.stand.board.decode line).2 with
      | error fault =>
          refine ⟨(r.stand.board.decode line).1, [], by simp, ?_, ?_⟩
          · simp [hearAll, hear, outcome]
          · simp [hearAll, hear, outcome]
      | ok announcement =>
          have first : r.hear line =
              ({ r with
                  stand := { r.stand with board := (r.stand.board.decode line).1 }
                  events := r.events ++ [.heard announcement] }, .ok ()) := by
            simp [hear, outcome, note]
          obtain ⟨board, heard, hidden, state, taken⟩ := ih (r.hear line).1
          refine ⟨board, .heard announcement :: heard, ?_, ?_, ?_⟩
          · intro e member
            rcases List.mem_cons.mp member with rfl | later
            · rfl
            · exact hidden e later
          · simp only [first] at state
            simp [hearAll, first, state]
          · intro worked
            simp only [first] at taken
            simp only [hearAll, first] at worked
            exact taken worked

theorem beginWait_ok {plan : Plan} {r r' : Run} {u : Unit}
    (begun : r.beginWait plan = (r', .ok u)) :
    ∃ heard, (∀ e ∈ heard, e.isShown = false) ∧
      r' = { r with
        stand := { r.stand with
          board := r.stand.board.decodeAll (plan.feed[r.waits]?.getD []) }
        waits := r.waits + 1
        events := r.events ++ .waited r.clock.now :: heard } := by
  obtain ⟨board, heard, hidden, state, taken⟩ :=
    hearAll_spec (plan.feed[r.waits]?.getD []) (r.note (.waited r.clock.now))
  generalize whole : (r.note (.waited r.clock.now)).hearAll (plan.feed[r.waits]?.getD []) = result
    at state taken
  obtain ⟨r'', outcome⟩ := result
  cases outcome with
  | error fault => simp [beginWait, whole] at begun
  | ok _ =>
      simp only [beginWait, whole, Prod.mk.injEq, and_true] at begun
      simp only at state
      refine ⟨heard, hidden, ?_⟩
      rw [← begun, state, taken rfl]
      simp [note]

theorem beginWait_error {plan : Plan} {r r' : Run} {fault : Fault}
    (begun : r.beginWait plan = (r', .error fault)) :
    ∃ board heard, (∀ e ∈ heard, e.isShown = false) ∧
      r' = { r with
        stand := { r.stand with board }
        events := r.events ++ .waited r.clock.now :: heard } := by
  obtain ⟨board, heard, hidden, state, _⟩ :=
    hearAll_spec (plan.feed[r.waits]?.getD []) (r.note (.waited r.clock.now))
  generalize whole : (r.note (.waited r.clock.now)).hearAll (plan.feed[r.waits]?.getD []) = result
    at state
  obtain ⟨r'', outcome⟩ := result
  cases outcome with
  | error _ =>
      simp only [beginWait, whole, Prod.mk.injEq] at begun
      simp only at state
      refine ⟨board, heard, hidden, ?_⟩
      rw [← begun.1, state]
      simp [note]
  | ok _ => simp [beginWait, whole] at begun

theorem foldl_note (texts : List String) (event : String → Event) : ∀ r : Run,
    texts.foldl (fun r text => r.note (event text)) r =
      { r with events := r.events ++ texts.map event } := by
  induction texts with
  | nil => intro r; simp
  | cons text texts ih =>
      intro r
      rw [List.foldl_cons, ih]
      simp [note]

theorem print_eq (r : Run) (text : String) :
    r.print text = { r with events := r.events ++ (text.splitOn "\n").map .printed } :=
  foldl_note _ _ r

theorem setThrottle_inside {r : Run} {args : List Datum} {k : Int} {p : Port}
    (value : unpackOne args >>= Datum.toWhole = .ok k) (inside : 0 ≤ k ∧ k ≤ 100)
    (connected : r.stand.port = some p) :
    r.setThrottle args =
      ({ r with
          stand := { r.stand with
            port := some { p with
              written := p.written ++ p.delivered (Stand.throttleCommand (.whole k)) } }
          throttle := k
          events := r.events ++ (p.delivered (Stand.throttleCommand (.whole k))).map .sent },
        .ok .nothing) := by
  simp only [setThrottle, value, inside, and_self, if_true, Stand.setThrottle_inside r.stand inside,
    Stand.send, connected, Port.write_text, Option.map_some, Option.getD_some,
    List.drop_left, foldl_note]

theorem setThrottle_unconnected {r : Run} {args : List Datum} {k : Int}
    (value : unpackOne args >>= Datum.toWhole = .ok k) (inside : 0 ≤ k ∧ k ≤ 100)
    (unconnected : r.stand.port = none) :
    r.setThrottle args = (r, .error (.lacks .nothing "sendCommandSignal")) := by
  simp only [setThrottle, value, inside, and_self, if_true, Stand.setThrottle_inside r.stand inside,
    Stand.send, unconnected]

theorem setThrottle_outside {r : Run} {args : List Datum} {k : Int}
    (value : unpackOne args >>= Datum.toWhole = .ok k) (outside : ¬(0 ≤ k ∧ k ≤ 100)) :
    r.setThrottle args = ({ r with throttle := k }, .ok .nothing) := by
  simp only [setThrottle, value, outside, if_false]

theorem setThrottle_unread {r : Run} {args : List Datum} {fault : Fault}
    (value : unpackOne args >>= Datum.toWhole = .error fault) :
    r.setThrottle args = (r, .error fault) := by
  simp only [setThrottle, value]

@[simp] theorem handPoint_run (r : Run) :
    r.handPoint.1 =
      { r with
        clock := (milliseconds r.clock).2
        points := r.points + 1
        events := r.events ++ [.point r.handPoint.2] } := rfl

@[simp] theorem handPoint_throttle (r : Run) : r.handPoint.2.throttle = r.throttle := rfl

/-- What a command can do to a run, and what it then returns. -/
inductive Deed (plan : Plan) (r : Run) : Verb → List Datum → Run → Except Fault Datum → Prop
  | fails {verb args} (fault : Fault) : Deed plan r verb args r (.error fault)
  | sends {args k p} (value : unpackOne args >>= Datum.toWhole = .ok k)
      (inside : 0 ≤ k ∧ k ≤ 100) (connected : r.stand.port = some p) :
      Deed plan r .setThrottle args
        { r with
          stand := { r.stand with
            port := some { p with
              written := p.written ++ p.delivered (Stand.throttleCommand (.whole k)) } }
          throttle := k
          events := r.events ++ (p.delivered (Stand.throttleCommand (.whole k))).map .sent }
        (.ok .nothing)
  | remembers {args k} (value : unpackOne args >>= Datum.toWhole = .ok k)
      (outside : ¬(0 ≤ k ∧ k ≤ 100)) :
      Deed plan r .setThrottle args { r with throttle := k } (.ok .nothing)
  | reads {args} (c : Channel) : Deed plan r (.read c) args r (.ok (r.read c))
  | interrupted {args} (board : Board) (heard : List Event) (fault : Fault)
      (hidden : ∀ e ∈ heard, e.isShown = false) :
      Deed plan r .wait args
        { r with
          stand := { r.stand with board }
          events := r.events ++ .waited r.clock.now :: heard }
        (.error fault)
  | waits {args} (heard : List Event) (abort : Bool) (clock : Clock)
      (hidden : ∀ e ∈ heard, e.isShown = false)
      (cancelled : abort = (r.abort || decide (plan.cancelAtWait = some r.waits))) :
      Deed plan r .wait args
        { r with
          stand := { r.stand with
            board := r.stand.board.decodeAll (plan.feed[r.waits]?.getD []) }
          clock, abort
          waits := r.waits + 1
          events := r.events ++ .waited r.clock.now :: heard }
        (.ok .nothing)
  | prints {verb args} (lines : List String)
      (which : verb = .useSpreadsheet ∨ verb = .writeSheetCell) :
      Deed plan r verb args { r with events := r.events ++ lines.map .printed } (.ok .nothing)
  | chooses {word others} :
      Deed plan r .useRaw (.text word :: others) { r with useRaw := isTrue word } (.ok .nothing)
  | refused {args fault} (refusal : plan.refuse r.points r.handPoint.2 = some fault) :
      Deed plan r .addPoint args r.handPoint.1 (.error fault)
  | adds {args} (accepted : plan.refuse r.points r.handPoint.2 = none) :
      Deed plan r .addPoint args
        { r.handPoint.1 with
          abort := r.abort || decide (plan.cancelAtPoint = some r.points) }
        (.ok .nothing)

theorem setThrottle_deed (plan : Plan) (r : Run) (args : List Datum) :
    Deed plan r .setThrottle args (r.setThrottle args).1 (r.setThrottle args).2 := by
  cases value : unpackOne args >>= Datum.toWhole with
  | error fault =>
      rw [setThrottle_unread value]
      exact .fails fault
  | ok k =>
      by_cases inside : 0 ≤ k ∧ k ≤ 100
      · cases connected : r.stand.port with
        | none =>
            rw [setThrottle_unconnected value inside connected]
            exact .fails _
        | some p =>
            rw [setThrottle_inside value inside connected]
            exact .sends value inside connected
      · rw [setThrottle_outside value inside]
        exact .remembers value inside

theorem waitSeconds_deed (plan : Plan) (r : Run) (args : List Datum) (seconds : Binary64) :
    Deed plan r .wait args (r.waitSeconds plan seconds).1 (r.waitSeconds plan seconds).2 := by
  generalize begun : r.beginWait plan = result
  obtain ⟨r', outcome⟩ := result
  cases outcome with
  | error fault =>
      simp only [waitSeconds, begun]
      obtain ⟨board, heard, hidden, rfl⟩ := beginWait_error begun
      exact .interrupted board heard fault hidden
  | ok _ =>
      simp only [waitSeconds, begun]
      obtain ⟨heard, hidden, rfl⟩ := beginWait_ok begun
      by_cases cancelled : plan.cancelAtWait = some r.waits
      · simp only [cancelled, if_true]
        exact .waits heard true r.clock hidden (by simp [cancelled])
      · simp only [cancelled, if_false]
        exact .waits heard r.abort (r.clock.wait seconds) hidden (by simp [cancelled])

theorem wait_deed (plan : Plan) (r : Run) (args : List Datum) :
    Deed plan r .wait args (r.wait plan args).1 (r.wait plan args).2 := by
  cases length : waitLength args with
  | error fault =>
      simp only [wait, length]
      exact .fails fault
  | ok seconds =>
      simp only [wait, length]
      split
      · exact .fails .waitTooLong
      · exact waitSeconds_deed plan r args seconds

theorem chooseRaw_deed (plan : Plan) (r : Run) (args : List Datum) :
    Deed plan r .useRaw args (r.chooseRaw args).1 (r.chooseRaw args).2 := by
  cases args with
  | nil => exact .fails _
  | cons first others =>
      cases first with
      | text word => exact .chooses
      | _ => exact .fails _

theorem writeSheetCell_deed (plan : Plan) (r : Run) (args : List Datum) :
    Deed plan r .writeSheetCell args (r.writeSheetCell args).1 (r.writeSheetCell args).2 := by
  cases values : unpackThree args with
  | error fault =>
      simp only [writeSheetCell, values]
      exact .fails fault
  | ok triple =>
      simp only [writeSheetCell, values, print_eq]
      exact .prints _ (.inr rfl)

theorem addPoint_deed (plan : Plan) (r : Run) (args : List Datum) :
    Deed plan r .addPoint args (r.addPoint plan).1 (r.addPoint plan).2 := by
  cases refusal : plan.refuse r.points r.handPoint.2 with
  | some fault =>
      simp only [addPoint, refusal]
      exact .refused refusal
  | none =>
      simp only [addPoint, refusal]
      exact .adds refusal

theorem act_deed (plan : Plan) (r : Run) (verb : Verb) (args : List Datum) :
    Deed plan r verb args (r.act plan verb args).1 (r.act plan verb args).2 := by
  cases verb with
  | setThrottle => exact setThrottle_deed plan r args
  | read c => exact .reads c
  | wait => exact wait_deed plan r args
  | useSpreadsheet =>
      simp only [act, print_eq]
      exact .prints _ (.inl rfl)
  | useRaw => exact chooseRaw_deed plan r args
  | writeSheetCell => exact writeSheetCell_deed plan r args
  | addPoint => exact addPoint_deed plan r args

theorem Deed.events {plan : Plan} {r r' : Run} {verb : Verb} {args : List Datum}
    {result : Except Fault Datum} (deed : Deed plan r verb args r' result) :
    r.events <+: r'.events := by
  cases deed with
  | fails | remembers | reads | chooses => exact List.prefix_rfl
  | sends | interrupted | waits | prints | refused | adds => exact List.prefix_append _ _

theorem Deed.abort {plan : Plan} {r r' : Run} {verb : Verb} {args : List Datum}
    {result : Except Fault Datum} (deed : Deed plan.uncancelled r verb args r' result) :
    r'.abort = r.abort := by
  cases deed with
  | waits _ _ _ _ cancelled => simpa using cancelled
  | adds => simp
  | fails | remembers | reads | chooses | sends | interrupted | prints | refused => rfl

theorem perform_of_running {r : Run} (running : r.abort = false) (plan : Plan) (verb : Verb)
    (args : List Datum) : r.perform plan verb args = r.act plan verb args := by
  simp [perform, running]

theorem perform_of_cancelled {r : Run} (cancelled : r.abort = true) (plan : Plan) (verb : Verb)
    (args : List Datum) : r.perform plan verb args = (r, .error .aborted) := by
  simp [perform, cancelled]

theorem Deed.of_act {plan : Plan} {r r' : Run} {verb : Verb} {args : List Datum}
    {result : Except Fault Datum} (done : r.act plan verb args = (r', result)) :
    Deed plan r verb args r' result := by
  have deed := act_deed plan r verb args
  rw [done] at deed
  exact deed

theorem Deed.of_perform {plan : Plan} {r r' : Run} {verb : Verb} {args : List Datum}
    {result : Except Fault Datum} (done : r.perform plan verb args = (r', result)) :
    Deed plan r verb args r' result := by
  cases running : r.abort with
  | false =>
      rw [perform_of_running running] at done
      exact .of_act done
  | true =>
      rw [perform_of_cancelled running, Prod.mk.injEq] at done
      obtain ⟨rfl, rfl⟩ := done
      exact .fails .aborted

/-- A failure of a command as the run tells it; a cancellation is told as it is. -/
def blame (c : Command) : Fault → Fault
  | .aborted => .aborted
  | fault => .command c.verb.rule fault

theorem performAll_cons_ok {plan : Plan} {r r' : Run} {c : Command} {value : Datum}
    (done : r.perform plan c.verb c.data = (r', .ok value)) (cs : List Command) :
    performAll plan r (c :: cs) =
      ((performAll plan r' cs).1, (performAll plan r' cs).2.map (value :: ·)) := by
  generalize later : performAll plan r' cs = result
  obtain ⟨r'', outcome⟩ := result
  cases outcome with
  | ok values => simp [performAll, done, later, Except.map]
  | error fault => simp [performAll, done, later, Except.map]

theorem performAll_cons_error {plan : Plan} {r r' : Run} {c : Command} {fault : Fault}
    (failed : r.perform plan c.verb c.data = (r', .error fault)) (cs : List Command) :
    performAll plan r (c :: cs) = (r', .error (blame c fault)) := by
  cases fault <;> simp [performAll, failed, blame]

theorem performAll_cons_inv {plan : Plan} {r r' : Run} {c : Command} {cs : List Command}
    {values : List Datum} (done : performAll plan r (c :: cs) = (r', .ok values)) :
    ∃ r₁ value others, r.perform plan c.verb c.data = (r₁, .ok value) ∧
      performAll plan r₁ cs = (r', .ok others) ∧ values = value :: others := by
  generalize step : r.perform plan c.verb c.data = result
  obtain ⟨r₁, outcome⟩ := result
  cases outcome with
  | error fault => simp [performAll_cons_error step] at done
  | ok value =>
      rw [performAll_cons_ok step] at done
      generalize rest : performAll plan r₁ cs = later at done
      obtain ⟨r₂, outcome⟩ := later
      cases outcome with
      | error fault => simp [Except.map] at done
      | ok others =>
          simp only [Except.map, Prod.mk.injEq, Except.ok.injEq] at done
          obtain ⟨rfl, rfl⟩ := done
          exact ⟨r₁, value, others, rfl, rest, rfl⟩

theorem performAll_append_ok {plan : Plan} {first : List Command} : ∀ {r r' : Run}
    {values : List Datum}, performAll plan r first = (r', .ok values) → ∀ second,
      performAll plan r (first ++ second) =
        ((performAll plan r' second).1, (performAll plan r' second).2.map (values ++ ·)) := by
  induction first with
  | nil =>
      intro r r' values done second
      simp only [performAll, Prod.mk.injEq, Except.ok.injEq] at done
      obtain ⟨rfl, rfl⟩ := done
      cases later : (performAll plan r second).2 <;> simp [Except.map, ← later]
  | cons c cs ih =>
      intro r r' values done second
      obtain ⟨r₁, value, others, step, rest, rfl⟩ := performAll_cons_inv done
      rw [List.cons_append, performAll_cons_ok step, ih rest]
      cases (performAll plan r' second).2 <;> simp [Except.map]

theorem performAll_error_inv {plan : Plan} {script : List Command} : ∀ {r r' : Run} {fault : Fault},
    performAll plan r script = (r', .error fault) →
      ∃ before c after r₁ values cause, script = before ++ c :: after ∧
        performAll plan r before = (r₁, .ok values) ∧
        r₁.perform plan c.verb c.data = (r', .error cause) ∧ fault = blame c cause := by
  induction script with
  | nil => intro r r' fault failed; simp [performAll] at failed
  | cons c cs ih =>
      intro r r' fault failed
      generalize step : r.perform plan c.verb c.data = result at failed
      obtain ⟨r₁, outcome⟩ := result
      cases outcome with
      | error cause =>
          rw [performAll_cons_error step, Prod.mk.injEq, Except.error.injEq] at failed
          obtain ⟨rfl, rfl⟩ := failed
          exact ⟨[], c, cs, r, [], cause, rfl, rfl, step, rfl⟩
      | ok value =>
          rw [performAll_cons_ok step] at failed
          generalize rest : performAll plan r₁ cs = later at failed
          obtain ⟨r₂, outcome⟩ := later
          cases outcome with
          | ok others => simp [Except.map] at failed
          | error _ =>
              simp only [Except.map, Prod.mk.injEq, Except.error.injEq] at failed
              obtain ⟨rfl, rfl⟩ := failed
              obtain ⟨before, d, after, r₃, values, cause, rfl, first, failing, blamed⟩ := ih rest
              refine ⟨c :: before, d, after, r₃, value :: values, cause, rfl, ?_, failing, blamed⟩
              rw [performAll_cons_ok step, first]
              rfl

theorem performAll_length {plan : Plan} {script : List Command} : ∀ {r r' : Run}
    {values : List Datum}, performAll plan r script = (r', .ok values) →
      values.length = script.length := by
  induction script with
  | nil =>
      intro r r' values done
      simp only [performAll, Prod.mk.injEq, Except.ok.injEq] at done
      simp [← done.2]
  | cons c cs ih =>
      intro r r' values done
      obtain ⟨r₁, value, others, _, rest, rfl⟩ := performAll_cons_inv done
      rw [List.length_cons, ih rest, List.length_cons]

theorem performAll_split {plan : Plan} {before after : List Command} {c : Command} : ∀ {r r' : Run}
    {values : List Datum}, performAll plan r (before ++ c :: after) = (r', .ok values) →
      ∃ r₁ r₂ earlier value later, performAll plan r before = (r₁, .ok earlier) ∧
        r₁.perform plan c.verb c.data = (r₂, .ok value) ∧
        performAll plan r₂ after = (r', .ok later) ∧ values = earlier ++ value :: later := by
  induction before with
  | nil =>
      intro r r' values done
      obtain ⟨r₂, value, later, step, rest, rfl⟩ := performAll_cons_inv done
      exact ⟨r, r₂, [], value, later, rfl, step, rest, rfl⟩
  | cons first before ih =>
      intro r r' values done
      obtain ⟨r₀, value₀, others, start, rest, rfl⟩ := performAll_cons_inv done
      obtain ⟨r₁, r₂, earlier, value, later, middle, step, last, rfl⟩ := ih rest
      refine ⟨r₁, r₂, value₀ :: earlier, value, later, ?_, step, last, rfl⟩
      rw [performAll_cons_ok start, middle]
      rfl

theorem performAll_preserves {plan : Plan} {P : Run → Prop}
    (step : ∀ {r r' : Run} {verb : Verb} {args : List Datum} {result : Except Fault Datum},
      Deed plan r verb args r' result → P r → P r')
    (script : List Command) : ∀ {r : Run}, P r → P (performAll plan r script).1 := by
  induction script with
  | nil => intro r before; exact before
  | cons c cs ih =>
      intro r before
      generalize done : r.perform plan c.verb c.data = result
      obtain ⟨r', outcome⟩ := result
      have first := step (.of_perform done) before
      cases outcome with
      | error fault =>
          rw [performAll_cons_error done]
          exact first
      | ok value =>
          rw [performAll_cons_ok done]
          exact ih first

theorem performAll_events (plan : Plan) (script : List Command) (r : Run) :
    r.events <+: (performAll plan r script).1.events :=
  performAll_preserves (P := fun r' => r.events <+: r'.events)
    (fun deed before => before.trans deed.events) script List.prefix_rfl

theorem performAll_abort (plan : Plan) (script : List Command) (r : Run) :
    (performAll plan.uncancelled r script).1.abort = r.abort :=
  performAll_preserves (P := fun r' => r'.abort = r.abort)
    (fun deed before => deed.abort.trans before) script rfl

theorem performAll_of_cancelled {plan : Plan} {r : Run} (cancelled : r.abort = true)
    (script : List Command) :
    performAll plan r script = (r, if script = [] then .ok [] else .error .aborted) := by
  cases script with
  | nil => rfl
  | cons c cs =>
      rw [performAll_cons_error (perform_of_cancelled cancelled plan c.verb c.data)]
      simp [blame]

end Run

namespace Job

theorem body_ok (j : Job) (script : List Command) (plan : Plan) (stand : Stand) (clock : Clock) :
    j.body (.ok script) plan stand clock =
      { j with bodyRunning := true }.conclude
        (Run.performAll plan (Run.begin stand clock) script).1
        (Run.performAll plan (Run.begin stand clock) script).2 := rfl

section

variable (j : Job) (run : Run) (result : Except Fault (List Datum))

theorem conclude_run : (j.conclude run result).run = some run := by
  cases result with
  | ok values => rfl
  | error fault => cases fault <;> rfl

theorem conclude_stand : (j.conclude run result).stand = run.stand := by
  cases result with
  | ok values => rfl
  | error fault => cases fault <;> rfl

theorem conclude_clock : (j.conclude run result).clock = run.clock := by
  cases result with
  | ok values => rfl
  | error fault => cases fault <;> rfl

end

theorem conclude_ok (j : Job) (run : Run) (values : List Datum) :
    j.conclude run (.ok values) =
      { job := ⟨false, false, j.completions + 1⟩, stand := run.stand, clock := run.clock,
        run := some run, values := some values } := by
  cases cancelled : run.abort <;> simp [conclude, cancelled, finish]

theorem conclude_aborted (j : Job) (run : Run) :
    j.conclude run (.error .aborted) =
      { job := ⟨false, false, j.completions + 1⟩, stand := run.stand, clock := run.clock,
        run := some run } := by
  cases cancelled : run.abort <;> simp [conclude, cancelled, finish]

theorem performAll_of_values {j : Job} {script : List Command} {plan : Plan} {stand : Stand}
    {clock : Clock} {values : List Datum}
    (finished : (j.body (.ok script) plan stand clock).values = some values) :
    ∃ run, Run.performAll plan (Run.begin stand clock) script = (run, .ok values) ∧
      (j.body (.ok script) plan stand clock).run = some run := by
  rw [body_ok] at finished ⊢
  generalize ended : Run.performAll plan (Run.begin stand clock) script = result at finished ⊢
  obtain ⟨run, outcome⟩ := result
  refine ⟨run, ?_, conclude_run _ run outcome⟩
  cases outcome with
  | ok others =>
      rw [conclude_ok] at finished
      simp only [Option.some.injEq] at finished
      rw [finished]
  | error fault => cases fault <;> simp [conclude] at finished

end Job

end ThrustBench.Script
