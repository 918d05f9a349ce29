import ThrustBench.Proofs.RunHistory

/-!
The throttle that was commanded last, and the throttle that the points of a script carry.  The two
differ behind a throttle that is too large to be sent, and nowhere else.
-/

namespace ThrustBench

def throttleOf? (text : String) : Option Nat :=
  match text.toList with
  | 't' :: 'h' :: 'r' :: '(' :: rest =>
    let digits := rest.takeWhile Char.isDigit
    if digits ≠ [] ∧ rest.dropWhile Char.isDigit = [')', '\n'] then
      some (Nat.ofDigitChars 10 digits 0)
    else none
  | _ => none

def commanded (texts : List String) : Nat := (texts.filterMap throttleOf?).getLast?.getD 0

theorem throttleOf?_throttleText (k : Nat) : throttleOf? (Script.throttleText k) = some k := by
  have plain : ∀ c ∈ Nat.toDigits 10 k, c.isDigit = true := fun c member =>
    Nat.isDigit_of_mem_toDigits (by decide) (by decide) member
  have spelled : (Script.throttleText k).toList =
      't' :: 'h' :: 'r' :: '(' :: (Nat.toDigits 10 k ++ [')', '\n']) := by
    simp only [Script.throttleText, String.toList_append, Nat.toString_eq_ofList_toDigits,
      String.toList_ofList]
    rfl
  have taken : (Nat.toDigits 10 k ++ [')', '\n']).takeWhile Char.isDigit = Nat.toDigits 10 k := by
    rw [List.takeWhile_append_of_pos plain]
    simp [Char.isDigit]
  have left : (Nat.toDigits 10 k ++ [')', '\n']).dropWhile Char.isDigit = [')', '\n'] := by
    rw [List.dropWhile_append_of_pos plain]
    simp [Char.isDigit]
  simp only [throttleOf?, spelled, taken, left, ne_eq, Nat.toDigits_ne_nil, not_false_eq_true,
    and_self, if_true, Nat.ofDigitChars_ten_toDigits]

theorem commanded_throttleTexts (throttles : List Nat) :
    commanded (throttles.map Script.throttleText) = throttles.getLast?.getD 0 := by
  have read : (throttles.map Script.throttleText).filterMap throttleOf? = throttles := by
    simp [List.filterMap_map, throttleOf?_throttleText]
  rw [commanded, read]

namespace Script

theorem commanded_writesOf_iff (before : List Command) :
    throttleAfter before = commanded (writesOf before) ↔ throttleAfter before ≤ 100 := by
  rw [writesOf, commanded_throttleTexts, throttleAfter]
  generalize before.filterMap Command.throttle? = throttles
  rcases List.eq_nil_or_concat' throttles with rfl | ⟨throttles, last, rfl⟩
  · simp
  · by_cases small : last ≤ 100
    · simp [List.filter_append, small]
    · have bound : ((throttles.filter (· ≤ 100)).getLast?.getD 0) ≤ 100 := by
        cases found : (throttles.filter (· ≤ 100)).getLast? with
        | none => simp
        | some k => simpa using (List.mem_filter.mp (List.mem_of_getLast? found)).2
      simp only [List.filter_append, List.filter_cons, small, decide_false, Bool.false_eq_true,
        if_false, List.filter_nil, List.append_nil, List.getLast?_concat, Option.getD_some,
        iff_false]
      omega

theorem sentBy_append (first second : List Event) :
    sentBy (first ++ second) = sentBy first ++ sentBy second :=
  List.filterMap_append

theorem sentBy_sent (texts : List String) : sentBy (texts.map .sent) = texts := by
  simp [sentBy, List.filterMap_map, Function.comp_def, Event.sent?]

theorem sentBy_waited {heard : List Event} (hidden : ∀ e ∈ heard, e.isShown = false)
    (events : List Event) (moment : Int) :
    sentBy (events ++ .waited moment :: heard) = sentBy events := by
  have nothing : sentBy (.waited moment :: heard) = sentBy heard := rfl
  rw [sentBy_append, nothing, sentBy_of_hidden hidden, List.append_nil]

namespace Run

theorem Deed.silent {plan : Plan} {r r' : Run} {verb : Verb} {args : List Datum}
    {result : Except Fault Datum} (deed : Deed plan r verb args r' result)
    (other : verb ≠ .setThrottle) :
    r'.stand.port = r.stand.port ∧ sentBy r'.events = sentBy r.events := by
  cases deed with
  | fails | reads | chooses => exact ⟨rfl, rfl⟩
  | sends | remembers => exact absurd rfl other
  | interrupted board heard fault hidden => exact ⟨rfl, sentBy_waited hidden _ _⟩
  | waits heard abort clock hidden => exact ⟨rfl, sentBy_waited hidden _ _⟩
  | prints lines =>
      exact ⟨rfl, by simp [sentBy, List.filterMap_map, Function.comp_def, Event.sent?]⟩
  | refused | adds => exact ⟨rfl, by simp [sentBy, List.filterMap_cons, Event.sent?]⟩

theorem Deed.port {plan : Plan} {r r' : Run} {verb : Verb} {args : List Datum}
    {result : Except Fault Datum} {port : Port} (deed : Deed plan r verb args r' result)
    (before : r.stand.port = some { port with written := port.written ++ sentBy r.events }) :
    r'.stand.port = some { port with written := port.written ++ sentBy r'.events } := by
  by_cases kind : verb = .setThrottle
  · subst kind
    cases deed with
    | fails | remembers => exact before
    | sends value inside connected =>
        rw [before, Option.some.injEq] at connected
        subst connected
        simp [sentBy_append, sentBy_sent]
    | prints lines which => simp at which
  · obtain ⟨same, sent⟩ := deed.silent kind
    rw [same, sent]
    exact before

theorem performAll_port (plan : Plan) {port : Port} (script : List Command) {r : Run}
    (before : r.stand.port = some { port with written := port.written ++ sentBy r.events }) :
    (performAll plan r script).1.stand.port =
      some { port with
        written := port.written ++ sentBy (performAll plan r script).1.events } :=
  performAll_preserves
    (P := fun r => r.stand.port = some { port with written := port.written ++ sentBy r.events })
    Deed.port script before

theorem Deed.point_origin {plan : Plan} {r r' : Run} {verb : Verb} {args : List Datum}
    {result : Except Fault Datum} (deed : Deed plan r verb args r' result) {place : Nat} {p : Point}
    (new : r.events.length ≤ place) (found : r'.events[place]? = some (.point p)) :
    verb = .addPoint ∧ place = r.events.length ∧ p = r.handPoint.2 := by
  have absent {others : List Event} (state : r'.events = r.events ++ others)
      (none : ∀ e ∈ others, e.point? = none) : False := by
    rw [state, List.getElem?_append_right new] at found
    have silent := none _ (List.mem_of_getElem? found)
    simp [Event.point?] at silent
  have added (state : r'.events = r.events ++ [.point r.handPoint.2]) :
      place = r.events.length ∧ p = r.handPoint.2 := by
    rw [state, List.getElem?_append_right new] at found
    have first : place - r.events.length = 0 := by
      by_contra later
      rw [List.getElem?_eq_none (by simp; omega)] at found
      simp at found
    rw [first] at found
    simp only [List.getElem?_cons_zero, Option.some.injEq, Event.point.injEq] at found
    exact ⟨by omega, found.symm⟩
  have hides {heard : List Event} (hidden : ∀ e ∈ heard, e.isShown = false) (moment : Int) :
      ∀ e ∈ Event.waited moment :: heard, e.point? = none := by
    have nothing := List.filterMap_eq_nil_iff.mp (pointsOf_of_hidden hidden)
    intro e member
    rcases List.mem_cons.mp member with rfl | later
    · rfl
    · exact nothing e later
  cases deed with
  | fails | remembers | reads | chooses => exact (absent (List.append_nil _).symm (by simp)).elim
  | sends => exact (absent rfl (by simp [Event.point?])).elim
  | interrupted board heard fault hidden => exact (absent rfl (hides hidden _)).elim
  | waits heard abort clock hidden => exact (absent rfl (hides hidden _)).elim
  | prints => exact (absent rfl (by simp [Event.point?])).elim
  | refused => exact ⟨rfl, added rfl⟩
  | adds => exact ⟨rfl, added rfl⟩

theorem performAll_point_origin {plan : Plan} (script : List Command) : ∀ {r : Run}
    {earlier later : List Event} {p : Point},
    (performAll plan r script).1.events = earlier ++ .point p :: later →
    r.events.length ≤ earlier.length →
    ∃ before c after r₁ values, script = before ++ c :: after ∧
      performAll plan r before = (r₁, .ok values) ∧ c.verb = .addPoint ∧
      r₁.events = earlier ∧ p = r₁.handPoint.2 := by
  induction script with
  | nil =>
      intro r earlier later p seen new
      have length := congrArg List.length seen
      simp only [performAll, List.length_append, List.length_cons] at length
      omega
  | cons c cs ih =>
      intro r earlier later p seen new
      generalize step : r.perform plan c.verb c.data = result
      obtain ⟨r', outcome⟩ := result
      have deed := Deed.of_perform step
      have grown : r'.events <+: earlier ++ .point p :: later := by
        rw [← seen]
        cases outcome with
        | error fault => simp [performAll_cons_error step]
        | ok value =>
            rw [performAll_cons_ok step]
            exact performAll_events plan cs r'
      by_cases now : earlier.length < r'.events.length
      · -- the point is among the events of this command
        have found : r'.events[earlier.length]? = some (.point p) := by
          obtain ⟨rest, whole⟩ := grown
          rw [← List.getElem?_append_left now, whole]
          simp
        obtain ⟨kind, place, same⟩ := deed.point_origin new found
        have start : r.events = earlier :=
          (List.prefix_of_prefix_length_le (deed.events.trans grown) (List.prefix_append _ _)
            new).eq_of_length place.symm
        exact ⟨[], c, cs, r, [], rfl, rfl, kind, start, same⟩
      · cases outcome with
        | error fault =>
            rw [performAll_cons_error step] at seen
            have length := congrArg List.length seen
            simp only [List.length_append, List.length_cons] at length
            omega
        | ok value =>
            rw [performAll_cons_ok step] at seen
            obtain ⟨before, d, after, r₁, values, rfl, first, kind, start, same⟩ :=
              ih seen (by omega)
            refine ⟨c :: before, d, after, r₁, value :: values, rfl, ?_, kind, start, same⟩
            rw [performAll_cons_ok step, first]
            rfl

end Run

/-- In a run of a script that was read, on an open port that works, a point carries the throttle
that the run commanded last, or 0, exactly if that throttle is not above 100.  The throttle of a
point is the one that was set last before it, and what is written before it is the throttles up to
100 that were set before it; this holds however the run is disturbed, and however it ends. -/
theorem point_commanded_iff (j : Job) (bytes : List UInt8) (plan : Plan) (stand : Stand)
    (port : Port) (clock : Clock) (script : List Command)
    (accepted : parseFile bytes = .ok script) (connected : stand.port = some port)
    (isOpen : port.isOpen = true) (working : port.failing = false) :
    ∃ run, (j.body (parseFile bytes) plan stand clock).run = some run ∧
      run.stand.port = some { port with written := port.written ++ sentBy run.events } ∧
      ∀ (earlier later : List Event) (p : Point), run.events = earlier ++ .point p :: later →
        (p.throttle = commanded (sentBy earlier) ↔ p.throttle ≤ 100) ∧
          ∃ before command after, script = before ++ command :: after ∧
            command.verb = .addPoint ∧
            countOf .addPoint before = (pointsOf earlier).length ∧
            p.throttle = throttleAfter before ∧ sentBy earlier = writesOf before := by
  have fits := (parseFile_wellFormed accepted).2
  rw [accepted, Job.body_ok]
  refine ⟨_, Job.conclude_run _ _ _, ?_, ?_⟩
  · apply Run.performAll_port
    have nothing : sentBy (Run.begin stand clock).events = [] := rfl
    rw [nothing, List.append_nil]
    exact connected
  · intro earlier later p seen
    obtain ⟨before, c, after, r, values, rfl, first, kind, rfl, rfl⟩ :=
      Run.performAll_point_origin script seen (Nat.zero_le _)
    have left := Underway.of_performAll connected isOpen working before
      (fun d member => fits d (by simp [member])) first
    have throttle : r.handPoint.2.throttle = throttleAfter before := by
      rw [Run.handPoint_throttle, left.throttle]
    refine ⟨?_, before, c, after, rfl, kind, left.points.symm, throttle, left.sent⟩
    have exactly := commanded_writesOf_iff before
    rw [throttle, left.sent]
    omega

def tooLarge : List UInt8 := "SET_THROTTLE 30 SET_THROTTLE 250 ADD_POINT".toUTF8.toList

def tooLargeCommands : List Command :=
  [⟨.setThrottle, [['3', '0']]⟩, ⟨.setThrottle, [['2', '5', '0']]⟩, ⟨.addPoint, []⟩]

theorem point_commanded_iff_tooLarge :
    parseFile tooLarge = .ok tooLargeCommands ∧
      ∃ (run : Run) (p : Point),
        (Job.body {} (parseFile tooLarge) {} { port := some {} } {}).run = some run ∧
        run.events = [.sent "thr(30)\n", .point p] ∧ p.throttle = 250 ∧
        p.throttle ≠ commanded (sentBy [.sent "thr(30)\n"]) := by
  have accepted : parseFile tooLarge = .ok tooLargeCommands := by
    have read : (parseFile tooLarge).toOption = some tooLargeCommands := by decide +kernel
    cases parsed : parseFile tooLarge with
    | error fault => simp [parsed, Except.toOption] at read
    | ok script => simpa [parsed, Except.toOption] using read
  obtain ⟨run, kept, _, points⟩ := point_commanded_iff {} tooLarge {} { port := some {} } {} {}
    tooLargeCommands accepted rfl rfl rfl
  have events : (Job.body {} (parseFile tooLarge) {} { port := some {} } {}).run.map Run.events =
      some [.sent "thr(30)\n", .point ⟨0, 250, .const (.whole 0), 1000000000⟩] := by
    rw [accepted]
    decide +kernel
  rw [kept, Option.map_some, Option.some.injEq] at events
  refine ⟨accepted, run, _, kept, events, rfl, ?_⟩
  intro same
  have small := (points [.sent "thr(30)\n"] [] _ events).1.mp same
  exact absurd small (by decide)

end Script

end ThrustBench
