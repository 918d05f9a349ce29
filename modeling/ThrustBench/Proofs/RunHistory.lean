import ThrustBench.Proofs.Accepted
import ThrustBench.Proofs.Running

/-!
A script that runs to its end, told by the places of its commands and not by carrying them out:
what a command finds is what the nearest command of some kind before it left.
-/

namespace ThrustBench.Script

def Command.throttle? (c : Command) : Option Nat :=
  match c.verb, c.arguments with
  | .setThrottle, [digits] => some (decimal digits)
  | _, _ => none

/-- Whether a command chooses raw readings: it does if its word is TRUE in capitals. -/
def Command.raw? (c : Command) : Option Bool :=
  match c.verb, c.arguments with
  | .useRaw, [word] => some (word.map Char.toUpper == ['T', 'R', 'U', 'E'])
  | _, _ => none

def throttleAfter (before : List Command) : Nat :=
  (before.filterMap Command.throttle?).getLast?.getD 0

def rawAfter (before : List Command) : Bool :=
  (before.filterMap Command.raw?).getLast?.getD false

def countOf (verb : Verb) (script : List Command) : Nat := script.countP fun c => c.verb = verb

def linesAfter (feed : List (List String)) (before : List Command) : List String :=
  (feed.take (countOf .wait before)).flatten

def throttleText (k : Nat) : String := "thr(" ++ toString k ++ ")\n"

/-- What a script writes: the throttles up to 100 that it sets. -/
def writesOf (script : List Command) : List String :=
  ((script.filterMap Command.throttle?).filter (· ≤ 100)).map throttleText

def readingOf (raw : Bool) (board : Board) (channel : Channel) : Datum :=
  if raw then Datum.ofNumber? (board.raw.get channel) else Datum.ofNumber (board.value.get channel)

section

variable (before : List Command) (c : Command)

theorem throttleAfter_snoc :
    throttleAfter (before ++ [c]) = c.throttle?.getD (throttleAfter before) := by
  cases set : c.throttle? <;> simp [throttleAfter, List.filterMap_append, set]

theorem rawAfter_snoc : rawAfter (before ++ [c]) = c.raw?.getD (rawAfter before) := by
  cases chosen : c.raw? <;> simp [rawAfter, List.filterMap_append, chosen]

theorem countOf_snoc (verb : Verb) :
    countOf verb (before ++ [c]) = countOf verb before + if c.verb = verb then 1 else 0 := by
  simp [countOf, List.countP_append, List.countP_cons]

theorem writesOf_snoc :
    writesOf (before ++ [c]) =
      writesOf before ++ ((c.throttle?.toList).filter (· ≤ 100)).map throttleText := by
  cases set : c.throttle? <;> simp [writesOf, List.filterMap_append, set]

theorem linesAfter_snoc (feed : List (List String)) :
    linesAfter feed (before ++ [c]) =
      linesAfter feed before ++
        if c.verb = .wait then feed[countOf .wait before]?.getD [] else [] := by
  by_cases waits : c.verb = .wait
  · simp only [linesAfter, countOf_snoc, waits, if_true, List.take_add_one, List.flatten_append]
    cases feed[countOf .wait before]? <;> simp
  · simp [linesAfter, countOf_snoc, waits]

end

theorem unpack_throttle {c : Command} {k : Int} (kind : c.verb = .setThrottle)
    (fits : c.WellFormed) (value : unpackOne c.data >>= Datum.toWhole = .ok k) :
    ∃ n, c.throttle? = some n ∧ k = n := by
  obtain ⟨verb, arguments⟩ := c
  subst kind
  simp only [Command.WellFormed, Verb.signature] at fits
  cases fits with
  | @cons _ digits _ _ plain none =>
      cases none
      rw [Command.one_whole .setThrottle plain.1 plain.2] at value
      split at value
      · simp at value
      · simp only [Except.ok.injEq] at value
        exact ⟨decimal digits, rfl, value.symm⟩

theorem isTrue_ofList (word : List Char) :
    Run.isTrue (String.ofList word) = (word.map Char.toUpper == ['T', 'R', 'U', 'E']) := by
  have spelled : Run.isTrue (String.ofList word) =
      (word.map Char.toLower == ['t', 'r', 'u', 'e']) := by
    have literal : "true" = String.ofList ['t', 'r', 'u', 'e'] := rfl
    rw [Run.isTrue, String.toList_ofList, literal, Bool.eq_iff_iff, beq_iff_eq, beq_iff_eq,
      String.ofList_inj]
  rw [spelled, Bool.eq_iff_iff, beq_iff_eq, beq_iff_eq]
  -- a word of another length is neither; of four letters each is compared by itself
  rcases word with _ | ⟨t, _ | ⟨r, _ | ⟨u, _ | ⟨e, _ | ⟨other, rest⟩⟩⟩⟩⟩
  all_goals simp only [List.map_nil, List.map_cons, List.cons.injEq, reduceCtorEq, and_false,
    and_true]
  rw [Text.toLower_eq_iff t 't' 'T' (by decide) rfl, Text.toLower_eq_iff r 'r' 'R' (by decide) rfl,
    Text.toLower_eq_iff u 'u' 'U' (by decide) rfl, Text.toLower_eq_iff e 'e' 'E' (by decide) rfl]

theorem unpack_raw {c : Command} {word : String} {others : List Datum} (kind : c.verb = .useRaw)
    (fits : c.WellFormed) (given : c.data = .text word :: others) :
    c.raw? = some (Run.isTrue word) := by
  obtain ⟨verb, arguments⟩ := c
  subst kind
  simp only [Command.WellFormed, Verb.signature] at fits
  cases fits with
  | @cons _ letters _ _ spelled none =>
      cases none
      simp only [Command.data, List.map_cons, List.map_nil, List.cons.injEq, Datum.text.injEq]
        at given
      rw [← given.1, isTrue_ofList]
      rfl

structure Underway (plan : Plan) (stand : Stand) (port : Port) (before : List Command)
    (r : Run) : Prop where
  throttle : r.throttle = throttleAfter before
  useRaw : r.useRaw = rawAfter before
  waits : r.waits = countOf .wait before
  board : r.stand.board = stand.board.decodeAll (linesAfter plan.feed before)
  port : r.stand.port = some { port with written := port.written ++ writesOf before }
  sent : sentBy r.events = writesOf before
  points : (pointsOf r.events).length = countOf .addPoint before

theorem Underway.begin (plan : Plan) {stand : Stand} {port : Port} (clock : Clock)
    (connected : stand.port = some port) : Underway plan stand port [] (Run.begin stand clock) where
  throttle := rfl
  useRaw := rfl
  waits := rfl
  board := rfl
  port := by
    have same : (Run.begin stand clock).stand.port = some port := connected
    simpa [writesOf] using same
  sent := rfl
  points := rfl

theorem throttleCommand_whole (n : Nat) :
    Stand.throttleCommand (.whole n) ++ "\n" = throttleText n := by
  have shown : (Datum.whole n).shown = toString n := by
    simp [Datum.shown, Datum.shownInside, wholeText]
  rw [Stand.throttleCommand, shown, throttleText, String.append_assoc]
  rfl

theorem throttle?_of_ne {c : Command} (other : c.verb ≠ .setThrottle) : c.throttle? = none := by
  unfold Command.throttle?
  split
  · contradiction
  · rfl

theorem raw?_of_ne {c : Command} (other : c.verb ≠ .useRaw) : c.raw? = none := by
  unfold Command.raw?
  split
  · contradiction
  · rfl

theorem Underway.quiet {plan : Plan} {stand : Stand} {port : Port}
    {before : List Command} {c : Command} {r r' : Run} (left : Underway plan stand port before r)
    (notThrottle : c.verb ≠ .setThrottle) (notRaw : c.verb ≠ .useRaw) (notWait : c.verb ≠ .wait)
    (notPoint : c.verb ≠ .addPoint) (new : List Event)
    (state : r' = { r with events := r.events ++ new })
    (noneSent : sentBy new = []) (noPoint : pointsOf new = []) :
    Underway plan stand port (before ++ [c]) r' := by
  have sets := throttle?_of_ne notThrottle
  have picks := raw?_of_ne notRaw
  subst state
  constructor
  · simpa [throttleAfter_snoc, sets] using left.throttle
  · simpa [rawAfter_snoc, picks] using left.useRaw
  · simpa [countOf_snoc, notWait] using left.waits
  · simpa [linesAfter_snoc, notWait] using left.board
  · simpa [writesOf_snoc, sets] using left.port
  · simp only [sentBy] at noneSent
    simpa [sentBy, noneSent, writesOf_snoc, sets] using left.sent
  · simp only [pointsOf] at noPoint
    simpa [pointsOf, noPoint, countOf_snoc, notPoint] using left.points

theorem Underway.step {plan : Plan} {stand : Stand} {port : Port} {before : List Command}
    {c : Command} {r r' : Run} {value : Datum} (left : Underway plan stand port before r)
    (isOpen : port.isOpen = true) (working : port.failing = false) (fits : c.WellFormed)
    (done : r.perform plan c.verb c.data = (r', .ok value)) :
    Underway plan stand port (before ++ [c]) r' := by
  have deed := Run.Deed.of_perform done
  generalize kind : c.verb = verb at deed
  generalize given : c.data = args at deed
  cases deed with
  | sends value inside connected =>
      subst given
      obtain ⟨n, set, rfl⟩ := unpack_throttle kind fits value
      have small : n ≤ 100 := by omega
      have picks := raw?_of_ne (c := c) (by simp [kind])
      rw [left.port, Option.some.injEq] at connected
      subst connected
      have delivered : Port.delivered { port with written := port.written ++ writesOf before }
          (Stand.throttleCommand (.whole n)) = [throttleText n] := by
        simp [Port.delivered, isOpen, working, throttleCommand_whole]
      rw [delivered]
      constructor
      · simp [throttleAfter_snoc, set]
      · simpa [rawAfter_snoc, picks] using left.useRaw
      · simpa [countOf_snoc, kind] using left.waits
      · simpa [linesAfter_snoc, kind] using left.board
      · simp [writesOf_snoc, set, small]
      · simpa [sentBy, writesOf_snoc, set, small, Event.sent?] using left.sent
      · simpa [pointsOf, List.filterMap_cons, countOf_snoc, kind, Event.point?] using left.points
  | remembers value outside =>
      subst given
      obtain ⟨n, set, rfl⟩ := unpack_throttle kind fits value
      have large : ¬n ≤ 100 := by omega
      have picks := raw?_of_ne (c := c) (by simp [kind])
      constructor
      · simp [throttleAfter_snoc, set]
      · simpa [rawAfter_snoc, picks] using left.useRaw
      · simpa [countOf_snoc, kind] using left.waits
      · simpa [linesAfter_snoc, kind] using left.board
      · simpa [writesOf_snoc, set, large] using left.port
      · simpa [writesOf_snoc, set, large] using left.sent
      · simpa [countOf_snoc, kind] using left.points
  | reads channel =>
      exact left.quiet (by simp [kind]) (by simp [kind]) (by simp [kind]) (by simp [kind]) []
        (by simp only [List.append_nil]) rfl rfl
  | waits heard abort clock hidden cancelled =>
      have sets := throttle?_of_ne (c := c) (by simp [kind])
      have picks := raw?_of_ne (c := c) (by simp [kind])
      constructor
      · simpa [throttleAfter_snoc, sets] using left.throttle
      · simpa [rawAfter_snoc, picks] using left.useRaw
      · simpa [countOf_snoc, kind] using left.waits
      · simp [linesAfter_snoc, kind, left.board, left.waits, Board.decodeAll_append]
      · simpa [writesOf_snoc, sets] using left.port
      · have nothing := sentBy_of_hidden hidden
        simp only [sentBy] at nothing
        simpa [sentBy, List.filterMap_cons, writesOf_snoc, sets, Event.sent?, nothing]
          using left.sent
      · have nothing := pointsOf_of_hidden hidden
        simp only [pointsOf] at nothing
        simpa [pointsOf, List.filterMap_cons, countOf_snoc, kind, Event.point?, nothing]
          using left.points
  | prints lines which =>
      have others : verb ≠ .setThrottle ∧ verb ≠ .useRaw ∧ verb ≠ .wait ∧ verb ≠ .addPoint := by
        rcases which with rfl | rfl <;> simp
      rw [← kind] at others
      exact left.quiet others.1 others.2.1 others.2.2.1 others.2.2.2 (lines.map .printed) rfl
        (by simp [sentBy, Function.comp_def, Event.sent?])
        (by simp [pointsOf, Function.comp_def, Event.point?])
  | @chooses word others =>
      have picks := unpack_raw kind fits given
      have sets := throttle?_of_ne (c := c) (by simp [kind])
      constructor
      · simpa [throttleAfter_snoc, sets] using left.throttle
      · simp [rawAfter_snoc, picks]
      · simpa [countOf_snoc, kind] using left.waits
      · simpa [linesAfter_snoc, kind] using left.board
      · simpa [writesOf_snoc, sets] using left.port
      · simpa [writesOf_snoc, sets] using left.sent
      · simpa [countOf_snoc, kind] using left.points
  | adds accepted =>
      have sets := throttle?_of_ne (c := c) (by simp [kind])
      have picks := raw?_of_ne (c := c) (by simp [kind])
      constructor
      · simpa [throttleAfter_snoc, sets] using left.throttle
      · simpa [rawAfter_snoc, picks] using left.useRaw
      · simpa [countOf_snoc, kind] using left.waits
      · simpa [linesAfter_snoc, kind] using left.board
      · simpa [writesOf_snoc, sets] using left.port
      · simpa [sentBy, List.filterMap_cons, writesOf_snoc, sets, Event.sent?] using left.sent
      · simpa [pointsOf, countOf_snoc, kind, Event.point?] using left.points

theorem Underway.of_performAll {plan : Plan} {stand : Stand} {port : Port} {clock : Clock}
    (connected : stand.port = some port) (isOpen : port.isOpen = true)
    (working : port.failing = false) (before : List Command) : ∀ {r : Run} {values : List Datum},
    (∀ c ∈ before, c.WellFormed) →
    Run.performAll plan (Run.begin stand clock) before = (r, .ok values) →
    Underway plan stand port before r := by
  -- a run grows at its end, and what a command finds depends on those before it
  induction before using List.reverseRecOn with
  | nil =>
      intro r values _ done
      simp only [Run.performAll, Prod.mk.injEq] at done
      rw [← done.1]
      exact Underway.begin plan clock connected
  | append_singleton before c ih =>
      intro r values fits done
      obtain ⟨r₁, r₂, earlier, value, later, first, step, rest, _⟩ := Run.performAll_split done
      simp only [Run.performAll, Prod.mk.injEq] at rest
      rw [← rest.1]
      have left := ih (fun d member => fits d (by simp [member])) first
      exact left.step isOpen working (fits c (by simp)) step

structure Left (feed : List (List String)) (stand : Stand) (port : Port) (before : List Command)
    (r : Run) : Prop extends Underway { feed } stand port before r where
  running : r.abort = false

theorem Left.of_performAll {feed : List (List String)} {stand : Stand} {port : Port} {clock : Clock}
    (connected : stand.port = some port) (isOpen : port.isOpen = true)
    (working : port.failing = false) (before : List Command) {r : Run} {values : List Datum}
    (fits : ∀ c ∈ before, c.WellFormed)
    (done : Run.performAll { feed } (Run.begin stand clock) before = (r, .ok values)) :
    Left feed stand port before r where
  toUnderway := Underway.of_performAll connected isOpen working before fits done
  running := by
    have kept := Run.performAll_abort { feed } before (Run.begin stand clock)
    have same : Plan.uncancelled { feed } = { feed } := rfl
    rw [same, done] at kept
    exact kept

theorem Left.reading {feed : List (List String)} {stand : Stand} {port : Port}
    {before : List Command} {r : Run} (left : Left feed stand port before r) (channel : Channel) :
    r.read channel = readingOf (rawAfter before) (stand.board.decodeAll (linesAfter feed before))
      channel := by
  rw [Run.read, readingOf, left.useRaw, left.board]

theorem writesOf_inside {script : List Command} {text : String} (member : text ∈ writesOf script) :
    ∃ k ≤ 100, text = throttleText k := by
  obtain ⟨k, chosen, rfl⟩ := List.mem_map.mp member
  have small := (List.mem_filter.mp chosen).2
  exact ⟨k, by simpa using small, rfl⟩

theorem point_at {plan : Plan} {r r₁ r₂ : Run} {args : List Datum} {value : Datum}
    {after : List Command} (added : r₁.perform plan .addPoint args = (r₂, .ok value))
    (ended : (Run.performAll plan r₂ after).1 = r) :
    ∃ p, (pointsOf r.events)[(pointsOf r₁.events).length]? = some p ∧
      p.throttle = r₁.throttle := by
  obtain ⟨more, later⟩ := Run.performAll_events plan after r₂
  rw [ended] at later
  have deed := Run.Deed.of_perform added
  cases deed with
  | prints _ which => simp at which
  | adds _ =>
      refine ⟨r₁.handPoint.2, ?_, Run.handPoint_throttle r₁⟩
      rw [← later]
      simp [pointsOf, Event.point?]

/-- In a script that was read and runs to its end, the throttles up to 100 are written as they
stand there and nothing else is, each point has the throttle that was set last before it, and each
reading is raw if that was chosen last before it. -/
theorem run_by_places (j : Job) (bytes : List UInt8) (feed : List (List String)) (stand : Stand)
    (port : Port) (clock : Clock) (script : List Command) (values : List Datum)
    (accepted : parseFile bytes = .ok script) (connected : stand.port = some port)
    (isOpen : port.isOpen = true) (working : port.failing = false)
    (finished : (j.body (parseFile bytes) { feed } stand clock).values = some values) :
    ∃ run, (j.body (parseFile bytes) { feed } stand clock).run = some run ∧
      run.stand.port = some { port with written := port.written ++ writesOf script } ∧
      sentBy run.events = writesOf script ∧
      (∀ text ∈ sentBy run.events, ∃ k ≤ 100, text = throttleText k) ∧
      (pointsOf run.events).length = countOf .addPoint script ∧
      values.length = script.length ∧
      ∀ before command after, script = before ++ command :: after →
        (command.verb = .addPoint →
          ∃ p, (pointsOf run.events)[countOf .addPoint before]? = some p ∧
            p.throttle = throttleAfter before) ∧
        (∀ channel, command.verb = .read channel →
          values[before.length]? = some (readingOf (rawAfter before)
            (stand.board.decodeAll (linesAfter feed before)) channel)) := by
  rw [accepted] at finished ⊢
  obtain ⟨run, whole, kept⟩ := Job.performAll_of_values finished
  have fits := (parseFile_wellFormed accepted).2
  have left := Left.of_performAll connected isOpen working script fits whole
  refine ⟨run, kept, left.port, left.sent, ?_, left.points, Run.performAll_length whole, ?_⟩
  · intro text member
    rw [left.sent] at member
    exact writesOf_inside member
  · rintro before command after rfl
    obtain ⟨r₁, r₂, earlier, value, later, first, step, rest, rfl⟩ := Run.performAll_split whole
    have reached := Left.of_performAll connected isOpen working before
      (fun c member => fits c (by simp [member])) first
    constructor
    · intro adds
      rw [adds] at step
      rw [← reached.points, ← reached.throttle]
      exact point_at step (congrArg Prod.fst rest)
    · intro channel reads
      rw [reads, Run.perform_of_running reached.running] at step
      simp only [Run.act, Prod.mk.injEq, Except.ok.injEq] at step
      have place : before.length = earlier.length := (Run.performAll_length first).symm
      rw [place, ← reached.reading, step.2]
      simp

def sweep : List UInt8 :=
  "SET_THROTTLE 250 ADD_POINT USE_RAW TrUe SET_THROTTLE007WAIT 5READ_CELL_1 ADD_POINT".toUTF8.toList

def sweepCommands : List Command :=
  [⟨.setThrottle, [['2', '5', '0']]⟩, ⟨.addPoint, []⟩, ⟨.useRaw, [['T', 'r', 'U', 'e']]⟩,
    ⟨.setThrottle, [['0', '0', '7']]⟩, ⟨.wait, [['5']]⟩, ⟨.read .cell1, []⟩, ⟨.addPoint, []⟩]

theorem run_by_places_sweep :
    parseFile sweep = .ok sweepCommands ∧
    ∃ run, (Job.body {} (parseFile sweep) { feed := [["lc1(5)"]] } { port := some {} } {}).run =
        some run ∧
      sentBy run.events = ["thr(7)\n"] ∧
      (∃ p, (pointsOf run.events)[0]? = some p ∧ p.throttle = 250) ∧
      (∃ p, (pointsOf run.events)[1]? = some p ∧ p.throttle = 7) := by
  have accepted : parseFile sweep = .ok sweepCommands := by
    have read : (parseFile sweep).toOption = some sweepCommands := by decide +kernel
    cases parsed : parseFile sweep with
    | error fault => simp [parsed, Except.toOption] at read
    | ok script => simpa [parsed, Except.toOption] using read
  obtain ⟨run, kept, _, sent, _, _, _, places⟩ :=
    run_by_places {} sweep [["lc1(5)"]] { port := some {} } {} {} sweepCommands
      [.nothing, .nothing, .nothing, .nothing, .nothing, .whole 5, .nothing] accepted rfl rfl rfl
      (by rw [accepted]; decide +kernel)
  refine ⟨accepted, run, kept, sent, ?_, ?_⟩
  · exact (places (sweepCommands.take 1) ⟨.addPoint, []⟩ (sweepCommands.drop 2) rfl).1 rfl
  · exact (places (sweepCommands.take 6) ⟨.addPoint, []⟩ [] rfl).1 rfl

end ThrustBench.Script
