import ThrustBench.Proofs.Completion
import ThrustBench.Proofs.OrderedDoubles
import ThrustBench.Proofs.RunHistory

/-!
Which scripts fail while they run.  A script may hold numbers of any size, and its commands look at
them only when they are carried out: a number can have too many digits to be read, and a wait can be
too long.  With a port, and with nothing from outside that fails, these are the only reasons, and
such a command does nothing before it fails.
-/

namespace ThrustBench

theorem Board.chokes_of_decodeAll {b : Board} {before lines : List String} (after : List String)
    (chokes : (b.decodeAll before).Chokes lines) : b.Chokes (before ++ lines ++ after) := by
  obtain ⟨early, line, late, rfl, fails⟩ := chokes
  refine ⟨before ++ early, line, late ++ after, by simp, ?_⟩
  rwa [decodeAll_append]

namespace Binary64

theorem nearest_of_whole {m den : Nat} (exponent : Nat) (small : m < Nat.pow 2 53)
    (positive : 0 < den) :
    nearest (m * Nat.pow 2 exponent * den) den = m * Nat.pow 2 exponent := by
  have scaled := nearest_scale positive (m * Nat.pow 2 exponent) 1
  rw [Nat.one_mul] at scaled
  rw [scaled, nearest_shifted exponent small]

/-- The longest wait in seconds is a double, and so is a number of seconds less than a millisecond
above it; so the rounding of the quotient does not move a wait across the limit. -/
theorem nearest_le_longest_iff (n : Nat) :
    nearest (n * unit) 1000 ≤ 9223372037 * unit ↔ n ≤ 9223372037000 := by
  obtain ⟨exponent, split⟩ : ∃ exponent, unit = Nat.pow 2 exponent * 1024 := by
    have sum : 1074 = 1064 + 10 := rfl
    unfold unit
    generalize 1064 = rest, 1074 = exponent at sum
    exact ⟨rest, sum ▸ Nat.pow_add 2 rest 10⟩
  have longest := nearest_of_whole exponent (by decide : 9223372037 * 1024 < _)
    (by decide : 0 < 1000)
  have next := nearest_of_whole exponent (by decide : 9223372037 * 1024 + 1 < _)
    (by decide : 0 < 1000)
  have positive : 0 < Nat.pow 2 exponent := Nat.pow_pos (by decide)
  rw [split]
  generalize Nat.pow 2 exponent = grain at *
  constructor
  · intro least
    by_contra more
    have steps : 9223372037001 * (grain * 1024) ≤ n * (grain * 1024) :=
      Nat.mul_le_mul_right _ (by omega)
    have order := nearest_mono 1000
      (by omega : (9223372037 * 1024 + 1) * grain * 1000 ≤ n * (grain * 1024))
    omega
  · intro most
    have steps : n * (grain * 1024) ≤ 9223372037000 * (grain * 1024) :=
      Nat.mul_le_mul_right _ most
    have order := nearest_mono 1000
      (by omega : n * (grain * 1024) ≤ 9223372037 * 1024 * grain * 1000)
    omega

theorem longest_lt_limit : 9223372037 * unit < limit := by
  have small : 9223372037 < Nat.pow 2 53 := by decide
  have room : 53 + 1074 ≤ 2098 := by decide
  unfold unit limit
  generalize 1074 = exponent, 2098 = bound at room ⊢
  exact shifted_lt small room

end Binary64

namespace Script

/-- Has a command a number that is too large for it: one of more digits than are read, or a wait of
more milliseconds than the longest? -/
def Command.isOverlong (c : Command) : Bool :=
  match c.verb, c.arguments with
  | .setThrottle, [digits] => decide (Fault.digitLimit < digits.length)
  | .wait, [digits] =>
    decide (Fault.digitLimit < digits.length) || decide (9223372037000 < decimal digits)
  | _, _ => false

namespace Run

theorem longestWait_lt_iff (n : Nat) :
    longestWait.lt (.real (Binary64.ofQuotient n 1000)) = true ↔ 9223372037000 < n := by
  have order := Binary64.nearest_le_longest_iff n
  have inside := Binary64.longest_lt_limit
  have positive : decide ((n : Int) < 0) = false := by simp
  have whole (k : Nat) : (Number.whole k).compared = .finite false (k * Binary64.unit) := by
    simp [Number.compared]
  have longest : longestWait.compared = .finite false (9223372037 * Binary64.unit) :=
    whole 9223372037
  rw [Number.lt_eq, longest, Number.compared, Binary64.ofQuotient, positive, Int.natAbs_natCast,
    Binary64.ofSteps]
  generalize Binary64.unit = unit at *
  split
  · simp only [Binary64.lt, Binary64.signed, decide_eq_true_eq, Bool.false_eq_true, if_false]
    omega
  · simp only [Binary64.lt, Bool.not_false, true_iff]
    omega

theorem act_of_overlong (plan : Plan) (r : Run) {c : Command} (fits : c.WellFormed)
    (overlong : c.isOverlong = true) :
    ∃ cause, cause ≠ .aborted ∧ r.act plan c.verb c.data = (r, .error cause) := by
  obtain ⟨verb, arguments⟩ := c
  cases verb with
  | setThrottle =>
      obtain _ | @⟨_, digits, _, _, plain, none⟩ := fits
      cases none
      have many : Fault.digitLimit < digits.length := by simpa [Command.isOverlong] using overlong
      have value := Command.one_whole .setThrottle plain.1 plain.2
      rw [if_pos many] at value
      exact ⟨.tooManyDigits digits.length, by simp, setThrottle_unread value⟩
  | wait =>
      obtain _ | @⟨_, digits, _, _, plain, none⟩ := fits
      cases none
      by_cases many : Fault.digitLimit < digits.length
      · have value := Command.one_whole .wait plain.1 plain.2
        rw [if_pos many] at value
        exact ⟨.tooManyDigits digits.length, by simp, by simp only [act, wait, waitLength, value]⟩
      · have long : 9223372037000 < decimal digits := by
          simpa [Command.isOverlong, many] using overlong
        have length := waitLength_plain plain.1 plain.2 many
        split at length
        · exact ⟨.quotientTooLarge, by simp, by simp only [act, wait, length]⟩
        · refine ⟨.waitTooLong, by simp, ?_⟩
          simp only [act, wait, length, (longestWait_lt_iff _).mpr long, if_true]
  | read | useSpreadsheet | useRaw | writeSheetCell | addPoint =>
      simp [Command.isOverlong] at overlong

theorem hearAll_of_not_chokes (lines : List String) : ∀ r : Run,
    ¬r.stand.board.Chokes lines → ∃ r', r.hearAll lines = (r', .ok ()) := by
  induction lines with
  | nil => intro r _; exact ⟨r, rfl⟩
  | cons line lines ih =>
      intro r taken
      rw [Board.chokes_cons, not_or] at taken
      cases outcome : (r.stand.board.decode line).2 with
      | error fault => exact absurd ⟨fault, outcome, Board.decode_error outcome⟩ taken.1
      | ok announcement =>
          have later := ih (r.hear line).1
          simp only [hear, outcome, note] at later
          obtain ⟨r', done⟩ := later taken.2
          exact ⟨r', by simpa [hearAll, hear, outcome, note] using done⟩

theorem waitSeconds_of_not_chokes {feed : List (List String)} {r : Run} (seconds : Binary64)
    (taken : ¬r.stand.board.Chokes (feed[r.waits]?.getD [])) :
    ∃ r', r.waitSeconds { feed } seconds = (r', .ok .nothing) := by
  obtain ⟨r', heard⟩ := hearAll_of_not_chokes _ (r.note (.waited r.clock.now)) taken
  simp only [waitSeconds, beginWait, heard, reduceCtorEq, if_false]
  exact ⟨_, rfl⟩

theorem act_of_fitting {feed : List (List String)} {r : Run} {c : Command} (fits : c.WellFormed)
    (fitting : c.isOverlong = false) (connected : r.stand.port.isSome = true)
    (taken : ¬r.stand.board.Chokes (feed[r.waits]?.getD [])) :
    ∃ r' value, r.act { feed } c.verb c.data = (r', .ok value) := by
  obtain ⟨verb, arguments⟩ := c
  cases verb with
  | setThrottle =>
      obtain _ | @⟨_, digits, _, _, plain, none⟩ := fits
      cases none
      have few : ¬Fault.digitLimit < digits.length := by
        simpa [Command.isOverlong] using fitting
      have value := Command.one_whole .setThrottle plain.1 plain.2
      rw [if_neg few] at value
      by_cases inside : 0 ≤ (decimal digits : Int) ∧ (decimal digits : Int) ≤ 100
      · obtain ⟨port, here⟩ := Option.isSome_iff_exists.mp connected
        exact ⟨_, _, setThrottle_inside value inside here⟩
      · exact ⟨_, _, setThrottle_outside value inside⟩
  | wait =>
      obtain _ | @⟨_, digits, _, _, plain, none⟩ := fits
      cases none
      obtain ⟨few, short⟩ :
          ¬Fault.digitLimit < digits.length ∧ ¬9223372037000 < decimal digits := by
        simpa [Command.isOverlong] using fitting
      have inTime : longestWait.lt (.real (Binary64.ofQuotient (decimal digits) 1000)) = false := by
        rw [← Bool.not_eq_true, longestWait_lt_iff]
        exact short
      have finite : (Binary64.ofQuotient (decimal digits) 1000).isInfinite = false := by
        by_contra large
        rw [lt_of_infinite (by simpa using large)] at inTime
        simp at inTime
      have length := waitLength_plain plain.1 plain.2 few
      rw [finite, if_neg (by simp)] at length
      obtain ⟨r', done⟩ := waitSeconds_of_not_chokes
        (Binary64.ofQuotient (decimal digits) 1000) taken
      refine ⟨r', .nothing, ?_⟩
      simp only [act, wait, length, inTime, Bool.false_eq_true, if_false, done]
  | addPoint => exact ⟨_, _, rfl⟩
  | read channel => exact ⟨_, _, rfl⟩
  | useSpreadsheet => exact ⟨_, _, rfl⟩
  | useRaw =>
      obtain _ | ⟨_, none⟩ := fits
      exact ⟨_, _, rfl⟩
  | writeSheetCell =>
      obtain _ | ⟨_, _ | ⟨_, _ | ⟨_, none⟩⟩⟩ := fits
      cases none
      exact ⟨_, _, rfl⟩

end Run

section Scripts

variable {feed : List (List String)} {stand : Stand} {before : List Command} {c : Command} {r : Run}

structure Attended (feed : List (List String)) (stand : Stand) (before : List Command) (r : Run) :
    Prop where
  connected : r.stand.port.isSome = true
  running : r.abort = false
  waits : r.waits = countOf .wait before
  board : r.stand.board = stand.board.decodeAll (linesAfter feed before)

theorem Attended.step {r' : Run} {value : Datum} (attended : Attended feed stand before r)
    (done : r.perform { feed } c.verb c.data = (r', .ok value)) :
    Attended feed stand (before ++ [c]) r' := by
  obtain ⟨connected, running, waits, board⟩ := attended
  have deed := Run.Deed.of_perform done
  generalize kind : c.verb = verb at deed
  generalize c.data = args at deed
  have still (other : c.verb ≠ .wait) : countOf .wait (before ++ [c]) = countOf .wait before ∧
      linesAfter feed (before ++ [c]) = linesAfter feed before := by
    simp [countOf_snoc, linesAfter_snoc, other]
  cases deed with
  | waits heard abort clock hidden cancelled =>
      refine ⟨connected, ?_, ?_, ?_⟩
      · simpa [running] using cancelled
      · simp [countOf_snoc, kind, waits]
      · simp [linesAfter_snoc, kind, board, waits, Board.decodeAll_append]
  | sends _ _ _ =>
      obtain ⟨count, lines⟩ := still (by simp [kind])
      exact ⟨rfl, running, by rw [count, ← waits], by rw [lines, ← board]⟩
  | remembers _ _ =>
      obtain ⟨count, lines⟩ := still (by simp [kind])
      exact ⟨connected, running, by rw [count, ← waits], by rw [lines, ← board]⟩
  | reads channel =>
      obtain ⟨count, lines⟩ := still (by simp [kind])
      exact ⟨connected, running, by rw [count, ← waits], by rw [lines, ← board]⟩
  | prints lines which =>
      obtain ⟨count, lines⟩ := still (by rcases which with rfl | rfl <;> simp [kind])
      exact ⟨connected, running, by rw [count, ← waits], by rw [lines, ← board]⟩
  | chooses =>
      obtain ⟨count, lines⟩ := still (by simp [kind])
      exact ⟨connected, running, by rw [count, ← waits], by rw [lines, ← board]⟩
  | adds _ =>
      obtain ⟨count, lines⟩ := still (by simp [kind])
      exact ⟨connected, by simp [running], by rw [count, ← waits]; rfl, by rw [lines, ← board]; rfl⟩

theorem Attended.taken (attended : Attended feed stand before r)
    (taken : ¬stand.board.Chokes feed.flatten) :
    ¬r.stand.board.Chokes (feed[r.waits]?.getD []) := by
  intro chokes
  rw [attended.board, attended.waits] at chokes
  apply taken
  cases given : feed[countOf .wait before]? with
  | none =>
      rw [given] at chokes
      exact absurd chokes (Board.not_chokes_nil _)
  | some lines =>
      rw [given] at chokes
      have split : feed = feed.take (countOf .wait before) ++
          lines :: feed.drop (countOf .wait before + 1) := by
        obtain ⟨bound, rfl⟩ := List.getElem?_eq_some_iff.mp given
        rw [List.getElem_cons_drop, List.take_append_drop]
      rw [split, List.flatten_append, List.flatten_cons, ← List.append_assoc]
      exact Board.chokes_of_decodeAll _ chokes

theorem performAll_of_fitting (clock : Clock) (connected : stand.port.isSome = true)
    (taken : ¬stand.board.Chokes feed.flatten) (before : List Command)
    (fits : ∀ c ∈ before, c.WellFormed) (fitting : ∀ c ∈ before, c.isOverlong = false) :
    ∃ r values, Run.performAll { feed } (Run.begin stand clock) before = (r, .ok values) ∧
      Attended feed stand before r := by
  induction before using List.reverseRecOn with
  | nil => exact ⟨_, _, rfl, connected, rfl, rfl, rfl⟩
  | append_singleton before c ih =>
      obtain ⟨r, values, first, attended⟩ := ih (fun d member => fits d (by simp [member]))
        fun d member => fitting d (by simp [member])
      obtain ⟨r', value, done⟩ := Run.act_of_fitting (fits c (by simp)) (fitting c (by simp))
        attended.connected (attended.taken taken)
      rw [← Run.perform_of_running attended.running] at done
      refine ⟨r', values ++ [value], ?_, attended.step done⟩
      rw [Run.performAll_append_ok first, Run.performAll_cons_ok done]
      rfl

theorem body_of_overlong (j : Job) (clock : Clock) {after : List Command}
    (fits : ∀ d ∈ before ++ c :: after, d.WellFormed) (connected : stand.port.isSome = true)
    (taken : ¬stand.board.Chokes feed.flatten) (fitting : ∀ d ∈ before, d.isOverlong = false)
    (overlong : c.isOverlong = true) :
    ∃ run values cause,
      Run.performAll { feed } (Run.begin stand clock) before = (run, .ok values) ∧
      j.body (.ok (before ++ c :: after)) { feed } stand clock =
        { job := { j with bodyRunning := true }, stand := run.stand, clock := run.clock,
          run := some run, raised := some (.command c.verb.rule cause) } := by
  obtain ⟨r, values, first, attended⟩ := performAll_of_fitting clock connected taken before
    (fun d member => fits d (by simp [member])) fitting
  obtain ⟨cause, other, failed⟩ := r.act_of_overlong { feed } (fits c (by simp)) overlong
  rw [← Run.perform_of_running attended.running] at failed
  have blamed : Run.blame c cause = .command c.verb.rule cause := by
    cases cause <;> simp_all [Run.blame]
  refine ⟨r, values, cause, first, ?_⟩
  rw [Job.body_ok, Run.performAll_append_ok first, Run.performAll_cons_error failed, blamed]
  exact Job.conclude_failed attended.running (by simp)

/-- A script that was read and runs with a port, with nothing from outside that fails or cancels it,
fails exactly if one of its numbers is too large.  Then the failure names the command with the first
such number, and what is left is what the commands before it have done. -/
theorem fails_iff_overlong (j : Job) (bytes : List UInt8) (feed : List (List String))
    (stand : Stand) (clock : Clock) (script : List Command)
    (accepted : parseFile bytes = .ok script) (connected : stand.port.isSome = true)
    (taken : ¬stand.board.Chokes feed.flatten) :
    let out := j.body (parseFile bytes) { feed } stand clock
    (out.raised.isSome = true ↔ ∃ c ∈ script, c.isOverlong = true) ∧
      ∀ before c after, script = before ++ c :: after → (∀ d ∈ before, d.isOverlong = false) →
        c.isOverlong = true →
        ∃ run values cause,
          Run.performAll { feed } (Run.begin stand clock) before = (run, .ok values) ∧
          out.raised = some (.command c.verb.rule cause) ∧ out.run = some run ∧
          out.stand = run.stand ∧ out.clock = run.clock := by
  intro out
  have fits := (parseFile_wellFormed accepted).2
  simp only [out, accepted]
  refine ⟨⟨?_, ?_⟩, ?_⟩
  · intro raised
    by_contra none
    have fitting : ∀ c ∈ script, c.isOverlong = false := by simpa using none
    obtain ⟨r, values, whole, _⟩ := performAll_of_fitting clock connected taken script fits fitting
    rw [Job.body_ok, whole, Job.conclude_ok] at raised
    simp at raised
  · intro some
    obtain ⟨c, found⟩ := Option.isSome_iff_exists.mp (List.find?_isSome.mpr some)
    obtain ⟨overlong, before, after, rfl, earlier⟩ := List.find?_eq_some_iff_append.mp found
    obtain ⟨run, values, cause, _, ended⟩ := body_of_overlong j clock fits connected taken
      (fun d member => by simpa using earlier d member) overlong
    rw [ended]
    rfl
  · rintro before c after rfl fitting overlong
    obtain ⟨run, values, cause, first, ended⟩ :=
      body_of_overlong j clock fits connected taken fitting overlong
    rw [ended]
    exact ⟨run, values, cause, first, rfl, rfl, rfl, rfl⟩

def longWait : List UInt8 := "SET_THROTTLE 30 WAIT 9223372037001 SET_THROTTLE 40".toUTF8.toList

def longWaitCommands : List Command :=
  [⟨.setThrottle, ["30".toList]⟩, ⟨.wait, ["9223372037001".toList]⟩, ⟨.setThrottle, ["40".toList]⟩]

theorem fails_iff_overlong_longWait :
    parseFile longWait = .ok longWaitCommands ∧ ¬({} : Board).Chokes [] ∧
      ∃ run cause,
        (Job.body {} (parseFile longWait) {} { port := some {} } {}).raised =
          some (.command "wait" cause) ∧
        (Job.body {} (parseFile longWait) {} { port := some {} } {}).run = some run ∧
        sentBy run.events = ["thr(30)\n"] ∧ run.throttle = 30 := by
  have accepted : parseFile longWait = .ok longWaitCommands := by
    have read : (parseFile longWait).toOption = some longWaitCommands := by decide +kernel
    cases parsed : parseFile longWait with
    | error fault => simp [parsed, Except.toOption] at read
    | ok script => simpa [parsed, Except.toOption] using read
  have quiet := Board.not_chokes_nil {}
  obtain ⟨run, values, cause, first, raised, kept, _⟩ :=
    (fails_iff_overlong {} longWait [] { port := some {} } {} longWaitCommands accepted rfl quiet).2
      (longWaitCommands.take 1) ⟨.wait, ["9223372037001".toList]⟩ (longWaitCommands.drop 2) rfl
      (by decide +kernel) (by decide +kernel)
  have early : run = (Run.performAll {} (Run.begin { port := some {} } {})
      (longWaitCommands.take 1)).1 := (congrArg Prod.fst first).symm
  exact ⟨accepted, quiet, run, cause, raised, kept, by rw [early]; decide +kernel,
    by rw [early]; decide +kernel⟩

end Scripts

end Script

end ThrustBench
