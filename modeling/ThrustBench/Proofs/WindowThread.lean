import ThrustBench.Proofs.ThreadSteps
import ThrustBench.Routine.Window

/-!
The window of a routine together with the thread that carries the routine out, and the user, who may
do anything between two steps of the thread.  The buttons always tell whether a thread is at work,
each thread tells its end once, and a thread that is left alone does what `Window.runThread` does.
-/

namespace ThrustBench.Routine

inductive Signal where
  | log (line : String)
  | done
  | error (message : String)
  deriving DecidableEq

def Ending.signal : Ending → Signal
  | .done => .done
  | .error message => .error message

def Signal.line : Signal → String
  | .log line => line
  | .done => Window.endingLine .done
  | .error message => Window.endingLine (.error message)

namespace Window

def hear (w : Window) : Signal → Window
  | .log line => { w with log := w.log ++ [line] }
  | signal => { w with log := w.log ++ [signal.line], runEnabled := true, stopEnabled := false }

theorem hear_lines (lines : List String) : ∀ w : Window,
    (lines.map Signal.log).foldl hear w = { w with log := w.log ++ lines } := by
  induction lines with
  | nil => intro w; simp
  | cons line lines ih =>
      intro w
      rw [List.map_cons, List.foldl_cons, ih]
      simp [hear]

theorem hear_ending (w : Window) (ending : Ending) :
    w.hear ending.signal =
      { w with log := w.log ++ [endingLine ending], runEnabled := true, stopEnabled := false } := by
  cases ending <;> rfl

theorem pressStop_cases (w : Window) :
    w.pressStop = w ∨ ∃ t, w.thread = some t ∧ t.running = true ∧
      w.pressStop = { w with thread := some { t with stopAsked := true } } := by
  unfold pressStop
  split
  · rename_i t given
    split
    · rename_i running
      exact .inr ⟨t, given, running, rfl⟩
    · exact .inl rfl
  · exact .inl rfl

end Window

structure Desk where
  window : Window := {}
  stage : Stage := .ended
  machine : Machine := {}
  /-- What each thread has told the window; the first is the one that was started last. -/
  told : List (List Signal) := []

inductive Beat where
  | edit (text : String)
  | run
  | stop
  | loadExample
  | work

def Thread.stop (t : Thread) : Stop := if t.stopAsked then .early else .never

namespace Desk

def work (d : Desk) : Desk :=
  match d.window.thread with
  | none => d
  | some t =>
    if t.running then
      let m := d.machine.under t.stop
      let (stage, n) := d.stage.step t.text m
      let signals := (n.log.drop m.log.length).map Signal.log ++
        (d.stage.ending?.map Ending.signal).toList
      let window := signals.foldl Window.hear d.window
      { window :=
          { window with thread := some { t with running := !stage.isEnded }, clock := n.clock }
        stage := stage
        machine := n
        told := (d.told.headD [] ++ signals) :: d.told.tail }
    else d

def beat (d : Desk) : Beat → Desk
  | .edit text => { d with window := d.window.setEditor text }
  | .run =>
    let window := d.window.pressRun.1
    if d.window.running then { d with window }
    else { window, stage := .fresh, machine := { clock := window.clock }, told := [] :: d.told }
  | .stop => { d with window := d.window.pressStop }
  | .loadExample => { d with window := d.window.pressExample }
  | .work => d.work

def after (d : Desk) (history : List Beat) : Desk := history.foldl beat d

theorem after_snoc (d : Desk) (history : List Beat) (b : Beat) :
    d.after (history ++ [b]) = (d.after history).beat b := by
  simp [after]

variable {d : Desk} {t : Thread}

def next (d : Desk) (t : Thread) : Stage × Machine := d.stage.step t.text (d.machine.under t.stop)

def lines (d : Desk) (t : Thread) : List String := (d.next t).2.log.drop d.machine.log.length

theorem work_of_idle (idle : d.window.running = false) : d.work = d := by
  unfold work
  split
  · rfl
  · rename_i t given
    have rests : t.running = false := by simpa [Window.running, given] using idle
    rw [rests]
    rfl

theorem work_of_quiet (given : d.window.thread = some t) (running : t.running = true)
    (quiet : d.stage.ending? = none) :
    d.work =
      { window :=
          { d.window with
            log := d.window.log ++ d.lines t
            thread := some { t with running := !(d.next t).1.isEnded }
            clock := (d.next t).2.clock }
        stage := (d.next t).1
        machine := (d.next t).2
        told := (d.told.headD [] ++ (d.lines t).map Signal.log) :: d.told.tail } := by
  simp only [work, given, running, if_true, quiet, Option.map_none, Option.toList_none,
    List.append_nil, Window.hear_lines]
  rfl

theorem work_of_ending {ending : Ending} (given : d.window.thread = some t)
    (running : t.running = true) (working : d.stage.isEnded = false)
    (told : d.stage.ending? = some ending) :
    d.work =
      { window :=
          { d.window with
            log := d.window.log ++ [Window.endingLine ending]
            runEnabled := true
            stopEnabled := false
            thread := some { t with running := false }
            clock := d.machine.clock }
        stage := .ended
        machine := d.machine.under t.stop
        told := (d.told.headD [] ++ [ending.signal]) :: d.told.tail } := by
  have turn := Stage.step_turn t.text working (d.machine.under t.stop)
  rw [told] at turn
  simp only [work, given, running, if_true, told, turn.eq_of_last, Option.map_some,
    Option.toList_some, List.drop_length, List.map_nil, List.nil_append, List.foldl_cons,
    List.foldl_nil, Window.hear_ending]
  rfl

/-- Has a thread told its end, once and after all its lines? -/
def Whole (told : List Signal) : Prop :=
  ∃ (lines : List String) (ending : Ending), told = lines.map Signal.log ++ [ending.signal]

structure Sound (d : Desk) : Prop where
  run : d.window.runEnabled = !d.window.running
  stop : d.window.stopEnabled = d.window.running
  stage : d.stage.isEnded = !d.window.running
  current : d.window.running = true →
    ∃ (lines : List String) (earlier : List (List Signal)), d.told = lines.map Signal.log :: earlier
  whole : ∀ told ∈ (if d.window.running then d.told.tail else d.told), Whole told
  log : d.window.log <:+ (d.told.headD []).map Signal.line
  fresh : d.stage = .fresh → d.machine = { clock := d.window.clock }

theorem Sound.start : Sound {} where
  run := rfl
  stop := rfl
  stage := rfl
  current := fun running => by cases running
  whole := by simp [Window.running]
  log := List.suffix_rfl
  fresh := fun begun => by cases begun

theorem line_signal (ending : Ending) : ending.signal.line = Window.endingLine ending := by
  cases ending <;> rfl

theorem map_line_log (lines : List String) : (lines.map Signal.log).map Signal.line = lines := by
  have plain : Signal.line ∘ Signal.log = id := rfl
  rw [List.map_map, plain, List.map_id]

theorem Sound.at_work (sound : d.Sound) (running : d.window.running = true) :
    ∃ (t : Thread) (lines : List String) (earlier : List (List Signal)),
      d.window.thread = some t ∧ t.running = true ∧ d.stage.isEnded = false ∧
      d.told = lines.map Signal.log :: earlier ∧ (∀ told ∈ earlier, Whole told) ∧
      d.window.log <:+ lines := by
  obtain ⟨lines, earlier, told⟩ := sound.current running
  have whole := sound.whole
  have log := sound.log
  rw [if_pos running, told] at whole
  rw [told, List.headD_cons, map_line_log] at log
  cases thread : d.window.thread with
  | none => simp [Window.running, thread] at running
  | some t =>
      refine ⟨t, lines, earlier, rfl, ?_, ?_, told, whole, log⟩
      · simpa [Window.running, thread] using running
      · rw [sound.stage, running]
        rfl

theorem Sound.work_of_quiet (sound : d.Sound) (running : d.window.running = true)
    (quiet : d.stage.ending? = none) : d.work.Sound := by
  obtain ⟨t, lines, earlier, given, atWork, working, told, whole, log⟩ := sound.at_work running
  have turn := Stage.step_turn t.text working (d.machine.under t.stop)
  rw [quiet] at turn
  obtain ⟨begun, going⟩ := (Stage.isUnderway_iff (d.next t).1).mp turn.going
  rw [Desk.work_of_quiet given atWork quiet, told]
  refine ⟨?_, ?_, ?_, fun _ => ⟨lines ++ d.lines t, earlier, by simp⟩, ?_, ?_, fun same => ?_⟩
  · rw [sound.run, running]
    simp [Window.running, going]
  · rw [sound.stop, running]
    simp [Window.running, going]
  · simp [Window.running]
  · simpa [Window.running, going] using whole
  · simp only [List.headD_cons, List.map_append, map_line_log]
    exact List.suffix_append_self_iff.mpr log
  · exact absurd same begun

theorem Sound.work_of_ending {ending : Ending} (sound : d.Sound)
    (running : d.window.running = true) (last : d.stage.ending? = some ending) : d.work.Sound := by
  obtain ⟨t, lines, earlier, given, atWork, working, told, whole, log⟩ := sound.at_work running
  rw [Desk.work_of_ending given atWork working last, told]
  refine ⟨rfl, rfl, rfl, fun running => by simp [Window.running] at running, ?_, ?_,
    fun same => by cases same⟩
  · simp only [Window.running, Option.map_some, Option.getD_some, Bool.false_eq_true, if_false,
      List.headD_cons, List.tail_cons, List.mem_cons]
    rintro signals (rfl | before)
    · exact ⟨lines, ending, rfl⟩
    · exact whole signals before
  · simp only [List.headD_cons, List.map_append, map_line_log, List.map_cons, List.map_nil,
      line_signal]
    exact List.suffix_append_self_iff.mpr log

theorem Sound.aside (sound : d.Sound) {w : Window} (run : w.runEnabled = d.window.runEnabled)
    (stop : w.stopEnabled = d.window.stopEnabled) (running : w.running = d.window.running)
    (log : w.log <:+ d.window.log) (clock : w.clock = d.window.clock) :
    Sound { d with window := w } where
  run := by rw [run, running, sound.run]
  stop := by rw [stop, running, sound.stop]
  stage := by rw [running, sound.stage]
  current := fun going => sound.current (running ▸ going)
  whole := by
    rw [running]
    exact sound.whole
  log := log.trans sound.log
  fresh := fun begun => by rw [clock, sound.fresh begun]

theorem Sound.beat (sound : d.Sound) (b : Beat) : (d.beat b).Sound := by
  cases b with
  | edit text => exact sound.aside rfl rfl rfl List.suffix_rfl rfl
  | loadExample => exact sound.aside rfl rfl rfl List.nil_suffix rfl
  | stop =>
      rcases d.window.pressStop_cases with same | ⟨t, given, running, same⟩
      · simp only [Desk.beat, same]
        exact sound
      · simp only [Desk.beat, same]
        refine sound.aside rfl rfl ?_ List.suffix_rfl rfl
        simp [Window.running, given]
  | run =>
      by_cases running : d.window.running = true
      · simp only [Desk.beat, Window.pressRun, running, if_true]
        exact sound
      · have whole := sound.whole
        rw [if_neg running] at whole
        simp only [Desk.beat, Window.pressRun, running, Bool.false_eq_true, if_false]
        exact ⟨rfl, rfl, rfl, fun _ => ⟨[], d.told, rfl⟩, whole, List.suffix_rfl, fun _ => rfl⟩
  | work =>
      by_cases running : d.window.running = true
      · cases last : d.stage.ending? with
        | none => exact sound.work_of_quiet running last
        | some ending => exact sound.work_of_ending running last
      · have idle : d.beat .work = d := work_of_idle (Bool.eq_false_iff.mpr running)
        rw [idle]
        exact sound

def works (d : Desk) (count : Nat) : Desk := d.after (List.replicate count .work)

end Desk

def waiting : List Beat :=
  .edit "SET_PWM a 1 WAIT 9" :: .run ::
    (List.replicate 10 Beat.work).append (.run :: List.replicate 3 .work)

end ThrustBench.Routine
