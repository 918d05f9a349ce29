import ThrustBench.Proofs.HandRows
import ThrustBench.Proofs.SessionFrames
import ThrustBench.Proofs.SheetRows

/-!
The table, the sheet and the exported file through a session.  At every moment all three have one
row for each point that was added since the points were dropped last, in order, and the same values
in it.
-/

namespace ThrustBench

def Datum.isCount : Datum → Bool
  | .nothing | .whole _ => true
  | _ => false

/-- A whole number has to be one that a double holds, below `2 ^ 53`; other values may be any. -/
def Datum.isSmall : Datum → Bool
  | .whole n => decide (n.natAbs < Nat.pow 2 53)
  | _ => true

inductive Datum.Plain : Datum → Prop
  | nothing : Plain nothing
  | whole (n : Int) : Plain (whole n)
  | real {x : Binary64} (held : x.Representable) : Plain (real x)

theorem Datum.Plain.fair {d : Datum} (plain : d.Plain) (small : d.isSmall = true) : d.Fair := by
  cases plain with
  | nothing => exact .nothing
  | whole n => exact .whole (of_decide_eq_true small)
  | real held => exact .real held

theorem Datum.plain_of_count {d : Datum} (count : d.isCount = true) : d.Plain := by
  cases d with
  | nothing => exact .nothing
  | whole n => exact .whole n
  | _ => cases count

inductive Number.Held : Number → Prop
  | whole (n : Int) : Held (whole n)
  | real {x : Binary64} (held : x.Representable) : Held (real x)

theorem Number.Held.plain {n : Number} (held : n.Held) : (Datum.ofNumber n).Plain := by
  cases held with
  | whole n => exact .whole n
  | real held => exact .real held

def Channels.Held (values : Channels Number) : Prop := ∀ c, (values.get c).Held

theorem Number.sub_held {m n v : Number} (done : m.sub n = .ok v) : v.Held := by
  have mixed (x y : Except Fault Binary64)
      (done : (do return real ((← x).sub (← y)) : Except Fault Number) = .ok v) : v.Held := by
    cases x with
    | error fault => cases done
    | ok a =>
        cases y with
        | error fault => cases done
        | ok b =>
            cases done
            exact .real (Binary64.add_representable a b.neg)
  unfold Number.sub at done
  split at done
  · cases done
    exact .whole _
  · exact mixed _ _ done

namespace Board

theorem announced_held {c : Channel} {reading : Number} {offset : Datum} {v : Number}
    (done : announced c reading offset = .ok v) : v.Held := by
  unfold announced at done
  cases subtracted : (Datum.ofNumber reading).sub offset with
  | error fault =>
      rw [subtracted] at done
      cases done
  | ok difference =>
      have held : difference.Held := by
        unfold Datum.sub at subtracted
        split at subtracted
        · exact Number.sub_held subtracted
        · cases subtracted
      rw [subtracted] at done
      simp only [bind, Except.bind, pure, Except.pure] at done
      split at done
      · cases done
        exact .real (Binary64.roundPlaces_representable 2 _)
      · cases done
        exact .real (Binary64.roundPlaces_representable 2 _)
      · cases done
        exact held

theorem held_kept : Kept fun b => b.value.Held where
  line := by
    intro b text before
    unfold decode
    split
    · exact before
    · rename_i c _
      split
      · exact before
      · exact before
      · simp only
        split
        · exact before
        · rename_i v done
          intro other
          rw [Channels.get_set]
          split
          · exact announced_held done
          · exact before other
  zero := fun _ _ before => before

end Board

namespace Script.Run

structure Measured (r : Run) : Prop where
  board : r.stand.board.value.Held
  points : ∀ p ∈ pointsOf r.events, p.values.Held

theorem Measured.perform {r : Run} (before : r.Measured) (plan : Plan) (verb : Verb)
    (args : List Datum) : (r.perform plan verb args).1.Measured := by
  refine ⟨perform_board Board.held_kept plan r verb args before.board, ?_⟩
  generalize done : r.perform plan verb args = result
  obtain ⟨r', outcome⟩ := result
  have deed := Deed.of_perform done
  intro p member
  obtain ⟨e, inside, point⟩ := List.mem_filterMap.mp member
  obtain ⟨place, found⟩ := List.getElem?_of_mem inside
  cases e with
  | point q =>
      cases point
      by_cases old : place < r.events.length
      · -- the events of earlier commands stay where they are
        obtain ⟨later, whole⟩ := deed.events
        rw [← whole, List.getElem?_append_left old] at found
        exact before.points p (List.mem_filterMap.mpr ⟨_, List.mem_of_getElem? found, rfl⟩)
      · obtain ⟨_, _, rfl⟩ := deed.point_origin (by omega) found
        exact before.board
  | _ => cases point

theorem Measured.performAll {r : Run} (before : r.Measured) (plan : Plan)
    (script : List Command) : (performAll plan r script).1.Measured :=
  performAll_keeps (fun _ verb args earlier => earlier.perform plan verb args) script before

theorem Measured.begin {stand : Stand} (held : stand.board.value.Held) (clock : Clock) :
    (begin stand clock).Measured := by
  refine ⟨held, ?_⟩
  simp [Run.begin, pointsOf]

end Script.Run

namespace Session

def scriptPoints (s : Session) (feed : List (List String)) (pressAtWait : Option Nat) :
    List Script.Point :=
  match s.panel.thread with
  | none => []
  | some thread =>
    match thread.script.read s.panel.otherText with
    | .error _ => []
    | .ok script =>
      Script.pointsOf (Script.Run.performAll (s.scriptPlan feed pressAtWait)
        (Script.Run.begin s.stand s.clock) script).1.events

end Session

namespace Happening

def rows (s : Session) : Happening → List (List (String × Datum))
  | .action .savePoint => [s.pointRow s.clock s.stand.board.value .nothing .nothing]
  | .action .tickRecording =>
    if s.recorder.recording then [s.pointRow s.clock s.stand.board.value .nothing .nothing] else []
  | .action (.addPoint timer throttle) =>
    [s.pointRow s.clock s.stand.board.value timer throttle]
  | .action (.runScript feed pressAtWait) => (s.scriptPoints feed pressAtWait).map s.scriptRow
  | .action _ => []
  | .command plan run c => (Script.pointsOf (s.attempt plan run c).1.events).map s.scriptRow

def clears : Happening → Bool
  | .action .clearPoints => true
  | _ => false

/-- Is a point that is added directly given counts, as a script gives them, or nothing? -/
def isCounted : Happening → Bool
  | .action (.addPoint timer throttle) => timer.isCount && throttle.isCount
  | _ => true

end Happening

namespace Session

def rowsAfter (s : Session) (rows : List (List (String × Datum))) :
    List Happening → List (List (String × Datum))
  | [] => rows
  | x :: history =>
    (s.happen x).rowsAfter (if x.clears then [] else rows ++ x.rows s) history

theorem rowsAfter_snoc (history : List Happening) (x : Happening) : ∀ (s : Session)
    (rows : List (List (String × Datum))),
    s.rowsAfter rows (history ++ [x]) =
      if x.clears then [] else s.rowsAfter rows history ++ x.rows (s.after history) := by
  induction history with
  | nil => intro s rows; rfl
  | cons y history ih => intro s rows; exact ih (s.happen y) _

def recorded (s : Session) (history : List Happening) : List (List (String × Datum)) :=
  s.rowsAfter [] history

theorem replayAll_recorder (events : List Script.Event) : ∀ s : Session,
    (s.replayAll events).1.recorder =
      s.recorder.addAll ((Script.pointsOf events).map s.scriptRow) := by
  induction events with
  | nil => intro s; rfl
  | cons e events ih =>
      intro s
      have row (p : Script.Point) : (s.replay e).1.scriptRow p = s.scriptRow p := by
        rw [s.replay_only e]
        rfl
      have rest := ih (s.replay e).1
      rw [List.map_congr_left fun p _ => row p] at rest
      have whole : (s.replayAll (e :: events)).1 = ((s.replay e).1.replayAll events).1 := rfl
      rw [whole, rest]
      cases e with
      | heard announcement => cases announcement <;> rfl
      | _ => rfl

theorem runScript_recorder (s : Session) (feed : List (List String)) (pressAtWait : Option Nat) :
    (s.runScript feed pressAtWait).session.recorder =
      s.recorder.addAll ((s.scriptPoints feed pressAtWait).map s.scriptRow) := by
  unfold scriptPoints
  cases started : s.panel.thread with
  | none =>
      simp only [runScript, started]
      rfl
  | some thread =>
      cases read : thread.script.read s.panel.otherText with
      | error fault =>
          simp only [runScript, started, read]
          rfl
      | ok script =>
          simp only [runScript, started, read, Script.Job.body_ok, Script.Job.conclude_run,
            Option.map_some, Option.getD_some, replayAll_recorder, scriptPlan]

theorem happen_recorder (s : Session) {x : Happening} (keeps : x.clears = false) :
    (s.happen x).recorder = { s.recorder.addAll (x.rows s) with
      recording := (s.happen x).recorder.recording } := by
  cases x with
  | command plan run c =>
      have shown : (s.obey plan run c).recorder =
          s.recorder.addAll ((Script.pointsOf (s.attempt plan run c).1.events).map s.scriptRow) :=
        replayAll_recorder (s.attempt plan run c).1.events s
      simp only [happen, shown]
      rfl
  | action a =>
      cases a with
      | clearPoints => cases keeps
      | tickRecording =>
          simp only [happen, act, Happening.rows]
          split <;> rfl
      | runScript feed pressAtWait =>
          simp only [happen, act, runScript_recorder]
          rfl
      | connect => simp only [happen, act, (s.connect_only).recorder]; rfl
      | serve works bytes => simp only [happen, act, (s.serve_only works bytes).recorder]; rfl
      | closeMonitor => simp only [happen, act, (s.closeMonitor_only).recorder]; rfl
      | hear line => simp only [happen, act, (s.hear_only line).recorder]; rfl
      | submit =>
          simp only [happen, act, submit]
          split <;> rfl
      | slide position =>
          simp only [happen, act, slide]
          split
          · rfl
          · split <;> rfl
      | tickStopwatch =>
          simp only [happen, act, tickStopwatch]
          split <;> rfl
      | _ => rfl

theorem happen_holds {s : Session} {x : Happening} {points : List (List (String × Datum))}
    (keeps : x.clears = false) (held : s.recorder.Holds points)
    (given : ∀ row ∈ x.rows s, Recorder.FairRow row) :
    (s.happen x).recorder.Holds (points ++ x.rows s) := by
  have added := held.addAll given
  rw [s.happen_recorder keeps]
  exact ⟨⟨added.named.sheet, added.named.table⟩, added.sheet, added.table⟩

theorem happen_of_clears {s : Session} {x : Happening} (drops : x.clears = true) :
    (s.happen x).recorder = s.recorder.clear := by
  unfold Happening.clears at drops
  split at drops
  · rfl
  · cases drops

theorem pointRow_plain {s : Session} {clock : Clock} {values : Channels Number}
    {timer throttle : Datum} (held : values.Held) (first : timer.isCount = true)
    (second : throttle.isCount = true) :
    ∀ entry ∈ s.pointRow clock values timer throttle, entry.2.Plain := by
  have time : (if isNoTime timer then
      Datum.ofNumber? ((s.stopwatch.value clock).map Number.whole) else timer).Plain := by
    split
    · cases s.stopwatch.value clock with
      | none => exact .nothing
      | some n => exact .whole n
    · exact Datum.plain_of_count first
  have power : (if throttle = .nothing then .whole s.throttle else throttle).Plain := by
    split
    · exact .whole s.throttle
    · exact Datum.plain_of_count second
  intro entry member
  simp only [pointRow, Recorder.row, List.mem_cons, List.not_mem_nil, or_false] at member
  rcases member with rfl | rfl | rfl | rfl | rfl | rfl
  · exact time
  · exact power
  · exact (held .cell1).plain
  · exact (held .cell2).plain
  · exact (held .voltage).plain
  · exact (held .current).plain

theorem rows_plain {s : Session} {x : Happening} (held : s.stand.board.value.Held)
    (counted : x.isCounted = true) :
    ∀ row ∈ x.rows s, row.map Prod.fst = Recorder.columns ∧ ∀ entry ∈ row, entry.2.Plain := by
  have hand : ∀ row ∈ [s.pointRow s.clock s.stand.board.value .nothing .nothing],
      row.map Prod.fst = Recorder.columns ∧ ∀ entry ∈ row, entry.2.Plain := by
    intro row member
    rw [List.mem_singleton.mp member]
    exact ⟨rfl, pointRow_plain held rfl rfl⟩
  have script {points : List Script.Point} (measured : ∀ p ∈ points, p.values.Held) :
      ∀ row ∈ points.map s.scriptRow,
        row.map Prod.fst = Recorder.columns ∧ ∀ entry ∈ row, entry.2.Plain := by
    intro row member
    obtain ⟨p, inside, rfl⟩ := List.mem_map.mp member
    exact ⟨rfl, pointRow_plain (measured p inside) rfl rfl⟩
  unfold Happening.rows
  split
  · exact hand
  · split
    · exact hand
    · simp
  · rename_i timer throttle
    intro row member
    rw [List.mem_singleton.mp member]
    simp only [Happening.isCounted, Bool.and_eq_true] at counted
    exact ⟨rfl, pointRow_plain held counted.1 counted.2⟩
  · rename_i feed pressAtWait
    refine script ?_
    unfold scriptPoints
    split
    · simp
    · split
      · simp
      · exact ((Script.Run.Measured.begin held s.clock).performAll _ _).points
  · simp
  · rename_i plan run c
    refine script ?_
    have fresh : Script.Run.Measured { run with stand := s.stand, clock := s.clock, events := [] } :=
      ⟨held, by simp [Script.pointsOf]⟩
    exact (fresh.perform plan c.verb c.data).points

theorem happen_board {s : Session} (held : s.stand.board.value.Held) (x : Happening) :
    (s.happen x).stand.board.value.Held := by
  cases x with
  | action a => exact act_board Board.held_kept s a held
  | command plan run c =>
      exact Script.Run.perform_board Board.held_kept plan
        { run with stand := s.stand, clock := s.clock, events := [] } c.verb c.data held

theorem after_board (ports : List String) (clock : Clock) (history : List Happening) :
    ((start ports clock).after history).stand.board.value.Held := by
  induction history using List.reverseRecOn with
  | nil =>
      intro c
      cases c <;> exact .whole 0
  | append_singleton history x ih =>
      rw [after_snoc]
      exact happen_board ih x

theorem after_holds (ports : List String) (clock : Clock) (history : List Happening)
    (counted : ∀ x ∈ history, x.isCounted = true)
    (small : ∀ row ∈ (start ports clock).recorded history, ∀ entry ∈ row,
      entry.2.isSmall = true) :
    ((start ports clock).after history).recorder.Holds ((start ports clock).recorded history) ∧
      ∀ row ∈ (start ports clock).recorded history, Recorder.FairRow row := by
  induction history using List.reverseRecOn with
  | nil => exact ⟨.empty, by simp [recorded, rowsAfter]⟩
  | append_singleton history x ih =>
      have split : (start ports clock).recorded (history ++ [x]) =
          if x.clears then [] else (start ports clock).recorded history ++
            x.rows ((start ports clock).after history) :=
        rowsAfter_snoc history x _ []
      rw [after_snoc]
      by_cases drops : x.clears = true
      · -- nothing is left, so it does not matter what was held before
        rw [split, if_pos drops]
        exact ⟨happen_of_clears drops ▸ .clear _, by simp⟩
      · rw [split, if_neg drops] at small ⊢
        obtain ⟨held, fair⟩ := ih (fun y member => counted y (by simp [member]))
          fun row member => small row (List.mem_append_left _ member)
        have plain := rows_plain (after_board ports clock history) (counted x (by simp))
        have given : ∀ row ∈ x.rows ((start ports clock).after history),
            Recorder.FairRow row := by
          intro row member
          refine ⟨(plain row member).1, fun entry inside => ?_⟩
          exact ((plain row member).2 entry inside).fair
            (small row (List.mem_append_right _ member) entry inside)
        refine ⟨happen_holds (Bool.eq_false_iff.mpr drops) held given, fun row member => ?_⟩
        rcases List.mem_append.mp member with old | new
        · exact fair row old
        · exact given row new

end Session

/-- After any history the table and the sheet have one row for each point since the points were
dropped last, in order, with the values of the point; and the file that is exported then is read as
the names of the columns and the same rows, with an empty field for each missing value. -/
theorem records_in_step (ports : List String) (clock : Clock) (history : List Happening)
    (counted : ∀ x ∈ history, x.isCounted = true)
    (small : ∀ row ∈ (Session.start ports clock).recorded history, ∀ entry ∈ row,
      entry.2.isSmall = true) :
    let r := ((Session.start ports clock).after history).recorder
    let points := (Session.start ports clock).recorded history
    r.sheet.names = Recorder.columns ∧ r.table.columns.map Prod.fst = Recorder.columns ∧
      (∀ point ∈ points, point.map Prod.fst = Recorder.columns) ∧
      r.sheet.height = points.length ∧ r.table.height = points.length ∧
      List.Forall₂ (fun cells point => Sheet.Alike cells (point.map Prod.snd))
        r.sheet.rows points ∧
      List.Forall₂ (fun cells point => Sheet.Alike cells (point.map Prod.snd))
        r.table.rows points ∧
      List.Forall₂ Sheet.Alike r.table.rows r.sheet.rows ∧
      ∃ lines, Sheet.Csv.read r.sheet.csv.toList =
          some (Recorder.columns.map String.toList :: lines) ∧
        List.Forall₂ (fun fields point => Sheet.ReadAs fields (point.map Prod.snd))
          lines points := by
  intro r points
  obtain ⟨held, fair⟩ := Session.after_holds ports clock history counted small
  have apart : Recorder.columns.Nodup := by decide
  have given : ∀ point ∈ points, point.map Prod.fst = Recorder.columns := fun point member =>
    (fair point member).names
  have sheet := held.sheet.rows apart held.named.sheet given
  have table := held.table.rows apart held.named.table given
  have shown : List.Forall₂ Sheet.Alike r.table.rows r.sheet.rows :=
    Sheet.forall₂_of_common (fun _ _ _ here there => here.alike_of_common there) table sheet
  have file := Sheet.Datasheet.read_csv (List.ne_nil_of_mem held.named.listed)
  rw [held.named.sheet] at file
  refine ⟨held.named.sheet, held.named.table, given, held.sheet.height, held.table.height,
    sheet.imp fun _ _ => Sheet.StandFor.alike, table.imp fun _ _ => Sheet.StandFor.alike, shown, _,
    file, ?_⟩
  rw [List.forall₂_map_left_iff]
  exact sheet.imp fun _ _ => Sheet.StandFor.readAs

def clearedBetween : List Happening :=
  [.action (.hear "vtg(11.534)"), .command {} (.begin {} {}) ⟨.addPoint, []⟩, .action .clearPoints,
    .action .savePoint, .action .pressStopwatch, .action (.advance 1500000),
    .action (.hear "lc1(-250)"), .command {} (.begin {} {}) ⟨.addPoint, []⟩, .action .savePoint]

theorem records_in_step_clearedBetween :
    (∀ x ∈ clearedBetween, x.isCounted = true) ∧
      ((Session.start [] {}).recorded clearedBetween).length = 3 ∧
      ((Session.start [] {}).after clearedBetween).recorder.table.height = 3 ∧
      ((Session.start [] {}).after clearedBetween).recorder.sheet.csv =
        "Time,Throttle,Thrust,Torque,Voltage,Current\n" ++ ",0,0,0,11.53,0\n" ++
          "1500,0,-250,0,11.53,0\n" ++ "1500,0,-250,0,11.53,0\n" ∧
      List.Forall₂ Sheet.Alike
        ((Session.start [] {}).after clearedBetween).recorder.table.rows
        ((Session.start [] {}).after clearedBetween).recorder.sheet.rows := by
  have counted : ∀ x ∈ clearedBetween, x.isCounted = true := by
    simp [clearedBetween, Happening.isCounted]
  have count : ((Session.start [] {}).recorded clearedBetween).length = 3 := by decide +kernel
  have file : ((Session.start [] {}).after clearedBetween).recorder.sheet.csv =
      "Time,Throttle,Thrust,Torque,Voltage,Current\n" ++ ",0,0,0,11.53,0\n" ++
        "1500,0,-250,0,11.53,0\n" ++ "1500,0,-250,0,11.53,0\n" := by decide +kernel
  have small : ∀ row ∈ (Session.start [] {}).recorded clearedBetween, ∀ entry ∈ row,
      entry.2.isSmall = true := by
    have checked : ((Session.start [] {}).recorded clearedBetween).all
        (fun row => row.all fun entry => entry.2.isSmall) = true := by decide +kernel
    simpa only [List.all_eq_true] using checked
  obtain ⟨_, _, _, _, table, _, _, alike, _⟩ :=
    records_in_step [] {} clearedBetween counted small
  exact ⟨counted, count, table.trans count, file, alike⟩

end ThrustBench
