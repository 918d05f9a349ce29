import ThrustBench.Proofs.Running
import ThrustBench.Session.Action

/-!
Which parts of a session an action leaves alone.  The serial side touches the stand, the console, the
display and its own thread; showing a script's events touches the texts that were sent, the display
and the recorded points.  What lines and zeroing keep true of the board is kept by every action.
-/

namespace ThrustBench

/-- What holds of a board goes on to hold when a line is taken in or a channel is zeroed. -/
structure Board.Kept (P : Board → Prop) : Prop where
  line : ∀ b text, P b → P (b.decode text).1
  zero : ∀ b c, P b → P (b.zero c)

theorem Board.Kept.zeroAll {P : Board → Prop} (kept : Board.Kept P) {b : Board} (before : P b) :
    P b.zeroAll := by
  have folded (channels : List Channel) : ∀ b, P b → P (channels.foldl Board.zero b) := by
    induction channels with
    | nil => intro b before; exact before
    | cons c channels ih => intro b before; exact ih _ (kept.zero b c before)
  exact folded Channel.all b before

def Stand.isOpen? (stand : Stand) : Option Bool := stand.port.map Port.isOpen

namespace Script.Run

variable {P : Board → Prop}

theorem performAll_keeps {plan : Plan} {Q : Run → Prop}
    (step : ∀ r verb args, Q r → Q (r.perform plan verb args).1) (script : List Command) :
    ∀ {r : Run}, Q r → Q (performAll plan r script).1 := by
  induction script with
  | nil => intro r before; exact before
  | cons c cs ih =>
      intro r before
      have first := step r c.verb c.data before
      generalize done : r.perform plan c.verb c.data = result at first
      obtain ⟨r', outcome⟩ := result
      cases outcome with
      | error fault =>
          rw [performAll_cons_error done]
          exact first
      | ok value =>
          rw [performAll_cons_ok done]
          exact ih first

theorem hearAll_board (kept : Board.Kept P) (lines : List String) : ∀ {r : Run},
    P r.stand.board → P (r.hearAll lines).1.stand.board := by
  induction lines with
  | nil => intro r before; exact before
  | cons line lines ih =>
      intro r before
      have first := kept.line r.stand.board line before
      cases outcome : (r.stand.board.decode line).2 with
      | error fault =>
          simp only [hearAll, hear, outcome]
          exact first
      | ok announcement =>
          simp only [hearAll, hear, outcome]
          exact ih first

theorem wait_board (kept : Board.Kept P) (plan : Plan) {r : Run} (args : List Datum)
    (before : P r.stand.board) : P (r.wait plan args).1.stand.board := by
  have heard := hearAll_board kept (plan.feed[r.waits]?.getD [])
    (r := r.note (.waited r.clock.now)) before
  have begun : P (r.beginWait plan).1.stand.board := by
    unfold beginWait
    generalize (r.note (.waited r.clock.now)).hearAll (plan.feed[r.waits]?.getD []) = result
      at heard
    obtain ⟨r', outcome⟩ := result
    cases outcome <;> exact heard
  unfold wait
  split
  · exact before
  · split
    · exact before
    · unfold waitSeconds
      generalize r.beginWait plan = result at begun
      obtain ⟨r', outcome⟩ := result
      cases outcome with
      | error fault => exact begun
      | ok _ =>
          simp only
          split <;> exact begun

theorem perform_board (kept : Board.Kept P) (plan : Plan) (r : Run) (verb : Verb)
    (args : List Datum) (before : P r.stand.board) :
    P (r.perform plan verb args).1.stand.board := by
  unfold perform
  split
  · exact before
  · by_cases waits : verb = .wait
    · subst waits
      exact wait_board kept plan args before
    · generalize done : r.act plan verb args = result
      obtain ⟨r', outcome⟩ := result
      cases Deed.of_act done with
      | interrupted | waits => exact absurd rfl waits
      | _ => exact before

theorem performAll_board (kept : Board.Kept P) (plan : Plan) (script : List Command) {r : Run}
    (before : P r.stand.board) : P (performAll plan r script).1.stand.board :=
  performAll_keeps (Q := fun r => P r.stand.board) (perform_board kept plan) script before

theorem performAll_isOpen? (plan : Plan) (script : List Command) (r : Run) :
    (performAll plan r script).1.stand.isOpen? = r.stand.isOpen? := by
  refine performAll_preserves (P := fun r' => r'.stand.isOpen? = r.stand.isOpen?) ?_ script rfl
  intro r₁ r₂ verb args result deed before
  cases deed with
  | sends _ _ connected => rw [← before, Stand.isOpen?, Stand.isOpen?, connected]; rfl
  | _ => exact before

end Script.Run

namespace Script.Job

variable (j : Job) (script : Except Fault (List Command)) (plan : Plan) (stand : Stand)
  (clock : Clock)

theorem body_stand :
    (j.body script plan stand clock).stand = stand ∨ ∃ commands,
      (j.body script plan stand clock).stand =
        (Run.performAll plan (Run.begin stand clock) commands).1.stand := by
  cases script with
  | error fault => exact .inl rfl
  | ok commands => exact .inr ⟨commands, by rw [body_ok, conclude_stand]⟩

theorem body_board {P : Board → Prop} (kept : Board.Kept P) (before : P stand.board) :
    P (j.body script plan stand clock).stand.board := by
  rcases j.body_stand script plan stand clock with same | ⟨commands, same⟩
  · rw [same]; exact before
  · rw [same]; exact Run.performAll_board kept plan commands before

theorem body_isOpen? : (j.body script plan stand clock).stand.isOpen? = stand.isOpen? := by
  rcases j.body_stand script plan stand clock with same | ⟨commands, same⟩
  · rw [same]
  · rw [same, Run.performAll_isOpen?]; rfl

end Script.Job

namespace Session

def SerialOnly (s s' : Session) : Prop :=
  s' = { s with
    stand := s'.stand
    console := s'.console
    display := s'.display
    link := s'.link
    connected := s'.connected }

namespace SerialOnly

variable {s s' s'' : Session}

theorem trans (first : SerialOnly s s') (second : SerialOnly s' s'') : SerialOnly s s'' := by
  rw [SerialOnly, first] at second
  exact second

theorem panel (only : SerialOnly s s') : s'.panel = s.panel := by rw [only]

theorem recorder (only : SerialOnly s s') : s'.recorder = s.recorder := by rw [only]

end SerialOnly

theorem announce_only (s : Session) (a : Option Announcement) :
    SerialOnly s (s.announce a).1 := by
  cases a <;> rfl

theorem stopReading_of_none {s : Session} (link : Link) (unconnected : s.stand.port = none) :
    s.stopReading link =
      ({ s with link := some { link with running := false } },
        some (.lacks .nothing "is_open")) := by
  simp [stopReading, Stand.disconnect, unconnected]

theorem stopReading_of_some {s : Session} {p : Port} (link : Link)
    (connected : s.stand.port = some p) :
    s.stopReading link =
      ({ s with
          link := some { link with running := false }
          stand := { s.stand with port := some { p with isOpen := false } } }.tell
        (if p.isOpen then "(i) Disconnected from serial port " ++ link.port
          else "(i) Failed to disconnect serial port"), none) := by
  simp [stopReading, Stand.disconnect, connected, Port.close]

theorem stopReading_only (s : Session) (link : Link) : SerialOnly s (s.stopReading link).1 := by
  cases stopped : s.stand.disconnect <;> simp only [stopReading, stopped] <;> rfl

theorem readLines_only (link : Link) (bound : Nat) : ∀ s : Session,
    SerialOnly s (readLines link bound s).session := by
  induction bound with
  | zero => intro s; rfl
  | succ bound ih =>
      intro s
      unfold readLines
      split
      · exact s.stopReading_only link
      · exact s.stopReading_only link
      · rfl
      · rename_i stand read _
        split
        · rfl
        · rename_i announcement _
          have taken : SerialOnly s (({ s with stand }.announce announcement).1.tell read.line) :=
            (announce_only { s with stand } announcement).trans rfl
          exact taken.trans (ih _)

theorem serve_only (s : Session) (works : Bool) (bytes : List UInt8) :
    SerialOnly s (s.serve works bytes).session := by
  unfold serve
  split
  · rfl
  · rename_i link _
    generalize s.stand.connect works = opened
    have opening (stand : Stand) (text : String) : SerialOnly s ({ s with stand }.tell text) := rfl
    have closing (s : Session) : SerialOnly s { s with link := none, connected := false } := rfl
    by_cases running : link.running = true
    · simp only [running, if_true]
      exact ((opening _ _).trans (readLines_only link _ _)).trans (closing _)
    · simp only [running]
      exact (opening _ _).trans (closing _)

theorem closeMonitor_only (s : Session) : SerialOnly s s.closeMonitor.session := by
  unfold closeMonitor
  split
  · rfl
  · exact s.stopReading_only _

theorem hear_only (s : Session) (line : String) : SerialOnly s (s.hear line).session := by
  cases outcome : (s.stand.board.decode line).2 with
  | error fault =>
      simp only [hear, outcome]
      rfl
  | ok announcement =>
      simp only [hear, outcome]
      exact (announce_only _ announcement : SerialOnly { s with stand := _ } _)

theorem connect_only (s : Session) : SerialOnly s s.connect := by
  unfold connect
  split <;> rfl

def ShowsOnly (s s' : Session) : Prop :=
  s' = { s with sent := s'.sent, display := s'.display, recorder := s'.recorder }

theorem ShowsOnly.trans {s s' s'' : Session} (first : ShowsOnly s s') (second : ShowsOnly s' s'') :
    ShowsOnly s s'' := by
  rw [ShowsOnly, first] at second
  exact second

theorem replay_only (s : Session) (e : Script.Event) : ShowsOnly s (s.replay e).1 := by
  cases e with
  | heard announcement => cases announcement <;> rfl
  | _ => rfl

theorem replayAll_only (events : List Script.Event) : ∀ s : Session,
    ShowsOnly s (s.replayAll events).1 := by
  induction events with
  | nil => intro s; rfl
  | cons e events ih =>
      intro s
      exact (s.replay_only e).trans (ih (s.replay e).1)

theorem announce_stand (s : Session) (a : Option Announcement) : (s.announce a).1.stand = s.stand := by
  cases a <;> rfl

theorem stopReading_board (s : Session) (link : Link) :
    (s.stopReading link).1.stand.board = s.stand.board := by
  cases connected : s.stand.port with
  | none => rw [stopReading_of_none link connected]
  | some p => rw [stopReading_of_some link connected]; rfl

section

variable {P : Board → Prop} (kept : Board.Kept P)
include kept

theorem readLine_board {stand stand' : Stand} {read : Option Stand.LineRead}
    (before : P stand.board) (done : stand.readLine = .ok (stand', read)) : P stand'.board := by
  unfold Stand.readLine at done
  split at done
  · cases done
  · split at done
    · cases done
    · split at done
      · cases done
        exact before
      · cases done
        exact kept.line _ _ before

theorem readLines_board (link : Link) (bound : Nat) : ∀ {s : Session}, P s.stand.board →
    P (readLines link bound s).session.stand.board := by
  induction bound with
  | zero => intro s before; exact before
  | succ bound ih =>
      intro s before
      unfold readLines
      split
      · exact (s.stopReading_board link).symm ▸ before
      · exact (s.stopReading_board link).symm ▸ before
      · exact before
      · rename_i stand read done
        have taken := readLine_board kept before done
        split
        · exact taken
        · rename_i announcement _
          refine ih (s := ({ s with stand }.announce announcement).1.tell read.line) ?_
          exact (announce_stand { s with stand } announcement).symm ▸ taken

theorem act_board (s : Session) (a : Action) (before : P s.stand.board) :
    P (s.act a).session.stand.board := by
  cases a with
  | connect =>
      simp only [act, connect]
      split <;> exact before
  | serve works bytes =>
      simp only [act, serve]
      split
      · exact before
      · rename_i link _
        have opened : P (s.stand.connect works).1.board := by cases works <;> exact before
        generalize s.stand.connect works = connection at opened
        obtain ⟨stand, worked⟩ := connection
        have delivered : P (if worked then stand.deliver bytes else stand).board := by
          cases worked <;> exact opened
        by_cases running : link.running = true
        · simp only [running, if_true]
          exact readLines_board kept link _ delivered
        · simp only [running]
          exact delivered
  | closeMonitor =>
      simp only [act, closeMonitor]
      split
      · exact before
      · exact (s.stopReading_board _).symm ▸ before
  | hear line =>
      have taken := kept.line s.stand.board line before
      cases outcome : (s.stand.board.decode line).2 with
      | error fault =>
          simp only [act, hear, outcome]
          exact taken
      | ok announcement =>
          simp only [act, hear, outcome, announce_stand]
          exact taken
  | submit =>
      simp only [act, submit, Stand.send]
      cases s.stand.port <;> exact before
  | slide position =>
      simp only [act, slide]
      split
      · exact before
      · rw [Stand.setThrottle_inside s.stand (by omega), Stand.send]
        cases s.stand.port <;> exact before
  | zero c => exact kept.zero s.stand.board c before
  | zeroAll => exact kept.zeroAll before
  | tickStopwatch =>
      simp only [act, tickStopwatch]
      split <;> exact before
  | tickRecording =>
      simp only [act]
      split <;> exact before
  | runScript feed pressAtWait =>
      simp only [act, runScript]
      split
      · exact before
      · exact Script.Job.body_board _ _ _ _ _ kept before
  | _ => exact before

end

structure Calm (s s' : Session) : Prop where
  link : s'.link = s.link
  connected : s'.connected = s.connected
  isOpen : s'.stand.isOpen? = s.stand.isOpen?

def reachesLink : Action → Bool
  | .connect | .attach | .serve _ _ | .closeMonitor => true
  | _ => false

theorem send_isOpen? {stand stand' : Stand} {command : Outgoing}
    (done : stand.send command = .ok stand') : stand'.isOpen? = stand.isOpen? := by
  unfold Stand.send at done
  cases connected : stand.port with
  | none => simp [connected] at done
  | some p =>
      simp only [connected, Except.ok.injEq] at done
      subst done
      have same : (p.write command).1.isOpen = p.isOpen := by
        cases command with
        | text s => rw [Port.write_text]
        | _ => rfl
      simp [Stand.isOpen?, connected, same]

theorem act_calm (s : Session) {a : Action} (elsewhere : reachesLink a = false) :
    Calm s (s.act a).session := by
  cases a with
  | connect => cases elsewhere
  | attach => cases elsewhere
  | serve works bytes => cases elsewhere
  | closeMonitor => cases elsewhere
  | hear line =>
      cases outcome : (s.stand.board.decode line).2 with
      | error fault =>
          simp only [act, hear, outcome]
          exact ⟨rfl, rfl, rfl⟩
      | ok announcement =>
          simp only [act, hear, outcome]
          cases announcement <;> exact ⟨rfl, rfl, rfl⟩
  | submit =>
      simp only [act, submit]
      split
      · exact ⟨rfl, rfl, rfl⟩
      · rename_i done
        exact ⟨rfl, rfl, send_isOpen? done⟩
  | slide position =>
      simp only [act, slide]
      split
      · exact ⟨rfl, rfl, rfl⟩
      · rw [Stand.setThrottle_inside s.stand (by omega)]
        split
        · exact ⟨rfl, rfl, rfl⟩
        · rename_i done
          exact ⟨rfl, rfl, send_isOpen? done⟩
  | tickStopwatch =>
      simp only [act, tickStopwatch]
      split <;> exact ⟨rfl, rfl, rfl⟩
  | tickRecording =>
      simp only [act]
      split <;> exact ⟨rfl, rfl, rfl⟩
  | runScript feed pressAtWait =>
      simp only [act, runScript]
      split
      · exact ⟨rfl, rfl, rfl⟩
      · generalize done : Script.Job.body _ _ _ _ _ = out
        have shown := replayAll_only ((out.run.map Script.Run.events).getD []) s
        refine ⟨?_, ?_, ?_⟩
        · rw [shown]
        · rw [shown]
        · exact done ▸ Script.Job.body_isOpen? _ _ _ _ _
  | _ => exact ⟨rfl, rfl, rfl⟩

end Session

end ThrustBench
