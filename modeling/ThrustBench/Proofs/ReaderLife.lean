import ThrustBench.Proofs.ChannelHistory
import ThrustBench.Proofs.Latest
import ThrustBench.Proofs.SessionFrames

/-!
The life of the thread that reads from the port, with anything happening between two of its turns.
Its body can be left by a failure, and can leave the port open: both exactly in ways that the
history tells.
-/

namespace ThrustBench

/-- A line fails: it has too many digits, or a number for a channel that has no offset. -/
def Board.FailsOn (b : Board) (line : String) (fault : Fault) : Prop :=
  ∃ c : Channel, c.tag <+: line.toList ∧
    (Board.reading c line = .error fault ∨
      ∃ n, Board.reading c line = .ok (some n) ∧ b.offset.get c = .nothing ∧
        fault = .operands "-" n.kind .nothing)

structure Board.Fitting (b : Board) : Prop where
  raw : ∀ c n, b.raw.get c = some n → c.Has n
  offset : ∀ c, b.offset.get c = .nothing ∨ ∃ m, c.Has m ∧ b.offset.get c = .ofNumber m

namespace Board

theorem Fitting.step {b : Board} (fits : b.Fitting) (op : Operation) : (b.step op).Fitting where
  raw := by
    intro c n found
    rw [step_raw] at found
    cases read : op.reading? c with
    | none =>
        rw [read, Option.getD_none] at found
        exact fits.raw c n found
    | some reading =>
        rw [read, Option.getD_some] at found
        exact Operation.has_of_reading? (read.trans (congrArg some found))
  offset := by
    intro c
    rw [step_offset]
    split
    · cases raw : b.raw.get c with
      | none => exact .inl rfl
      | some n => exact .inr ⟨n, fits.raw c n raw, rfl⟩
    · exact fits.offset c

theorem fitting_kept : Kept Fitting where
  line := fun _ text fits => fits.step (.line text)
  zero := fun _ c fits => fits.step (.zero c)

theorem fitting_start : Fitting {} where
  raw := by
    intro c n found
    have zero : n = .whole 0 := by
      rw [Channels.get_const] at found
      exact (Option.some.inj found).symm
    exact zero ▸ c.has_zero
  offset := fun c => .inr ⟨.whole 0, c.has_zero, Channels.get_const _ c⟩

theorem Fitting.decode_eq_error_iff {b : Board} (fits : b.Fitting) {line : String} {fault : Fault} :
    (b.decode line).2 = .error fault ↔ b.FailsOn line fault := by
  cases found : Channel.ofLine? line.toList with
  | none =>
      have untagged (c : Channel) : ¬c.tag <+: line.toList := by
        intro carried
        rw [Channel.ofLine?_eq_some_iff.mpr carried] at found
        cases found
      simp [decode, found, FailsOn, untagged]
  | some c =>
      have carried := Channel.ofLine?_eq_some_iff.mp found
      have here : b.FailsOn line fault ↔
          (reading c line = .error fault ∨ ∃ n, reading c line = .ok (some n) ∧
            b.offset.get c = .nothing ∧ fault = .operands "-" n.kind .nothing) := by
        constructor
        · rintro ⟨d, tagged, fails⟩
          rw [Channel.eq_of_tags carried tagged]
          exact fails
        · exact fun fails => ⟨c, carried, fails⟩
      rw [here]
      cases read : reading c line with
      | error cause => simp [decode, found, read]
      | ok value =>
          cases value with
          | none => simp [decode, found, read]
          | some n =>
              rcases fits.offset c with nothing | ⟨m, has, number⟩
              · simp [decode, found, read, nothing, announced_of_nothing, eq_comm]
              · have sound := announced_of_number (Channel.has_of_reading read) has
                have filled : Datum.ofNumber m ≠ .nothing := by cases m <;> simp [Datum.ofNumber]
                simp [decode, found, read, number, sound, filled]

end Board

def Port.firstLine (p : Port) : String := Text.decodeLossy (cutLine p.pending).1

def Stand.asked (stand : Stand) (lost : Bool) : Except Fault (Stand × Option Stand.LineRead) :=
  if lost && stand.port.isSome then .error .deviceGone else stand.readLine

/-- Where the body of the thread stands: it tests whether it has been stopped, or it asks the port
for a line. -/
inductive Phase where
  | testing
  | asking
  deriving DecidableEq

structure Life where
  session : Session
  phase : Option Phase := none
  /-- How the bodies so far were left: as they should be, or by a failure. -/
  endings : List (Option Fault) := []

def Action.isApart : Action → Bool
  | .attach | .serve _ _ => false
  | _ => true

inductive Moment where
  | beside (a : Action) (apart : a.isApart = true)
  | opening (works : Bool)
  | arrive (bytes : List UInt8)
  | turn (lost : Bool)

namespace Life

def leave (l : Life) (s : Session) (fault : Option Fault) : Life :=
  { session := { s with link := none, connected := false }
    phase := none
    endings := l.endings ++ [fault] }

def opening (l : Life) (works : Bool) : Life :=
  match l.phase, l.session.link with
  | none, some link =>
    let (stand, opened) := l.session.stand.connect works
    let text :=
      if opened then "(i) Connected to serial port " else "(i) Error opening serial port "
    { l with
      session := { l.session with stand }.tell (text ++ link.port)
      phase := some .testing }
  | _, _ => l

/-- The body asks for a line.  That the device is lost is the one failure it answers, by stopping
itself. -/
def ask (l : Life) (link : Link) (lost : Bool) : Life :=
  match l.session.stand.asked lost with
  | .error .deviceGone =>
    match l.session.stopReading link with
    | (s, none) => { l with session := s, phase := some .testing }
    | (s, some fault) => l.leave s (some fault)
  | .error fault => l.leave l.session (some fault)
  | .ok (stand, none) => { l with session := { l.session with stand }, phase := some .testing }
  | .ok (stand, some read) =>
    match read.outcome with
    | .error fault => l.leave { l.session with stand } (some fault)
    | .ok announcement =>
      { l with
        session := ({ l.session with stand }.announce announcement).1.tell read.line
        phase := some .testing }

def turn (l : Life) (lost : Bool) : Life :=
  match l.phase, l.session.link with
  | some .testing, some link =>
    if link.running then { l with phase := some .asking } else l.leave l.session none
  | some .asking, some link => l.ask link lost
  | _, _ => l

def step (l : Life) : Moment → Life
  | .beside a _ => { l with session := (l.session.act a).session }
  | .opening works => l.opening works
  | .arrive bytes => { l with session.stand := l.session.stand.deliver bytes }
  | .turn lost => l.turn lost

def after (l : Life) (history : List Moment) : Life := history.foldl step l

theorem after_snoc (l : Life) (history : List Moment) (m : Moment) :
    l.after (history ++ [m]) = (l.after history).step m := by
  simp [after]

theorem after_append (l : Life) (first second : List Moment) :
    l.after (first ++ second) = (l.after first).after second := by
  simp [after]

def stops (l : Life) : Moment → Bool
  | .beside .closeMonitor _ => l.session.link.isSome
  | .turn lost =>
    l.phase = some .asking && l.session.link.isSome &&
      (l.session.stand.isOpen?.map fun isOpen => lost || !isOpen).getD false
  | _ => false

def makes (l : Life) : Moment → Bool
  | .beside .connect _ => l.session.link.isNone
  | _ => false

def opens (l : Life) : Moment → Bool
  | .opening works => works && l.phase.isNone && l.session.link.isSome
  | _ => false

/-- The next turn leaves the body: as it should be when the thread has been stopped, and by a
failure when no port was ever opened or the line that waits first fails. -/
def Leaves (l : Life) (lost : Bool) : Option Fault → Prop
  | none => l.phase = some .testing ∧ ∃ link, l.session.link = some link ∧ link.running = false
  | some fault =>
    l.phase = some .asking ∧
      (l.session.stand.port = none ∧ fault = .lacks .nothing "in_waiting" ∨
        ∃ p, l.session.stand.port = some p ∧ p.isOpen = true ∧ lost = false ∧ p.pending ≠ [] ∧
          l.session.stand.board.FailsOn p.firstLine fault)

/-- A body is carried out only while there is a thread, and the info bar tells whether there is
one. -/
structure Sound (l : Life) : Prop where
  phase : l.phase ≠ none → l.session.link ≠ none
  told : l.session.connected = l.session.link.isSome
  board : l.session.stand.board.Fitting

section

variable {l : Life} {link : Link} {lost : Bool}

theorem ask_of_none (unconnected : l.session.stand.port = none) :
    l.ask link lost = l.leave l.session (some (.lacks .nothing "in_waiting")) := by
  have asked : l.session.stand.asked lost = .error (.lacks .nothing "in_waiting") := by
    simp [Stand.asked, Stand.readLine, unconnected]
  simp only [ask, asked]

theorem ask_of_gone {p : Port} (connected : l.session.stand.port = some p)
    (gone : lost = true ∨ p.isOpen = false) :
    l.ask link lost =
      { l with session := (l.session.stopReading link).1, phase := some .testing } := by
  have asked : l.session.stand.asked lost = .error .deviceGone := by
    cases lost with
    | true => simp [Stand.asked, connected]
    | false =>
        have closed : p.isOpen = false := by simpa using gone
        simp [Stand.asked, Stand.readLine, connected, closed]
  have stopped : (l.session.stopReading link).2 = none := by
    rw [Session.stopReading_of_some link connected]
  generalize done : l.session.stopReading link = result at stopped
  obtain ⟨s, fault⟩ := result
  subst stopped
  simp only [ask, asked, done]

theorem ask_of_silent {p : Port} (connected : l.session.stand.port = some p)
    (isOpen : p.isOpen = true) (silent : p.pending = []) :
    l.ask link false = { l with phase := some .testing } := by
  have asked : l.session.stand.asked false = .ok (l.session.stand, none) := by
    simp [Stand.asked, Stand.readLine, connected, isOpen, silent]
  simp only [ask, asked]

def taken (l : Life) (p : Port) : Stand :=
  ⟨(l.session.stand.board.decode p.firstLine).1,
    some { p with pending := (Port.cutLine p.pending).2 }⟩

theorem asked_of_waiting {p : Port} (connected : l.session.stand.port = some p)
    (isOpen : p.isOpen = true) (waiting : p.pending ≠ []) :
    l.session.stand.asked false =
      .ok (l.taken p, some ⟨p.firstLine, (l.session.stand.board.decode p.firstLine).2⟩) := by
  simp [Stand.asked, Stand.readLine, connected, isOpen, waiting, taken, Port.firstLine]

theorem ask_of_failed {p : Port} {fault : Fault} (connected : l.session.stand.port = some p)
    (isOpen : p.isOpen = true) (waiting : p.pending ≠ [])
    (failed : (l.session.stand.board.decode p.firstLine).2 = .error fault) :
    l.ask link false = l.leave { l.session with stand := l.taken p } (some fault) := by
  simp only [ask, asked_of_waiting connected isOpen waiting, failed]

theorem ask_of_taken {p : Port} {announcement : Option Announcement}
    (connected : l.session.stand.port = some p) (isOpen : p.isOpen = true)
    (waiting : p.pending ≠ [])
    (taken : (l.session.stand.board.decode p.firstLine).2 = .ok announcement) :
    l.ask link false =
      { l with
        session :=
          ({ l.session with stand := l.taken p }.announce announcement).1.tell p.firstLine
        phase := some .testing } := by
  simp only [ask, asked_of_waiting connected isOpen waiting, taken]

end

inductive Change (l : Life) (m : Moment) (l' : Life) : Prop where
  | rests (unmade : l.makes m = false) (unstopped : l.stops m = false)
      (unopened : l.opens m = false) (calm : Session.Calm l.session l'.session)
      (phase : l'.phase ≠ none → l.phase ≠ none ∨ l.session.link ≠ none)
      (endings : l'.endings = l.endings)
  | made (makes : l.makes m = true) (unlinked : l.session.link = none)
      (same : l' = { l with session := l.session.connect })
  | stopped (link : Link) (linked : l.session.link = some link) (stops : l.stops m = true)
      (unmade : l.makes m = false) (unopened : l.opens m = false)
      (halted : l'.session.link = some { link with running := false })
      (told : l'.session.connected = l.session.connected)
      (closed : l'.session.stand.isOpen? = l.session.stand.isOpen?.map fun _ => false)
      (endings : l'.endings = l.endings)
  | opened (link : Link) (linked : l.session.link = some link) (idle : l.phase = none)
      (opens : m = .opening true) (kept : l'.session.link = some link)
      (told : l'.session.connected = l.session.connected)
      (isOpen : l'.session.stand.isOpen? = some true) (endings : l'.endings = l.endings)
  | left (lost : Bool) (turn : m = .turn lost) (fault : Option Fault)
      (leaves : l.Leaves lost fault) (unstopped : l.stops m = false) (s : Session)
      (isOpen : s.stand.isOpen? = l.session.stand.isOpen?) (same : l' = l.leave s fault)

section

variable {l : Life}

theorem isOpen?_taken {p : Port} (connected : l.session.stand.port = some p) :
    (l.taken p).isOpen? = l.session.stand.isOpen? := by
  simp [Stand.isOpen?, taken, connected]

theorem stopReading_closes (s : Session) (link : Link) :
    (s.stopReading link).1.link = some { link with running := false } ∧
      (s.stopReading link).1.connected = s.connected ∧
      (s.stopReading link).1.stand.isOpen? = s.stand.isOpen?.map fun _ => false := by
  cases connected : s.stand.port with
  | none =>
      rw [Session.stopReading_of_none link connected]
      simp [Stand.isOpen?, connected]
  | some p =>
      rw [Session.stopReading_of_some link connected]
      simp [Stand.isOpen?, connected, Session.tell]

theorem beside_change (a : Action) (apart : a.isApart = true) :
    l.Change (.beside a apart) (l.step (.beside a apart)) := by
  by_cases reaches : Session.reachesLink a = true
  · cases a with
    | connect =>
        cases linked : l.session.link with
        | none => exact .made (by simp [makes, linked]) linked rfl
        | some link =>
            have same : l.session.connect = l.session.tell "(i) Serial already connected" := by
              simp [Session.connect, linked]
            refine .rests (by simp [makes, linked]) rfl rfl ?_ .inl rfl
            change Session.Calm l.session l.session.connect
            rw [same]
            exact ⟨rfl, rfl, rfl⟩
    | closeMonitor =>
        cases linked : l.session.link with
        | none =>
            have same : l.session.closeMonitor.session = l.session := by
              simp [Session.closeMonitor, linked]
            refine .rests rfl (by simp [stops, linked]) rfl ?_ .inl rfl
            change Session.Calm l.session l.session.closeMonitor.session
            rw [same]
            exact ⟨rfl, rfl, rfl⟩
        | some link =>
            have same : l.session.closeMonitor.session = (l.session.stopReading link).1 := by
              simp [Session.closeMonitor, linked]
            obtain ⟨halted, told, closed⟩ := stopReading_closes l.session link
            rw [← same] at halted told closed
            exact .stopped link linked (by simp [stops, linked]) rfl rfl halted told closed rfl
    | attach | serve => cases apart
    | _ => cases reaches
  · have elsewhere : Session.reachesLink a = false := Bool.eq_false_iff.mpr reaches
    refine .rests ?_ ?_ rfl (l.session.act_calm elsewhere) .inl rfl
    · cases a with
      | connect => cases elsewhere
      | _ => rfl
    · cases a with
      | closeMonitor => cases elsewhere
      | _ => rfl

theorem opening_change (works : Bool) : l.Change (.opening works) (l.step (.opening works)) := by
  cases phase : l.phase with
  | some _ =>
      have same : l.step (.opening works) = l := by simp [step, opening, phase]
      rw [same]
      exact .rests rfl rfl (by simp [opens, phase]) ⟨rfl, rfl, rfl⟩ .inl rfl
  | none =>
      cases linked : l.session.link with
      | none =>
          have same : l.step (.opening works) = l := by simp [step, opening, phase, linked]
          rw [same]
          exact .rests rfl rfl (by simp [opens, linked]) ⟨rfl, rfl, rfl⟩ .inl rfl
      | some link =>
          cases works with
          | true =>
              refine .opened link linked phase rfl ?_ ?_ ?_ ?_
              all_goals simp [step, opening, phase, linked, Stand.connect, Session.tell,
                Stand.isOpen?]
          | false =>
              refine .rests rfl rfl rfl ⟨?_, ?_, ?_⟩ (fun _ => .inr (by simp [linked])) ?_
              all_goals simp [step, opening, phase, linked, Stand.connect, Session.tell]

theorem turn_change (fits : l.session.stand.board.Fitting) (lost : Bool) :
    l.Change (.turn lost) (l.step (.turn lost)) := by
  have quiet (same : l.step (.turn lost) = l) (unstopped : l.stops (.turn lost) = false) :
      l.Change (.turn lost) (l.step (.turn lost)) := by
    rw [same]
    exact .rests rfl unstopped rfl ⟨rfl, rfl, rfl⟩ .inl rfl
  cases phase : l.phase with
  | none => exact quiet (by simp [step, turn, phase]) (by simp [stops, phase])
  | some place =>
      cases linked : l.session.link with
      | none =>
          refine quiet ?_ (by simp [stops, linked])
          cases place <;> simp [step, turn, phase, linked]
      | some link =>
          have open? (p : Port) (connected : l.session.stand.port = some p) :
              l.session.stand.isOpen? = some p.isOpen := by
            simp [Stand.isOpen?, connected]
          cases place with
          | testing =>
              have unstopped : l.stops (.turn lost) = false := by simp [stops, phase]
              cases running : link.running with
              | true =>
                  have same : l.step (.turn lost) = { l with phase := some .asking } := by
                    simp [step, turn, phase, linked, running]
                  rw [same]
                  exact .rests rfl unstopped rfl ⟨rfl, rfl, rfl⟩
                    (fun _ => .inr (by simp [linked])) rfl
              | false =>
                  refine .left lost rfl none ⟨phase, link, linked, running⟩ unstopped l.session rfl ?_
                  simp [step, turn, phase, linked, running]
          | asking =>
              have same : l.step (.turn lost) = l.ask link lost := by
                simp [step, turn, phase, linked]
              rw [same]
              cases connected : l.session.stand.port with
              | none =>
                  have unstopped : l.stops (.turn lost) = false := by
                    simp [stops, Stand.isOpen?, connected]
                  rw [ask_of_none connected]
                  exact .left lost rfl (some (.lacks .nothing "in_waiting"))
                    ⟨phase, .inl ⟨connected, rfl⟩⟩ unstopped l.session rfl rfl
              | some p =>
                  by_cases gone : lost = true ∨ p.isOpen = false
                  · have stops : l.stops (.turn lost) = true := by
                      simp [stops, phase, linked, open? p connected, gone]
                    rw [ask_of_gone connected gone]
                    obtain ⟨halted, told, closed⟩ := stopReading_closes l.session link
                    exact .stopped link linked stops rfl rfl halted told closed rfl
                  · rw [not_or, Bool.not_eq_true, Bool.not_eq_false] at gone
                    obtain ⟨present, isOpen⟩ := gone
                    subst present
                    have unstopped : l.stops (.turn false) = false := by
                      simp [stops, open? p connected, isOpen]
                    by_cases silent : p.pending = []
                    · rw [ask_of_silent connected isOpen silent]
                      exact .rests rfl unstopped rfl ⟨rfl, rfl, rfl⟩
                        (fun _ => .inr (by simp [linked])) rfl
                    · have kept := isOpen?_taken connected
                      cases outcome : (l.session.stand.board.decode p.firstLine).2 with
                      | error fault =>
                          have fails := fits.decode_eq_error_iff.mp outcome
                          rw [ask_of_failed connected isOpen silent outcome]
                          exact .left false rfl (some fault)
                            ⟨phase, .inr ⟨p, connected, isOpen, rfl, silent, fails⟩⟩ unstopped
                            { l.session with stand := l.taken p } kept rfl
                      | ok announcement =>
                          rw [ask_of_taken connected isOpen silent outcome]
                          refine .rests rfl unstopped rfl ?_ (fun _ => .inr (by simp [linked])) rfl
                          cases announcement <;> exact ⟨rfl, rfl, kept⟩

theorem step_change (fits : l.session.stand.board.Fitting) (m : Moment) :
    l.Change m (l.step m) := by
  cases m with
  | beside a apart => exact beside_change a apart
  | opening works => exact opening_change works
  | turn lost => exact turn_change fits lost
  | arrive bytes =>
      refine .rests rfl rfl rfl ⟨rfl, rfl, ?_⟩ .inl rfl
      simp only [step, Stand.deliver, Stand.isOpen?, Option.map_map]
      rfl

theorem step_board (fits : l.session.stand.board.Fitting) (m : Moment) :
    (l.step m).session.stand.board.Fitting := by
  cases m with
  | beside a apart => exact l.session.act_board Board.fitting_kept a fits
  | opening works =>
      simp only [step, opening]
      split
      · cases works <;> exact fits
      · exact fits
  | arrive bytes => exact fits
  | turn lost =>
      simp only [step, turn]
      split
      · split <;> exact fits
      · rename_i link _ _
        cases connected : l.session.stand.port with
        | none => rw [ask_of_none connected]; exact fits
        | some p =>
            by_cases gone : lost = true ∨ p.isOpen = false
            · rw [ask_of_gone connected gone]
              exact (l.session.stopReading_board link).symm ▸ fits
            · rw [not_or, Bool.not_eq_true, Bool.not_eq_false] at gone
              obtain ⟨rfl, isOpen⟩ := gone
              have next : (l.taken p).board.Fitting := Board.fitting_kept.line _ p.firstLine fits
              by_cases silent : p.pending = []
              · rw [ask_of_silent connected isOpen silent]; exact fits
              · cases outcome : (l.session.stand.board.decode p.firstLine).2 with
                | error fault => rw [ask_of_failed connected isOpen silent outcome]; exact next
                | ok announcement =>
                    rw [ask_of_taken connected isOpen silent outcome]
                    cases announcement <;> exact next
      · exact fits

theorem Sound.step (sound : l.Sound) (m : Moment) : (l.step m).Sound := by
  have board := step_board sound.board m
  cases step_change sound.board m with
  | rests _ _ _ calm phase _ =>
      refine ⟨fun busy => ?_, by rw [calm.connected, calm.link, sound.told], board⟩
      rw [calm.link]
      exact (phase busy).elim sound.phase id
  | made _ unlinked same =>
      refine ⟨fun _ => ?_, ?_, board⟩ <;> simp [same, Session.connect, unlinked]
  | stopped link linked _ _ _ halted told _ _ =>
      exact ⟨fun _ => by simp [halted], by simp [halted, told, sound.told, linked], board⟩
  | opened link linked _ _ kept told _ _ =>
      exact ⟨fun _ => by simp [kept], by simp [kept, told, sound.told, linked], board⟩
  | left lost _ fault _ _ s _ same => exact ⟨fun busy => by simp [same, leave] at busy,
      by simp [same, leave], board⟩

theorem Sound.after (sound : l.Sound) (history : List Moment) : (l.after history).Sound := by
  induction history using List.reverseRecOn with
  | nil => exact sound
  | append_singleton history m ih => rw [after_snoc]; exact ih.step m

theorem Sound.leaves_iff (sound : l.Sound) (lost : Bool) (fault : Option Fault) :
    (l.step (.turn lost)).endings = l.endings ++ [fault] ↔ l.Leaves lost fault := by
  constructor
  · intro ended
    have unchanged {l' : Life} (same : l'.endings = l.endings)
        (grown : l'.endings = l.endings ++ [fault]) : False := by
      simp [same] at grown
    cases step_change sound.board (.turn lost) with
    | rests _ _ _ _ _ endings => exact (unchanged endings ended).elim
    | made makes => cases makes
    | stopped _ _ _ _ _ _ _ _ endings => exact (unchanged endings ended).elim
    | opened _ _ _ opens => cases opens
    | left other turn cause leaves _ s _ same =>
        cases turn
        have told : cause = fault := by simpa [same, leave] using ended
        exact told ▸ leaves
  · intro leaves
    cases fault with
    | none =>
        obtain ⟨phase, link, linked, halted⟩ := leaves
        simp [Life.step, turn, phase, linked, halted, leave]
    | some fault =>
        obtain ⟨phase, failure⟩ := leaves
        obtain ⟨link, linked⟩ := Option.ne_none_iff_exists'.mp (sound.phase (by simp [phase]))
        have same : l.step (.turn lost) = l.ask link lost := by
          simp [Life.step, turn, phase, linked]
        rw [same]
        rcases failure with ⟨unconnected, rfl⟩ | ⟨p, connected, isOpen, rfl, waiting, fails⟩
        · rw [ask_of_none unconnected, leave]
        · have failed := sound.board.decode_eq_error_iff.mpr fails
          rw [ask_of_failed connected isOpen waiting failed, leave]

end

def start (ports : List String) (clock : Clock) : Life := { session := .start ports clock }

theorem start_sound (ports : List String) (clock : Clock) : (start ports clock).Sound :=
  ⟨fun busy => (busy rfl).elim, rfl, Board.fitting_start⟩

def stopRule (l : Life) (before : List Moment) (m : Moment) : Option Bool :=
  if (l.after before).makes m then some false
  else if (l.after before).stops m then some true
  else none

def portRule (l : Life) (before : List Moment) (m : Moment) : Option Bool :=
  if (l.after before).opens m then some true
  else if (l.after before).stops m && (l.after before).session.stand.port.isSome then some false
  else none

section

variable {l : Life} (sound : l.Sound)
include sound

theorem stopped_by_history (fresh : l.session.link = none) (history : List Moment) {link : Link}
    (linked : (l.after history).session.link = some link) :
    latest? l.stopRule history = some (!link.running) := by
  induction history using List.reverseRecOn generalizing link with
  | nil =>
      rw [show l.after [] = l from rfl, fresh] at linked
      cases linked
  | append_singleton history m ih =>
      rw [after_snoc] at linked
      rw [latest?_snoc]
      cases step_change (sound.after history).board m with
      | rests unmade unstopped _ calm =>
          rw [calm.link] at linked
          rw [stopRule, unmade, unstopped, ih linked]
          rfl
      | made makes unlinked same =>
          have running : link.running = true := by
            rw [same] at linked
            simp only [Session.connect, unlinked, Option.some.injEq] at linked
            rw [← linked]
          rw [stopRule, makes, running]
          rfl
      | stopped _ _ stops unmade _ halted =>
          rw [halted, Option.some.injEq] at linked
          rw [stopRule, unmade, stops, ← linked]
          rfl
      | opened other was _ opens kept =>
          subst opens
          rw [kept] at linked
          rw [ih (was.trans linked)]
          rfl
      | left _ _ _ _ _ _ _ same =>
          rw [same] at linked
          cases linked

theorem open_by_history (unconnected : l.session.stand.port = none) (history : List Moment) :
    (l.after history).session.stand.isOpen? = latest? l.portRule history := by
  induction history using List.reverseRecOn with
  | nil => simp [after, Stand.isOpen?, unconnected]
  | append_singleton history m ih =>
      rw [after_snoc, latest?_snoc]
      cases step_change (sound.after history).board m with
      | rests _ unstopped unopened calm =>
          rw [calm.isOpen, ih, portRule, unopened, unstopped]
          rfl
      | made makes unlinked same =>
          have calm : ((l.after history).step m).session.stand = (l.after history).session.stand := by
            rw [same]
            simp [Session.connect, unlinked]
          rw [calm, ih]
          cases m with
          | beside a apart =>
              cases a with
              | connect => rfl
              | _ => cases makes
          | _ => cases makes
      | stopped _ _ stops _ unopened _ _ closed =>
          rw [closed, portRule, unopened, stops, ← ih, Stand.isOpen?]
          cases (l.after history).session.stand.port <;> rfl
      | opened link linked idle opens _ _ isOpen =>
          subst opens
          have opened : (l.after history).opens (.opening true) = true := by
            simp [opens, idle, linked]
          rw [isOpen, portRule, opened]
          rfl
      | left lost turn _ _ unstopped s isOpen same =>
          rw [same]
          subst turn
          change s.stand.isOpen? = _
          rw [isOpen, ih, portRule, unstopped]
          rfl

end

/-- What should not happen: the body meets a missing port or a line that fails, or it opens the
port when it has been stopped already. -/
def Mishap (l : Life) : Moment → Prop
  | .turn lost => ∃ fault, l.Leaves lost (some fault)
  | .opening works =>
    works = true ∧ l.phase = none ∧ ∃ link, l.session.link = some link ∧ link.running = false
  | _ => False

structure Orderly (l : Life) : Prop where
  endings : ∀ ending ∈ l.endings, ending = none
  attended : l.session.stand.isOpen? = some true →
    ∃ link, l.session.link = some link ∧ link.running = true

theorem Orderly.step {l : Life} (orderly : l.Orderly) (sound : l.Sound) {m : Moment}
    (safe : ¬l.Mishap m) : (l.step m).Orderly := by
  cases step_change sound.board m with
  | rests _ _ _ calm _ endings =>
      refine ⟨by rw [endings]; exact orderly.endings, fun isOpen => ?_⟩
      rw [calm.link]
      exact orderly.attended (calm.isOpen ▸ isOpen)
  | made _ unlinked same =>
      rw [same]
      refine ⟨orderly.endings, fun isOpen => ?_⟩
      have before : l.session.stand.isOpen? = some true := by
        simpa [Session.connect, unlinked] using isOpen
      obtain ⟨link, linked, _⟩ := orderly.attended before
      rw [unlinked] at linked
      cases linked
  | stopped _ _ _ _ _ _ _ closed endings =>
      refine ⟨by rw [endings]; exact orderly.endings, fun isOpen => ?_⟩
      simp [closed] at isOpen
  | opened link linked idle opens kept _ _ endings =>
      refine ⟨by rw [endings]; exact orderly.endings, fun _ => ⟨link, kept, ?_⟩⟩
      by_contra halted
      subst opens
      exact safe ⟨rfl, idle, link, linked, by simpa using halted⟩
  | left lost turn fault leaves _ s isOpen same =>
      subst turn
      have calm : fault = none := by
        by_contra failed
        obtain ⟨cause, rfl⟩ := Option.ne_none_iff_exists'.mp failed
        exact safe ⟨cause, leaves⟩
      subst calm
      obtain ⟨_, link, linked, halted⟩ := leaves
      rw [same]
      refine ⟨fun ending member => ?_, fun stays => ?_⟩
      · rcases List.mem_append.mp member with earlier | last
        · exact orderly.endings ending earlier
        · simpa using last
      · obtain ⟨other, found, running⟩ := orderly.attended (isOpen.symm.trans stays)
        rw [linked, Option.some.injEq] at found
        rw [← found, halted] at running
        cases running

theorem Orderly.after {l : Life} (orderly : l.Orderly) (sound : l.Sound) {history : List Moment}
    (safe : ∀ before m later, history = before ++ m :: later → ¬(l.after before).Mishap m) :
    (l.after history).Orderly := by
  induction history using List.reverseRecOn with
  | nil => exact orderly
  | append_singleton history m ih =>
      rw [after_snoc]
      refine (ih fun before other later split => ?_).step (sound.after history)
        (safe history m [] rfl)
      exact safe before other (later ++ [m]) (by simp [split])

end Life

theorem Port.cutLine_shortens {bytes : List UInt8} (some_ : bytes ≠ []) :
    (cutLine bytes).2.length < bytes.length := by
  induction bytes with
  | nil => exact absurd rfl some_
  | cons b bytes ih =>
      rw [cutLine]
      split
      · simp
      · by_cases more : bytes = []
        · simp [more, cutLine]
        · have shorter := ih more
          simp only [List.length_cons]
          omega

theorem Session.serve_of_link {s : Session} {link : Link} (linked : s.link = some link)
    (works : Bool) (bytes : List UInt8) :
    s.serve works bytes =
      let opened := s.stand.connect works
      let begun :=
        { s with stand := if opened.2 then opened.1.deliver bytes else opened.1 }.tell
          ((if opened.2 then "(i) Connected to serial port "
            else "(i) Error opening serial port ") ++ link.port)
      let effect : Effect :=
        if link.running then readLines link (begun.waiting + 1) begun else { session := begun }
      { effect with session := { effect.session with link := none, connected := false } } := by
  unfold serve
  split
  · rename_i unlinked
    rw [unlinked] at linked
    cases linked
  · rename_i other found
    rw [linked] at found
    cases found
    rfl

namespace Life

theorem readLines_lived (link : Link) (running : link.running = true) (bound : Nat) :
    ∀ l : Life, l.session.link = some link → l.phase = some .testing → l.session.waiting < bound →
      ∃ turns : List Bool, l.after (turns.map .turn) =
        l.leave (Session.readLines link bound l.session).session
          (Session.readLines link bound l.session).raised := by
  induction bound with
  | zero => intro l _ _ few; exact absurd few (Nat.not_lt_zero _)
  | succ bound ih =>
      intro l linked testing few
      have tested (lost : Bool) : l.turn lost = { l with phase := some .asking } := by
        simp [turn, testing, linked, running]
      have asked (lost : Bool) : ({ l with phase := some .asking } : Life).turn lost =
          ({ l with phase := some .asking } : Life).ask link lost := by
        simp [turn, linked]
      -- once stopped, the next test leaves the body
      have halted {p : Port} (lost : Bool) (connected : l.session.stand.port = some p)
          (gone : lost = true ∨ p.isOpen = false) :
          l.after ([false, lost, false].map .turn) =
            l.leave (l.session.stopReading link).1 (l.session.stopReading link).2 := by
        have left := (stopReading_closes l.session link).1
        have calm : (l.session.stopReading link).2 = none := by
          rw [Session.stopReading_of_some link connected]
        simp only [after, List.map_cons, List.map_nil, List.foldl_cons, List.foldl_nil, step,
          tested, asked]
        rw [ask_of_gone (l := { l with phase := some .asking }) connected gone]
        simp only [turn, left, calm]
        rfl
      cases connected : l.session.stand.port with
      | none =>
          have read : l.session.stand.readLine = .error (.lacks .nothing "in_waiting") := by
            simp [Stand.readLine, connected]
          refine ⟨[false, false], ?_⟩
          simp only [after, List.map_cons, List.map_nil, List.foldl_cons, List.foldl_nil, step,
            tested, asked, Session.readLines, read]
          rw [ask_of_none (l := { l with phase := some .asking }) connected]
          rfl
      | some p =>
          cases isOpen : p.isOpen with
          | false =>
              have read : l.session.stand.readLine = .error .deviceGone := by
                simp [Stand.readLine, connected, isOpen]
              refine ⟨[false, false, false], ?_⟩
              rw [halted false connected (.inr isOpen)]
              simp only [Session.readLines, read]
          | true =>
              by_cases silent : p.pending = []
              · have read : l.session.stand.readLine = .ok (l.session.stand, none) := by
                  simp [Stand.readLine, connected, isOpen, silent]
                refine ⟨[false, true, false], ?_⟩
                rw [halted true connected (.inl rfl)]
                simp only [Session.readLines, read]
              · have read : l.session.stand.readLine = .ok (l.taken p,
                    some ⟨p.firstLine, (l.session.stand.board.decode p.firstLine).2⟩) :=
                  asked_of_waiting connected isOpen silent
                cases outcome : (l.session.stand.board.decode p.firstLine).2 with
                | error fault =>
                    refine ⟨[false, false], ?_⟩
                    simp only [after, List.map_cons, List.map_nil, List.foldl_cons,
                      List.foldl_nil, step, tested, asked, Session.readLines, read, outcome]
                    rw [ask_of_failed (l := { l with phase := some .asking }) connected isOpen
                      silent outcome]
                    rfl
                | ok announcement =>
                    obtain ⟨s, heard⟩ : ∃ s,
                        ({ l.session with stand := l.taken p }.announce announcement).1.tell
                          p.firstLine = s := ⟨_, rfl⟩
                    have next : ({ l with phase := some .asking } : Life).ask link false =
                        { l with session := s, phase := some .testing } := by
                      rw [ask_of_taken (l := { l with phase := some .asking }) connected isOpen
                        silent outcome]
                      subst heard
                      rfl
                    have kept : s.link = some link ∧ s.stand = l.taken p := by
                      subst heard
                      cases announcement <;> exact ⟨linked, rfl⟩
                    have fewer : s.waiting < bound := by
                      have shorter := Port.cutLine_shortens silent
                      simp only [Session.waiting, connected, Option.map_some,
                        Option.getD_some] at few
                      simp only [Session.waiting, kept.2, taken, Option.map_some,
                        Option.getD_some]
                      omega
                    obtain ⟨turns, lived⟩ :=
                      ih { l with session := s, phase := some .testing } kept.1 rfl fewer
                    refine ⟨false :: false :: turns, ?_⟩
                    simp only [Session.readLines, read, outcome, heard]
                    refine Eq.trans ?_ lived
                    simp only [after, List.map_cons, List.foldl_cons, step, tested, asked]
                    exact congrArg (fun l => (turns.map Moment.turn).foldl step l) next

theorem serve_lived {l : Life} {link : Link} (idle : l.phase = none)
    (linked : l.session.link = some link) (works : Bool) (bytes : List UInt8) :
    ∃ turns : List Bool,
      l.after (.opening works :: (if works then [.arrive bytes] else []) ++ turns.map .turn) =
        { session := (l.session.serve works bytes).session
          phase := none
          endings := l.endings ++ [(l.session.serve works bytes).raised] } := by
  obtain ⟨s, linked', opened, served⟩ : ∃ s : Session, s.link = some link ∧
      l.after (.opening works :: (if works then [.arrive bytes] else [])) =
        { l with session := s, phase := some .testing } ∧
      l.session.serve works bytes =
        let effect : Effect :=
          if link.running then Session.readLines link (s.waiting + 1) s else { session := s }
        { effect with session := { effect.session with link := none, connected := false } } := by
    cases works with
    | true =>
        refine ⟨{ l.session with stand := (l.session.stand.connect true).1.deliver bytes }.tell
          ("(i) Connected to serial port " ++ link.port), linked, ?_, ?_⟩
        · simp [after, step, opening, idle, linked, Stand.connect, Session.tell]
        · exact Session.serve_of_link linked true bytes
    | false =>
        refine ⟨l.session.tell ("(i) Error opening serial port " ++ link.port), linked, ?_, ?_⟩
        · simp [after, step, opening, idle, linked, Stand.connect, Session.tell]
        · exact Session.serve_of_link linked false bytes
  rw [served]
  cases running : link.running with
  | true =>
      obtain ⟨turns, lived⟩ := readLines_lived link running (s.waiting + 1)
        { l with session := s, phase := some .testing } linked' rfl (Nat.lt_succ_self _)
      refine ⟨turns, ?_⟩
      rw [after_append, opened, lived]
      rfl
  | false =>
      refine ⟨[false], ?_⟩
      rw [after_append, opened]
      simp [after, step, turn, linked', running, leave]

theorem Sound.ends_iff {l : Life} (sound : l.Sound) (m : Moment) (fault : Option Fault) :
    (l.step m).endings = l.endings ++ [fault] ↔ ∃ lost, m = .turn lost ∧ l.Leaves lost fault := by
  constructor
  · intro ended
    by_cases turns : ∃ lost, m = .turn lost
    · obtain ⟨lost, rfl⟩ := turns
      exact ⟨lost, rfl, (sound.leaves_iff lost fault).mp ended⟩
    · have same : (l.step m).endings = l.endings := by
        cases step_change sound.board m with
        | rests _ _ _ _ _ endings => exact endings
        | made _ _ same => rw [same]
        | stopped _ _ _ _ _ _ _ _ endings => exact endings
        | opened _ _ _ _ _ _ _ endings => exact endings
        | left lost turn => exact absurd ⟨lost, turn⟩ turns
      simp [same] at ended
  · rintro ⟨lost, rfl, leaves⟩
    exact (sound.leaves_iff lost fault).mpr leaves

end Life

/-- Whatever happened: the info bar tells whether there is a thread, and without one no body is
carried out and a new thread can be made.  A body is left as it should be exactly when it finds
itself stopped, and by a failure exactly when it asks without a port or its line fails.  Whether the
thread has been stopped and whether the port is open is told by the latest moments that had a say
in it.  Unless there was a mishap no body was left by a failure, and without a thread no port is
open.  Carrying out the body at one go is one such life. -/
theorem reader_left_as_told (ports : List String) (clock : Clock) (history : List Moment) :
    let first := Life.start ports clock
    let l := first.after history
    let s := l.session
    s.status = (if s.link.isSome then ("CONNECTED", "green") else ("NOT CONNECTED", "red")) ∧
      (s.link = none →
        l.phase = none ∧ ∃ link, s.connect.link = some link ∧ link.running = true) ∧
      (∀ m fault, (l.step m).endings = l.endings ++ [fault] ↔
        ∃ lost, m = .turn lost ∧ l.Leaves lost fault) ∧
      (∀ link, s.link = some link → latest? first.stopRule history = some (!link.running)) ∧
      s.stand.isOpen? = latest? first.portRule history ∧
      ((∀ before m later, history = before ++ m :: later → ¬(first.after before).Mishap m) →
        (∀ ending ∈ l.endings, ending = none) ∧
          (s.link = none → s.stand.isOpen? ≠ some true)) ∧
      ∀ link works bytes, l.phase = none → s.link = some link → ∃ turns : List Bool,
        l.after (.opening works :: (if works then [.arrive bytes] else []) ++ turns.map .turn) =
          { session := (s.serve works bytes).session
            phase := none
            endings := l.endings ++ [(s.serve works bytes).raised] } := by
  intro first l s
  have begun : first.Sound := Life.start_sound ports clock
  have sound : l.Sound := begun.after history
  refine ⟨?_, ?_, sound.ends_iff, ?_, ?_, ?_, ?_⟩
  · rw [Session.status, sound.told]
  · intro unlinked
    refine ⟨?_, ?_⟩
    · by_contra busy
      exact sound.phase busy unlinked
    · exact ⟨{ port := s.selectedPort }, by simp [Session.connect, unlinked], rfl⟩
  · exact fun link linked => Life.stopped_by_history begun rfl history linked
  · exact Life.open_by_history begun rfl history
  · intro safe
    have calm : first.Orderly := ⟨fun _ member => absurd member List.not_mem_nil, fun isOpen => by
      cases isOpen⟩
    have orderly : l.Orderly := calm.after begun safe
    refine ⟨orderly.endings, fun unlinked isOpen => ?_⟩
    obtain ⟨link, linked, _⟩ := orderly.attended isOpen
    rw [unlinked] at linked
    cases linked
  · exact fun link works bytes idle linked => Life.serve_lived idle linked works bytes

def lostDevice : List Moment :=
  [.beside .connect rfl, .opening true, .turn false, .turn true, .turn false]

def unopened : List Moment := [.beside .connect rfl, .opening false, .turn false]

theorem reader_left_as_told_unopened :
    let first := Life.start ["COM3"] {}
    (∀ before m later, lostDevice = before ++ m :: later → ¬(first.after before).Mishap m) ∧
      (first.after lostDevice).session.link = none ∧
      (first.after lostDevice).session.stand.isOpen? ≠ some true ∧
      (first.after unopened).Leaves false (some (.lacks .nothing "in_waiting")) ∧
      ((first.after unopened).step (.turn false)).endings =
        [some (.lacks .nothing "in_waiting")] := by
  intro first
  have safe : ∀ before m later, lostDevice = before ++ m :: later →
      ¬(first.after before).Mishap m := by
    simp only [lostDevice, forall_split_cons]
    refine ⟨id, ?_, ?_, ?_, ?_, by simp⟩
    · rintro ⟨_, _, link, linked, halted⟩
      cases linked
      cases halted
    · rintro ⟨_, asking, _⟩
      cases asking
    · rintro ⟨_, _, ⟨unconnected, _⟩ | ⟨_, _, _, present, _⟩⟩
      · cases unconnected
      · cases present
    · rintro ⟨_, asking, _⟩
      cases asking
  have unlinked : (first.after lostDevice).session.link = none := rfl
  have leaves : (first.after unopened).Leaves false (some (.lacks .nothing "in_waiting")) :=
    ⟨rfl, .inl ⟨rfl, rfl⟩⟩
  obtain ⟨_, _, _, _, _, orderly, _⟩ := reader_left_as_told ["COM3"] {} lostDevice
  obtain ⟨_, _, ends, _⟩ := reader_left_as_told ["COM3"] {} unopened
  exact ⟨safe, unlinked, (orderly safe).2 unlinked, leaves,
    (ends (.turn false) _).mpr ⟨false, rfl, leaves⟩⟩

end ThrustBench
