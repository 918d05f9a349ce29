import Mathlib.Data.List.DropRight
import ThrustBench.Proofs.Framing
import ThrustBench.Proofs.SessionFrames

/-!
The graphs show the latest samples.  The store of a trace is written round and round, and its curve
is the store turned so that the place to be written next comes first; told by what was added, the
curve is the end of the row of all samples, behind as many zeros as the store has places.  A number
beyond the doubles is announced, but no graph shows it (`graph_leaves_out_large`).
-/

namespace ThrustBench

namespace Trace

def addAll (t : Trace) (values : List Datum) : Trace := values.foldl (fun t d => (t.add d).1) t

def stored (values : List Datum) : List Binary64 := values.filterMap fun d => (sample d).toOption

/-- The end of a row of samples that has zeros before it. -/
def recent (size : Nat) (samples : List Binary64) : List Binary64 :=
  (List.replicate size (Binary64.zero false) ++ samples).rtake size

def drawn (size : Nat) (samples : List Binary64) : Option (List Binary64) :=
  if samples.isEmpty then none else some (recent size samples)

theorem addAll_snoc (t : Trace) (values : List Datum) (d : Datum) :
    t.addAll (values ++ [d]) = ((t.addAll values).add d).1 := by
  simp [addAll]

theorem stored_snoc (values : List Datum) (d : Datum) :
    stored (values ++ [d]) = stored values ++ (sample d).toOption.toList := by
  unfold stored
  rw [List.filterMap_append]
  cases double : (sample d).toOption with
  | none => simp [double]
  | some x => simp [double]

theorem recent_eq_drop (size : Nat) (samples : List Binary64) :
    recent size samples =
      (List.replicate size (Binary64.zero false) ++ samples).drop samples.length := by
  unfold recent List.rtake
  rw [List.length_append, List.length_replicate, Nat.add_sub_cancel_left]

theorem recent_snoc {size : Nat} (places : 0 < size) (samples : List Binary64) (x : Binary64) :
    recent size (samples ++ [x]) = (recent size samples).tail ++ [x] := by
  rw [recent_eq_drop, recent_eq_drop, List.tail_drop, ← List.append_assoc, List.length_append,
    List.length_singleton, List.drop_append_of_le_length]
  rw [List.length_append, List.length_replicate]
  omega

theorem drawn_snoc (size : Nat) (samples : List Binary64) (x : Binary64) :
    drawn size (samples ++ [x]) = some (recent size (samples ++ [x])) := by
  simp [drawn]

theorem curve_put (t : Trace) (x : Binary64) (inside : t.pointer < t.data.length) :
    (t.put x).curve = t.curve.tail ++ [x] := by
  have written : (t.data.set t.pointer x).take (t.pointer + 1) = t.data.take t.pointer ++ [x] := by
    rw [List.take_add_one, List.take_set_of_le (Nat.le_refl _), List.getElem?_set_self inside]
    rfl
  have left : t.data.drop t.pointer ≠ [] := by
    rw [ne_eq, List.drop_eq_nil_iff]
    omega
  have turned : t.curve.tail ++ [x] =
      t.data.drop (t.pointer + 1) ++ (t.data.set t.pointer x).take (t.pointer + 1) := by
    rw [curve, List.tail_append_of_ne_nil left, List.tail_drop, written, List.append_assoc]
  rw [turned]
  by_cases wraps : t.pointer + 1 = t.data.length
  · have place : (t.put x).pointer = 0 := by
      simp [put, store, next, wraps]
    have whole : (t.data.set t.pointer x).take (t.pointer + 1) = t.data.set t.pointer x := by
      apply List.take_of_length_le
      rw [List.length_set]
      omega
    rw [curve, place, whole, wraps, List.drop_length, List.take_zero]
    simp [put, store, next]
  · have place : (t.put x).pointer = t.pointer + 1 := by
      simp only [put, store, next, List.length_set]
      exact Nat.mod_eq_of_lt (by omega)
    rw [curve, place]
    simp only [put, store, next]
    rw [List.drop_set_of_lt (Nat.lt_succ_self _)]

structure Draws (t : Trace) (size : Nat) (samples : List Binary64) : Prop where
  length : t.data.length = size
  moves : t.moves = true
  inside : t.pointer < size
  curve : t.curve = recent size samples
  plotted : t.plotted = recent size []
  shown : t.shown = drawn size samples

section

variable {t : Trace} {size : Nat} {samples : List Binary64}

theorem draws_ofSize (places : 0 < size) : (ofSize size).Draws size [] where
  length := List.length_replicate
  moves := rfl
  inside := places
  curve := by
    rw [recent_eq_drop, List.append_nil]
    exact List.append_nil _
  plotted := by
    rw [recent_eq_drop, List.append_nil]
    rfl
  shown := rfl

theorem Draws.visible (draws : t.Draws size samples) : t.visible = recent size samples := by
  rw [Trace.visible, draws.shown, draws.plotted, drawn]
  cases samples <;> rfl

theorem Draws.add_ok (draws : t.Draws size samples) {d : Datum} {x : Binary64}
    (double : sample d = .ok x) :
    (t.add d).2 = none ∧ (t.add d).1.Draws size (samples ++ [x]) := by
  have inside : t.pointer < t.data.length := by
    rw [draws.length]
    exact draws.inside
  have places : 0 < size := Nat.lt_of_le_of_lt (Nat.zero_le _) draws.inside
  have added : t.add d = (t.put x, none) := by
    simp [add, inside, double, draws.moves]
  have curve : (t.put x).curve = recent size (samples ++ [x]) := by
    rw [t.curve_put x inside, draws.curve, recent_snoc places]
  rw [added]
  refine ⟨rfl, ?_, draws.moves, ?_, curve, draws.plotted, ?_⟩
  · simpa [put, store, next] using draws.length
  · simp only [put, store, next, List.length_set, draws.length]
    exact Nat.mod_lt _ places
  · rw [drawn_snoc, ← curve]
    rfl

theorem Draws.add_error (draws : t.Draws size samples) {d : Datum} {fault : Fault}
    (refused : sample d = .error fault) : t.add d = (t, some fault) := by
  have inside : t.pointer < t.data.length := by
    rw [draws.length]
    exact draws.inside
  simp [add, inside, refused]

theorem Draws.addAll (draws : t.Draws size samples) (values : List Datum) :
    (t.addAll values).Draws size (samples ++ stored values) := by
  induction values using List.reverseRecOn with
  | nil =>
      rw [stored, List.filterMap_nil, List.append_nil]
      exact draws
  | append_singleton values d ih =>
      rw [addAll_snoc, stored_snoc]
      cases double : sample d with
      | error fault =>
          rw [ih.add_error double]
          simpa [Except.toOption] using ih
      | ok x =>
          rw [← List.append_assoc]
          exact (ih.add_ok double).2

end

end Trace

namespace Board

def announcement? (b : Board) : Operation → Option Announcement
  | .line text => (b.decode text).2.toOption.join
  | _ => none

def announcements : Board → List Operation → List Announcement
  | _, [] => []
  | b, op :: ops => (b.announcement? op).toList ++ (b.step op).announcements ops

theorem announcements_append (first second : List Operation) : ∀ b : Board,
    b.announcements (first ++ second) =
      b.announcements first ++ (first.foldl step b).announcements second := by
  induction first with
  | nil => intro b; rfl
  | cons op first ih =>
      intro b
      rw [List.cons_append, announcements, ih, announcements, List.append_assoc]
      rfl

end Board

def announcedFor (c : Channel) (announced : List Announcement) : List Number :=
  (announced.filter fun a => a.channel = c).map Announcement.value

namespace Display

def announceAll (d : Display) (announced : List Announcement) : Display :=
  announced.foldl (fun d a => (d.announce a).1) d

theorem announceAll_append (d : Display) (first second : List Announcement) :
    d.announceAll (first ++ second) = (d.announceAll first).announceAll second := by
  simp [announceAll]

theorem announceAll_traces (c : Channel) (announced : List Announcement) : ∀ d : Display,
    (d.announceAll announced).traces.get c =
      (d.traces.get c).addAll ((announcedFor c announced).map Datum.ofNumber) := by
  induction announced with
  | nil => intro d; rfl
  | cons a announced ih =>
      intro d
      have first : (d.announceAll (a :: announced)) = (d.announce a).1.announceAll announced := rfl
      rw [first, ih]
      by_cases own : a.channel = c
      · have taken : (d.announce a).1.traces.get c =
            ((d.traces.get c).add (.ofNumber a.value)).1 := by
          subst own
          simp [announce]
        simp [announcedFor, own, taken, Trace.addAll]
      · have kept : (d.announce a).1.traces.get c = d.traces.get c := by
          simp only [announce]
          exact Channels.get_set_of_ne _ _ (Ne.symm own)
        simp [announcedFor, own, kept]

end Display

theorem Trace.sample_ofNumber (v : Number) : sample (.ofNumber v) = v.toReal := by
  cases v with
  | whole n => simp only [Datum.ofNumber, sample, Datum.toReal]
  | real x => simp only [Datum.ofNumber, sample, Datum.toReal, Number.toReal]

/-- The values that were announced for a channel, as doubles; a number beyond the doubles has
none. -/
def doublesFor (c : Channel) (announced : List Announcement) : List Binary64 :=
  (announcedFor c announced).filterMap fun v => v.toReal.toOption

theorem stored_announcedFor (c : Channel) (announced : List Announcement) :
    Trace.stored ((announcedFor c announced).map Datum.ofNumber) = doublesFor c announced := by
  simp only [Trace.stored, doublesFor, List.filterMap_map, Function.comp_def,
    Trace.sample_ofNumber]

structure Measures (before after : Board × Display) (ops : List Operation) : Prop where
  board : after.1 = ops.foldl Board.step before.1
  display : after.2 = before.2.announceAll (before.1.announcements ops)

theorem Measures.none {before after : Board × Display} (same : after = before) :
    Measures before after [] := by
  rw [same]
  exact ⟨rfl, rfl⟩

theorem Measures.trans {first second third : Board × Display} {ops later : List Operation}
    (here : Measures first second ops) (there : Measures second third later) :
    Measures first third (ops ++ later) where
  board := by rw [List.foldl_append, ← here.board, there.board]
  display := by
    rw [Board.announcements_append, Display.announceAll_append, ← here.board, ← here.display,
      there.display]

namespace Script

def Event.announcement? : Event → Option Announcement
  | .heard announcement => announcement
  | _ => none

def heardIn (events : List Event) : List Announcement := events.filterMap Event.announcement?

namespace Run

structure Takes (r r' : Run) (lines : List String) : Prop where
  board : r'.stand.board = (lines.map Operation.line).foldl Board.step r.stand.board
  heard : heardIn r'.events =
    heardIn r.events ++ r.stand.board.announcements (lines.map Operation.line)

theorem Takes.none {r r' : Run} (board : r'.stand.board = r.stand.board)
    (heard : heardIn r'.events = heardIn r.events) : r.Takes r' [] :=
  ⟨board, by rw [heard]; exact (List.append_nil _).symm⟩

theorem Takes.trans {r r' r'' : Run} {lines later : List String} (here : r.Takes r' lines)
    (there : r'.Takes r'' later) : r.Takes r'' (lines ++ later) where
  board := by rw [List.map_append, List.foldl_append, ← here.board, there.board]
  heard := by
    rw [List.map_append, Board.announcements_append, ← List.append_assoc, ← here.heard,
      ← here.board, there.heard]

theorem hear_takes (r : Run) (line : String) : r.Takes (r.hear line).1 [line] := by
  cases outcome : (r.stand.board.decode line).2 with
  | error fault =>
      simp only [hear, outcome]
      exact ⟨rfl, by simp [Board.announcements, Board.announcement?, outcome, Except.toOption]⟩
  | ok announcement =>
      simp only [hear, outcome]
      refine ⟨rfl, ?_⟩
      cases announcement <;>
        simp [note, heardIn, Event.announcement?, Board.announcements, Board.announcement?, outcome,
          Except.toOption]

theorem hearAll_takes (lines : List String) : ∀ r : Run, ∃ taken,
    r.Takes (r.hearAll lines).1 taken := by
  induction lines with
  | nil =>
      intro r
      exact ⟨[], .none rfl rfl⟩
  | cons line lines ih =>
      intro r
      have first := r.hear_takes line
      generalize done : r.hear line = result at first
      obtain ⟨r', outcome⟩ := result
      simp only [hearAll, done]
      cases outcome with
      | error fault => exact ⟨[line], first⟩
      | ok _ =>
          obtain ⟨taken, rest⟩ := ih r'
          exact ⟨line :: taken, first.trans rest⟩

theorem wait_takes (plan : Plan) (r : Run) (args : List Datum) : ∃ taken,
    r.Takes (r.wait plan args).1 taken := by
  have begun : ∃ taken, r.Takes (r.beginWait plan).1 taken := by
    obtain ⟨taken, heard⟩ :=
      hearAll_takes (plan.feed[r.waits]?.getD []) (r.note (.waited r.clock.now))
    have noted : r.Takes (r.note (.waited r.clock.now)) [] :=
      .none rfl (by simp [note, heardIn, Event.announcement?])
    refine ⟨[] ++ taken, ?_⟩
    apply noted.trans
    unfold beginWait
    generalize (r.note (.waited r.clock.now)).hearAll (plan.feed[r.waits]?.getD []) = result
      at heard
    obtain ⟨r', outcome⟩ := result
    cases outcome <;> exact ⟨heard.board, heard.heard⟩
  unfold wait
  split
  · exact ⟨[], .none rfl rfl⟩
  · split
    · exact ⟨[], .none rfl rfl⟩
    · obtain ⟨taken, lines⟩ := begun
      refine ⟨taken, ?_⟩
      unfold waitSeconds
      generalize r.beginWait plan = result at lines
      obtain ⟨r', outcome⟩ := result
      cases outcome with
      | error fault => exact lines
      | ok _ =>
          simp only
          split <;> exact ⟨lines.board, lines.heard⟩

theorem perform_takes (plan : Plan) (r : Run) (verb : Verb) (args : List Datum) : ∃ taken,
    r.Takes (r.perform plan verb args).1 taken := by
  unfold perform
  split
  · exact ⟨[], .none rfl rfl⟩
  · by_cases waits : verb = .wait
    · subst waits
      exact wait_takes plan r args
    · generalize done : r.act plan verb args = result
      obtain ⟨r', outcome⟩ := result
      refine ⟨[], ?_⟩
      cases Deed.of_act done with
      | interrupted | waits => exact absurd rfl waits
      | fails | remembers | reads | chooses => exact .none rfl rfl
      | sends | prints | refused | adds =>
          refine .none rfl ?_
          simp [heardIn, Function.comp_def, Event.announcement?]

theorem performAll_takes (plan : Plan) (script : List Command) (r : Run) : ∃ taken,
    r.Takes (performAll plan r script).1 taken := by
  refine performAll_keeps (Q := fun r' => ∃ taken, r.Takes r' taken) ?_ script ⟨[], .none rfl rfl⟩
  rintro r' verb args ⟨taken, before⟩
  obtain ⟨more, step⟩ := perform_takes plan r' verb args
  exact ⟨taken ++ more, before.trans step⟩

end Run

end Script

namespace Session

def measured (s : Session) : Board × Display := (s.stand.board, s.display)

theorem replayAll_display (events : List Script.Event) : ∀ s : Session,
    (s.replayAll events).1.display = s.display.announceAll (Script.heardIn events) := by
  induction events with
  | nil => intro s; rfl
  | cons e events ih =>
      intro s
      have whole : (s.replayAll (e :: events)).1 = ((s.replay e).1.replayAll events).1 := rfl
      rw [whole, ih]
      cases e with
      | heard announcement => cases announcement <;> rfl
      | _ => rfl

theorem announce_measures (s : Session) {b : Board} {line : String}
    {announcement : Option Announcement} (decoded : (b.decode line).2 = .ok announcement)
    (taken : s.stand.board = (b.decode line).1) :
    Measures (b, s.display) (s.announce announcement).1.measured [.line line] := by
  have announced : b.announcements [.line line] = announcement.toList := by
    simp [Board.announcements, Board.announcement?, decoded, Except.toOption]
  constructor
  · rw [measured, announce_stand, taken]
    rfl
  · rw [announced]
    cases announcement <;> rfl

theorem decode_measures (b : Board) (d : Display) {line : String} {fault : Fault}
    (failed : (b.decode line).2 = .error fault) :
    Measures (b, d) ((b.decode line).1, d) [.line line] := by
  refine ⟨rfl, ?_⟩
  simp [Board.announcements, Board.announcement?, failed, Except.toOption, Display.announceAll]

theorem hear_measures (s : Session) (line : String) :
    Measures s.measured (s.hear line).session.measured [.line line] := by
  cases outcome : (s.stand.board.decode line).2 with
  | error fault =>
      simp only [hear, outcome]
      exact decode_measures s.stand.board s.display outcome
  | ok announcement =>
      simp only [hear, outcome]
      exact announce_measures { s with stand := { s.stand with board := _ } } outcome rfl

theorem stopReading_measured (s : Session) (link : Link) :
    (s.stopReading link).1.measured = s.measured := by
  cases connected : s.stand.port with
  | none => rw [stopReading_of_none link connected]; rfl
  | some p => rw [stopReading_of_some link connected]; rfl

theorem readLine_decodes {stand stand' : Stand} {read : Stand.LineRead}
    (done : stand.readLine = .ok (stand', some read)) :
    read.outcome = (stand.board.decode read.line).2 ∧
      stand'.board = (stand.board.decode read.line).1 := by
  unfold Stand.readLine at done
  split at done
  · cases done
  · split at done
    · cases done
    · split at done
      · cases done
      · cases done
        exact ⟨rfl, rfl⟩

theorem readLines_measures (link : Link) (bound : Nat) : ∀ s : Session, ∃ ops,
    Measures s.measured (readLines link bound s).session.measured ops := by
  induction bound with
  | zero =>
      intro s
      exact ⟨[], .none rfl⟩
  | succ bound ih =>
      intro s
      unfold readLines
      split
      · exact ⟨[], .none (s.stopReading_measured link)⟩
      · exact ⟨[], .none (s.stopReading_measured link)⟩
      · exact ⟨[], .none rfl⟩
      · rename_i stand read done
        obtain ⟨decoded, board⟩ := readLine_decodes done
        split
        · rename_i fault failed
          refine ⟨[.line read.line], ?_⟩
          rw [failed] at decoded
          have taken := decode_measures s.stand.board s.display decoded.symm
          rwa [← board] at taken
        · rename_i announcement worked
          rw [worked] at decoded
          have first := announce_measures { s with stand } decoded.symm board
          obtain ⟨ops, rest⟩ := ih (({ s with stand }.announce announcement).1.tell read.line)
          exact ⟨.line read.line :: ops, first.trans rest⟩

theorem serve_measures (s : Session) (works : Bool) (bytes : List UInt8) : ∃ ops,
    Measures s.measured (s.serve works bytes).session.measured ops := by
  unfold serve
  split
  · exact ⟨[], .none rfl⟩
  · rename_i link _
    have opened : (s.stand.connect works).1.board = s.stand.board := by cases works <;> rfl
    generalize s.stand.connect works = connection at opened
    obtain ⟨stand, worked⟩ := connection
    have delivered : (if worked then stand.deliver bytes else stand).board = s.stand.board := by
      rw [← opened]
      cases worked <;> rfl
    by_cases running : link.running = true
    · simp only [running, if_true]
      generalize begun :
        tell { s with stand := if worked then stand.deliver bytes else stand } _ = t
      obtain ⟨ops, read⟩ := readLines_measures link (t.waiting + 1) t
      have same : t.measured = s.measured := by
        rw [← begun]
        exact Prod.ext delivered rfl
      rw [same] at read
      exact ⟨ops, read⟩
    · simp only [running]
      exact ⟨[], .none (Prod.ext delivered rfl)⟩

theorem runScript_measures (s : Session) (feed : List (List String)) (pressAtWait : Option Nat) :
    ∃ ops, Measures s.measured (s.runScript feed pressAtWait).session.measured ops := by
  cases started : s.panel.thread with
  | none =>
      simp only [runScript, started]
      exact ⟨[], .none rfl⟩
  | some thread =>
      cases read : thread.script.read s.panel.otherText with
      | error fault =>
          simp only [runScript, started, read]
          exact ⟨[], .none rfl⟩
      | ok script =>
          let plan := { s.panel.plan feed pressAtWait with
            refuse := fun _ p => Recorder.refusal? (s.scriptRow p) }
          obtain ⟨lines, taken⟩ :=
            Script.Run.performAll_takes plan script (Script.Run.begin s.stand s.clock)
          refine ⟨lines.map Operation.line, ?_, ?_⟩
          · simp only [runScript, started, read, Script.Job.body_ok, measured,
              Script.Job.conclude_stand]
            exact taken.board
          · simp only [runScript, started, read, Script.Job.body_ok, measured,
              Script.Job.conclude_run, Option.map_some, Option.getD_some, replayAll_display]
            rw [taken.heard]
            rfl

end Session

def Operation.action : Operation → Action
  | .line text => .hear text
  | .zero c => .zero c
  | .zeroAll => .zeroAll

namespace Session

def reachesBoard : Action → Bool
  | .hear _ | .zero _ | .zeroAll | .serve _ _ | .runScript _ _ => true
  | _ => false

theorem act_measured_of_elsewhere (s : Session) {a : Action} (elsewhere : reachesBoard a = false) :
    (s.act a).session.measured = s.measured := by
  cases a with
  | hear | zero | zeroAll | serve | runScript => cases elsewhere
  | connect =>
      simp only [act, connect]
      split <;> rfl
  | closeMonitor =>
      simp only [act, closeMonitor]
      split
      · rfl
      · exact s.stopReading_measured _
  | submit =>
      simp only [act, submit, Stand.send]
      cases s.stand.port <;> rfl
  | slide position =>
      simp only [act, slide]
      split
      · rfl
      · rw [Stand.setThrottle_inside s.stand (by omega), Stand.send]
        cases s.stand.port <;> rfl
  | tickStopwatch =>
      simp only [act, tickStopwatch]
      split <;> rfl
  | tickRecording =>
      simp only [act]
      split <;> rfl
  | _ => rfl

theorem act_measures (s : Session) (a : Action) : ∃ ops,
    Measures s.measured (s.act a).session.measured ops ∧
      ∀ op : Operation, a = op.action → ops = [op] := by
  cases a with
  | hear line =>
      refine ⟨[.line line], s.hear_measures line, ?_⟩
      rintro (_ | _ | _) own <;> cases own
      rfl
  | zero c =>
      refine ⟨[.zero c], ⟨rfl, rfl⟩, ?_⟩
      rintro (_ | _ | _) own <;> cases own
      rfl
  | zeroAll =>
      refine ⟨[.zeroAll], ⟨rfl, rfl⟩, ?_⟩
      rintro (_ | _ | _) own <;> cases own
      rfl
  | serve works bytes =>
      obtain ⟨ops, measures⟩ := s.serve_measures works bytes
      refine ⟨ops, measures, ?_⟩
      rintro (_ | _ | _) own <;> cases own
  | runScript feed pressAtWait =>
      obtain ⟨ops, measures⟩ := s.runScript_measures feed pressAtWait
      refine ⟨ops, measures, ?_⟩
      rintro (_ | _ | _) own <;> cases own
  | _ =>
      refine ⟨[], .none (s.act_measured_of_elsewhere rfl), ?_⟩
      rintro (_ | _ | _) own <;> cases own

theorem actAll_measures (history : List Action) : ∀ s : Session, ∃ ops,
    Measures s.measured (s.actAll history).measured ops ∧
      ∀ given, history = given.map Operation.action → ops = given := by
  induction history with
  | nil =>
      intro s
      refine ⟨[], .none rfl, ?_⟩
      intro given all
      simpa using all
  | cons a history ih =>
      intro s
      obtain ⟨first, here, own⟩ := s.act_measures a
      obtain ⟨rest, there, later⟩ := ih (s.act a).session
      refine ⟨first ++ rest, here.trans there, ?_⟩
      rintro (_ | ⟨op, given⟩) all
      · cases all
      · rw [List.map_cons, List.cons.injEq] at all
        rw [own op all.1, later given all.2]
        rfl

theorem start_draws (ports : List String) (clock : Clock) (c : Channel) :
    ((start ports clock).display.traces.get c).Draws graphSize [] := by
  have same : (start ports clock).display.traces.get c = .ofSize graphSize :=
    Channels.get_const _ c
  rw [same]
  exact Trace.draws_ofSize (by decide)

theorem actAll_draws (ports : List String) (clock : Clock) (history : List Action) :
    ∃ ops, (∀ given, history = given.map Operation.action → ops = given) ∧
      ((start ports clock).actAll history).stand.board = Board.after ops ∧
      ∀ c, (((start ports clock).actAll history).display.traces.get c).Draws graphSize
        (doublesFor c (Board.announcements {} ops)) := by
  obtain ⟨ops, measures, given⟩ := (start ports clock).actAll_measures history
  refine ⟨ops, given, measures.board, fun c => ?_⟩
  have draws := (start_draws ports clock c).addAll
    ((announcedFor c (Board.announcements {} ops)).map Datum.ofNumber)
  rw [← Display.announceAll_traces, List.nil_append, stored_announcedFor] at draws
  have display : ((start ports clock).actAll history).display =
      (start ports clock).display.announceAll _ := measures.display
  rwa [display]

end Session

/-- A trace of any size shows, after each value that it stored, the end of the row of zeros and
stored values as long as the store; the next place is inside the store, and a value that is no
double changes nothing.  So, whatever happens in a session, there is a row of lines and zeroings
that the board has taken in, which are the lines and zeroings of the session if there is nothing
else, and each graph shows zeros and then the latest of the values that were announced for its
channel in the course of them, but for the numbers beyond the doubles. -/
theorem graphs_show_latest (size : Nat) (places : 1 ≤ size) (values : List Datum)
    (ports : List String) (clock : Clock) (history : List Action) :
    let t := (Trace.ofSize size).addAll values
    let s := (Session.start ports clock).actAll history
    (t.pointer < size ∧ t.data.length = size ∧ t.shown = Trace.drawn size (Trace.stored values) ∧
      t.visible = Trace.recent size (Trace.stored values) ∧
      (∀ d x, Trace.sample d = .ok x → (t.add d).2 = none ∧
        (t.add d).1.shown = some (Trace.recent size (Trace.stored values ++ [x]))) ∧
      ∀ d fault, Trace.sample d = .error fault → t.add d = (t, some fault)) ∧
    ∃ ops, (∀ given, history = given.map Operation.action → ops = given) ∧
      s.stand.board = Board.after ops ∧
      ∀ c, (s.display.traces.get c).pointer < graphSize ∧
        (s.display.traces.get c).visible =
          Trace.recent graphSize (doublesFor c (Board.announcements {} ops)) ∧
        (s.display.traces.get c).shown =
          Trace.drawn graphSize (doublesFor c (Board.announcements {} ops)) := by
  intro t s
  constructor
  · have draws : t.Draws size ([] ++ Trace.stored values) :=
      (Trace.draws_ofSize places).addAll values
    refine ⟨draws.inside, draws.length, draws.shown, draws.visible, ?_,
      fun d fault => draws.add_error⟩
    intro d x double
    obtain ⟨taken, next⟩ := draws.add_ok double
    exact ⟨taken, next.shown.trans (Trace.drawn_snoc _ _ _)⟩
  · obtain ⟨ops, given, board, draws⟩ := Session.actAll_draws ports clock history
    exact ⟨ops, given, board, fun c => ⟨(draws c).inside, (draws c).visible, (draws c).shown⟩⟩

theorem graphs_show_latest_wrapped :
    let values : List Datum :=
      [.whole 1, .whole 2, .list [], .whole 3, .whole 4, .whole 5, .whole 6]
    let ops : List Operation :=
      [.line "lc1(7)", .zero .cell1, .line "vtg(3.5)", .line "lc1(9)", .line "lc1(n)"]
    let graphs := ((Session.start [] {}).actAll (ops.map Operation.action)).display.traces
    (Trace.sample (.list []) = .error .sequenceInPlace ∧ ((Trace.ofSize 3).addAll values).visible =
        [Binary64.ofInt 4, Binary64.ofInt 5, Binary64.ofInt 6]) ∧
      (graphs.get .cell1).visible = Trace.recent 200 [Binary64.ofInt 7, Binary64.ofInt 2] ∧
      (graphs.get .cell2).visible = List.replicate 200 (.zero false) := by
  intro values ops graphs
  obtain ⟨⟨_, _, _, visible, _⟩, same, given, _, shows⟩ :=
    graphs_show_latest 3 (by decide) values [] {} (ops.map Operation.action)
  obtain rfl := given ops rfl
  refine ⟨⟨rfl, visible.trans (by decide +kernel)⟩, ?_, ?_⟩
  · exact (shows .cell1).2.1.trans (by decide +kernel)
  · exact (shows .cell2).2.1.trans (by decide +kernel)

def longReading : String :=
  String.ofList (Channel.cell1.tag ++ ('1' :: List.replicate 400 '0') ++ [')'])

theorem wholeNumber_round (count : Nat) :
    Reading.wholeNumber false ('1' :: List.replicate count '0') = 10 ^ count := by
  have front : '1' :: List.replicate count '0' = ['1'] ++ List.replicate count '0' := rfl
  have one : Text.digitsValue ['1'] = 1 := rfl
  rw [Reading.wholeNumber, ← Reading.digitsValue_eq_ofDigits, front, Text.digitsValue_append,
    Text.digitsValue_zeros, List.length_replicate, one, Nat.one_mul, Nat.add_zero]
  exact Int.natCast_pow 10 count

theorem longReading_framed : Channel.cell1.Framed longReading (.whole (10 ^ 400)) := by
  have digits : ∀ d ∈ '1' :: List.replicate 400 '0', Text.isDigit d = true := by
    intro d member
    rcases List.mem_cons.mp member with rfl | zero
    · exact Text.isDigit_of_plain rfl
    · rw [List.eq_of_mem_replicate zero]
      exact Text.isDigit_of_plain rfl
  have spelled := Channel.Spells.whole (c := .cell1) (.inl rfl) false (List.cons_ne_nil _ _) digits
    (by decide +kernel)
  rw [wholeNumber_round] at spelled
  exact ⟨_, [], by rw [longReading, String.toList_ofList]; rfl, by simp, spelled⟩

theorem longReading_announced {b : Board} (unzeroed : b.offset.get .cell1 = .whole 0) :
    (b.decode longReading).2 = .ok (some ⟨.cell1, .whole (10 ^ 400)⟩) := by
  obtain ⟨_, _, _, _, written, _, reads⟩ := longReading_framed.reads
  have carried : Channel.cell1.tag <+: longReading.toList := by
    rw [written, List.append_assoc]
    exact List.prefix_append _ _
  rw [(b.delivers_of_reading carried reads.reading).2, unzeroed]
  generalize (10 : Int) ^ 400 = n
  simp [Board.announced, Datum.sub, Datum.ofNumber, Datum.number?, Number.sub, Except.map]

theorem graph_leaves_out_large :
    let ops : List Operation := [.line "lc1(5)", .line longReading]
    announcedFor .cell1 (Board.announcements {} ops) = [.whole 5, .whole (10 ^ 400)] ∧
      (((Session.start [] {}).actAll (ops.map Operation.action)).display.traces.get .cell1).visible =
        Trace.recent graphSize [Binary64.ofInt 5] := by
  intro ops
  have first : (Board.decode {} "lc1(5)").2 = .ok (some ⟨.cell1, .whole 5⟩) := by decide +kernel
  have second := longReading_announced
    (by decide +kernel : (Board.step {} (.line "lc1(5)")).offset.get .cell1 = .whole 0)
  have announced : announcedFor .cell1 (Board.announcements {} ops) =
      [.whole 5, .whole (10 ^ 400)] := by
    simp only [ops, Board.announcements, Board.announcement?, first, second]
    rfl
  have small : Number.toReal (.whole 5) = .ok (Binary64.ofInt 5) := by decide +kernel
  have large : Number.toReal (.whole (10 ^ 400)) = .error .wholeTooLarge := by decide +kernel
  obtain ⟨same, given, _, draws⟩ := Session.actAll_draws [] {} (ops.map Operation.action)
  obtain rfl := given ops rfl
  refine ⟨announced, (draws .cell1).visible.trans ?_⟩
  rw [doublesFor, announced]
  simp only [List.filterMap_cons, small, large, Except.toOption, List.filterMap_nil]

end ThrustBench
