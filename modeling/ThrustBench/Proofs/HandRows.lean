import ThrustBench.Session.Action
import ThrustBench.Proofs.Commanded
import ThrustBench.Proofs.Latest
import ThrustBench.Proofs.RecordedCells
import ThrustBench.Proofs.ScriptCommands

/-!
The throttle in the rows that are added by hand.  It is the position of the slider, and that is the
throttle that was commanded last unless the two have come apart: by a move of the slider that did
not reach the stand, or by a command that did not come from the slider.
-/

namespace ThrustBench

theorem commanded_append (first second : List String) :
    commanded (first ++ second) =
      ((second.filterMap throttleOf?).getLast?).getD (commanded first) := by
  simp only [commanded, List.filterMap_append, List.getLast?_append]
  cases (second.filterMap throttleOf?).getLast? <;> rfl

/-- Something that happens in a session.  The commands of a script may come one by one, each with
what the script remembers. -/
inductive Happening where
  | action (a : Action)
  | command (plan : Script.Plan) (run : Script.Run) (c : Script.Command)

def Stand.log (stand : Stand) : List String := (stand.port.map Port.written).getD []

namespace Session

def happen (s : Session) : Happening → Session
  | .action a => (s.act a).session
  | .command plan run c => s.obey plan run c

def after (s : Session) (history : List Happening) : Session := history.foldl happen s

theorem after_snoc (s : Session) (history : List Happening) (x : Happening) :
    s.after (history ++ [x]) = (s.after history).happen x := by
  simp [after]

def delivered (s : Session) (text : String) : List String :=
  (s.stand.port.map fun p => p.delivered text).getD []

theorem delivered_cases (s : Session) (text : String) :
    s.delivered text = [] ∨ s.delivered text = [text ++ "\n"] := by
  unfold delivered
  cases s.stand.port with
  | none => exact .inl rfl
  | some p =>
      simp only [Option.map_some, Option.getD_some, Port.delivered]
      split
      · exact .inr rfl
      · exact .inl rfl

def commandTexts (s : Session) (run : Script.Run) (c : Script.Command) : List String :=
  if run.abort = false ∧ c.verb = .setThrottle then
    match Script.unpackOne c.data >>= Datum.toWhole with
    | .error _ => []
    | .ok k =>
      if 0 ≤ k ∧ k ≤ 100 then s.delivered (Stand.throttleCommand (.whole k)) else []
  else []

def scriptTexts (plan : Script.Plan) : Session → Script.Run → List Script.Command → List String
  | _, _, [] => []
  | s, run, c :: cs =>
    s.commandTexts run c ++
      match s.attempt plan run c with
      | (_, .error _) => []
      | (done, .ok _) => scriptTexts plan (s.obey plan run c) done cs

end Session

namespace Happening

def stop (position : Int) : Int := max 0 (min 100 position)

def position? : Happening → Option Int
  | .action (.slide position) => some (stop position)
  | _ => none

def texts (s : Session) : Happening → List String
  | .action (.slide position) =>
    if stop position = s.throttle then []
    else s.delivered (Stand.throttleCommand (.whole (stop position)))
  | .action .submit => s.delivered (Text.trim s.input)
  | .action (.runScript feed pressAtWait) =>
    match s.panel.thread with
    | none => []
    | some thread =>
      match thread.script.read s.panel.otherText with
      | .error _ => []
      | .ok script =>
        let run := Script.Run.begin s.stand s.clock
        Session.scriptTexts (s.scriptPlan feed pressAtWait) (s.handedBack run) run script
  | .action _ => []
  | .command _ run c => s.commandTexts run c

def order? (s : Session) (x : Happening) : Option Nat :=
  ((x.texts s).filterMap throttleOf?).getLast?

/-- Whether the slider stands where the stand was told to be, if something has a say in that. -/
def settles? (s : Session) (x : Happening) : Option Bool :=
  match x.position?, x.order? s with
  | none, none => none
  -- a move that does not reach the stand, or leaves the slider where it is
  | some position, none => some (position = commanded s.sent)
  | some position, some k => some (position = k)
  -- a command that does not come from the slider
  | none, some k => some (s.throttle = k)

theorem stop_inside (position : Int) : 0 ≤ stop position ∧ stop position ≤ 100 := by
  unfold stop
  omega

theorem settles?_of_delivered {s : Session} {position : Int}
    (delivered : (action (.slide position)).texts s ≠ []) :
    (action (.slide position)).settles? s = some true := by
  obtain ⟨n, natural⟩ := Int.eq_ofNat_of_zero_le (stop_inside position).1
  have ordered : (action (.slide position)).order? s = some n := by
    simp only [texts] at delivered
    split at delivered
    · exact absurd rfl delivered
    · rename_i moved
      have whole := (s.delivered_cases _).resolve_left delivered
      have text := Script.throttleCommand_whole n
      rw [← natural] at text
      simp only [order?, texts, if_neg moved, whole, text, List.filterMap_cons,
        throttleOf?_throttleText, List.filterMap_nil, List.getLast?_singleton]
  simp [settles?, position?, ordered, natural]

end Happening

namespace Session

structure Follows (s : Session) (texts : List String) (position : Int) (s' : Session) : Prop where
  sent : s'.sent = s.sent ++ texts
  log : s'.stand.log <:+ s.stand.log ++ texts
  throttle : s'.throttle = position
  columns : s.recorder.InColumns → s'.recorder.InColumns

theorem Follows.still {s s' : Session} (sent : s'.sent = s.sent)
    (log : s'.stand.log = s.stand.log) (throttle : s'.throttle = s.throttle)
    (columns : s.recorder.InColumns → s'.recorder.InColumns) : s.Follows [] s.throttle s' where
  sent := by simp [sent]
  log := by simp [log]
  throttle := throttle
  columns := columns

theorem Follows.trans {s s' s'' : Session} {texts later : List String} {position : Int}
    (first : s.Follows texts position s') (second : s'.Follows later s'.throttle s'') :
    s.Follows (texts ++ later) position s'' where
  sent := by rw [second.sent, first.sent, List.append_assoc]
  log := by
    obtain ⟨old, split⟩ := first.log
    rw [← List.append_assoc, ← split, List.append_assoc]
    exact second.log.trans (List.suffix_append _ _)
  throttle := by rw [second.throttle, first.throttle]
  columns := fun kept => second.columns (first.columns kept)

theorem announce_follows (s : Session) (a : Option Announcement) :
    s.Follows [] s.throttle (s.announce a).1 := by
  cases a <;> exact .still rfl rfl rfl id

theorem record_follows {s : Session} {row : List (String × Datum)}
    (named : row.map Prod.fst = Recorder.columns) :
    s.Follows [] s.throttle (s.record row).1 :=
  .still rfl rfl rfl fun kept => kept.add named

structure Shown (s : Session) (events : List Script.Event) (s' : Session) : Prop where
  stand : s'.stand = s.stand
  sent : s'.sent = s.sent ++ Script.sentBy events
  throttle : s'.throttle = s.throttle
  columns : s.recorder.InColumns → s'.recorder.InColumns

theorem replay_shown (s : Session) (e : Script.Event) : s.Shown [e] (s.replay e).1 := by
  cases e with
  | sent text => exact ⟨rfl, rfl, rfl, id⟩
  | heard announcement =>
      cases announcement <;> exact ⟨rfl, (List.append_nil _).symm, rfl, id⟩
  | point p => exact ⟨rfl, (List.append_nil _).symm, rfl, fun kept => kept.add rfl⟩
  | waited | printed => exact ⟨rfl, (List.append_nil _).symm, rfl, id⟩

theorem replayAll_shown (events : List Script.Event) : ∀ s : Session,
    s.Shown events (s.replayAll events).1 := by
  induction events with
  | nil => intro s; exact ⟨rfl, (List.append_nil _).symm, rfl, id⟩
  | cons e events ih =>
      intro s
      have first := s.replay_shown e
      have rest := ih (s.replay e).1
      refine ⟨rest.stand.trans first.stand, ?_, rest.throttle.trans first.throttle,
        fun kept => rest.columns (first.columns kept)⟩
      have split : Script.sentBy (e :: events) = Script.sentBy [e] ++ Script.sentBy events :=
        Script.sentBy_append [e] events
      rw [split, ← List.append_assoc, ← first.sent]
      exact rest.sent

theorem attempt_texts (s : Session) (plan : Script.Plan) (run : Script.Run) (c : Script.Command) :
    Script.sentBy (s.attempt plan run c).1.events = s.commandTexts run c ∧
      (s.attempt plan run c).1.stand.log = s.stand.log ++ s.commandTexts run c := by
  let fresh : Script.Run := { run with stand := s.stand, clock := s.clock, events := [] }
  have quiet {done : Script.Run} {result : Except Fault Datum}
      (ended : s.attempt plan run c = (done, result)) (port : done.stand.port = s.stand.port)
      (events : Script.sentBy done.events = []) (none : s.commandTexts run c = []) :
      Script.sentBy (s.attempt plan run c).1.events = s.commandTexts run c ∧
        (s.attempt plan run c).1.stand.log = s.stand.log ++ s.commandTexts run c := by
    rw [ended, events, none, List.append_nil, Stand.log, Stand.log, port]
    exact ⟨rfl, rfl⟩
  cases running : run.abort with
  | true =>
      have halted : s.attempt plan run c = (fresh, .error .aborted) :=
        Script.Run.perform_of_cancelled (r := fresh) running plan c.verb c.data
      exact quiet halted rfl rfl (by simp [commandTexts, running])
  | false =>
      have going : s.attempt plan run c = fresh.act plan c.verb c.data :=
        Script.Run.perform_of_running (r := fresh) running plan c.verb c.data
      by_cases kind : c.verb = .setThrottle
      · have set : s.attempt plan run c = fresh.setThrottle c.data := by
          rw [going, kind]
          rfl
        cases value : Script.unpackOne c.data >>= Datum.toWhole with
        | error fault =>
            rw [Script.Run.setThrottle_unread value] at set
            exact quiet set rfl rfl (by simp [commandTexts, running, kind, value])
        | ok k =>
            by_cases inside : 0 ≤ k ∧ k ≤ 100
            · cases connected : s.stand.port with
              | none =>
                  rw [Script.Run.setThrottle_unconnected (r := fresh) value inside connected] at set
                  refine quiet set rfl rfl ?_
                  simp [commandTexts, running, kind, value, delivered, connected]
              | some p =>
                  rw [Script.Run.setThrottle_inside (r := fresh) value inside connected] at set
                  rw [set]
                  simp [commandTexts, running, kind, value, inside, delivered, connected,
                    Stand.log, fresh, Script.sentBy_sent]
            · rw [Script.Run.setThrottle_outside value inside] at set
              exact quiet set rfl rfl (by simp [commandTexts, running, kind, value, inside])
      · have deed := Script.Run.act_deed plan fresh c.verb c.data
        obtain ⟨port, events⟩ := deed.silent kind
        exact quiet going port events (by simp [commandTexts, kind])

theorem obey_follows (s : Session) (plan : Script.Plan) (run : Script.Run) (c : Script.Command) :
    s.Follows (s.commandTexts run c) s.throttle (s.obey plan run c) := by
  obtain ⟨sent, log⟩ := s.attempt_texts plan run c
  have shown := replayAll_shown (s.attempt plan run c).1.events s
  refine ⟨?_, ?_, shown.throttle, shown.columns⟩
  · rw [← sent]
    exact shown.sent
  · rw [← log]
    exact List.suffix_rfl

theorem obeyAll_follows (plan : Script.Plan) (script : List Script.Command) : ∀ (s : Session)
    (run : Script.Run),
    s.Follows (scriptTexts plan s run script) s.throttle (obeyAll plan s run script) := by
  induction script with
  | nil => intro s run; exact .still rfl rfl rfl id
  | cons c cs ih =>
      intro s run
      have first := s.obey_follows plan run c
      generalize step : s.attempt plan run c = result
      obtain ⟨done, outcome⟩ := result
      cases outcome with
      | error fault => simpa only [scriptTexts, obeyAll, step, List.append_nil] using first
      | ok value =>
          simp only [scriptTexts, obeyAll, step]
          exact first.trans (ih (s.obey plan run c) done)

theorem runScript_follows (s : Session) (feed : List (List String)) (pressAtWait : Option Nat) :
    s.Follows ((Happening.action (.runScript feed pressAtWait)).texts s) s.throttle
      (s.runScript feed pressAtWait).session := by
  cases started : s.panel.thread with
  | none =>
      simp only [Happening.texts, runScript, started]
      exact .still rfl rfl rfl id
  | some thread =>
      cases read : thread.script.read s.panel.otherText with
      | error fault =>
          simp only [Happening.texts, runScript, started, read]
          exact .still rfl rfl rfl id
      | ok script =>
          have whole := s.runScript_eq_obeyAll started read feed pressAtWait
          have carried := obeyAll_follows (s.scriptPlan feed pressAtWait) script
            (s.handedBack (.begin s.stand s.clock)) (.begin s.stand s.clock)
          rw [whole]
          simp only [Happening.texts, started, read]
          exact ⟨carried.sent, carried.log, carried.throttle, carried.columns⟩

theorem stopReading_follows (s : Session) (link : Link) :
    s.Follows [] s.throttle (s.stopReading link).1 := by
  cases connected : s.stand.port with
  | none =>
      simp only [stopReading, Stand.disconnect, connected]
      exact .still rfl rfl rfl id
  | some p =>
      simp only [stopReading, Stand.disconnect, connected]
      refine .still rfl ?_ rfl id
      simp [Stand.log, connected, Port.close, tell]

theorem readLine_log {stand stand' : Stand} {read : Option Stand.LineRead}
    (taken : stand.readLine = .ok (stand', read)) : stand'.log = stand.log := by
  cases connected : stand.port with
  | none => simp [Stand.readLine, connected] at taken
  | some p =>
      simp only [Stand.readLine, connected] at taken
      split at taken
      · cases taken
      · split at taken
        · cases taken
          rfl
        · cases taken
          simp [Stand.log, connected]

theorem readLines_follows (link : Link) (bound : Nat) : ∀ s : Session,
    s.Follows [] s.throttle (readLines link bound s).session := by
  induction bound with
  | zero => intro s; exact .still rfl rfl rfl id
  | succ bound ih =>
      intro s
      unfold readLines
      split
      · exact s.stopReading_follows link
      · exact s.stopReading_follows link
      · exact .still rfl rfl rfl id
      · rename_i stand read taken
        have first : s.Follows [] s.throttle { s with stand } :=
          .still rfl (readLine_log taken) rfl id
        split
        · exact first
        · rename_i announcement _
          have told : s.Follows [] s.throttle
              (({ s with stand }.announce announcement).1.tell read.line) :=
            (first.trans (announce_follows _ announcement)).trans (.still rfl rfl rfl id)
          exact told.trans (ih _)

theorem open_follows (s : Session) (works : Bool) (bytes : List UInt8) :
    let (stand, opened) := s.stand.connect works
    s.Follows [] s.throttle { s with stand := if opened then stand.deliver bytes else stand } := by
  cases works with
  | false => exact .still rfl rfl rfl id
  | true => exact ⟨by simp, List.nil_suffix, rfl, id⟩

theorem serve_follows (s : Session) (works : Bool) (bytes : List UInt8) :
    s.Follows [] s.throttle (s.serve works bytes).session := by
  have opened := s.open_follows works bytes
  unfold serve
  split
  · exact .still rfl rfl rfl id
  · rename_i link linked
    generalize s.stand.connect works = result at opened ⊢
    obtain ⟨stand, worked⟩ := result
    simp only at opened ⊢
    have told (text : String) : s.Follows [] s.throttle
        (tell { s with stand := if worked then stand.deliver bytes else stand } text) :=
      opened.trans (.still rfl rfl rfl id)
    by_cases running : link.running = true
    · rw [if_pos running]
      exact ((told _).trans (readLines_follows link _ _)).trans (.still rfl rfl rfl id)
    · rw [if_neg running]
      exact opened.trans (.still rfl rfl rfl id)

theorem send_delivered {s : Session} {p : Port} (connected : s.stand.port = some p)
    (text : String) :
    ∃ stand, s.stand.send (.text text) = .ok stand ∧
      written s.stand stand = s.delivered text ∧ stand.log = s.stand.log ++ s.delivered text := by
  refine ⟨_, by simp only [Stand.send, connected]; rfl, ?_, ?_⟩
  · simp [written, connected, Port.write_text, delivered]
  · simp [Stand.log, connected, Port.write_text, delivered]

theorem slide_follows (s : Session) (position : Int) :
    s.Follows ((Happening.action (.slide position)).texts s) (Happening.stop position)
      (s.slide position).session := by
  have stopped : max 0 (min 100 position) = Happening.stop position := rfl
  simp only [Happening.texts, slide, stopped]
  by_cases same : Happening.stop position = s.throttle
  · simp only [same, if_true]
    exact .still rfl rfl rfl id
  · have inside := Happening.stop_inside position
    simp only [same, if_false, s.stand.setThrottle_inside inside]
    cases connected : s.stand.port with
    | none =>
        simp only [Stand.send, connected, delivered]
        exact ⟨by simp, by simp, rfl, id⟩
    | some p =>
        obtain ⟨stand, worked, new, log⟩ := send_delivered connected
          (Stand.throttleCommand (.whole (Happening.stop position)))
        simp only [worked, new]
        exact ⟨rfl, log ▸ List.suffix_rfl, rfl, id⟩

theorem submit_follows (s : Session) :
    s.Follows ((Happening.action .submit).texts s) s.throttle s.submit.session := by
  simp only [Happening.texts, submit]
  cases connected : s.stand.port with
  | none =>
      simp only [Stand.send, connected, delivered]
      exact .still rfl rfl rfl id
  | some p =>
      obtain ⟨stand, worked, new, log⟩ := send_delivered connected (Text.trim s.input)
      simp only [worked, new]
      exact ⟨rfl, log ▸ List.suffix_rfl, rfl, id⟩

theorem hear_follows (s : Session) (line : String) :
    s.Follows [] s.throttle (s.hear line).session := by
  cases outcome : (s.stand.board.decode line).2 with
  | error fault =>
      simp only [hear, outcome]
      exact .still rfl rfl rfl id
  | ok announcement =>
      have taken : s.Follows [] s.throttle
          { s with stand := { s.stand with board := (s.stand.board.decode line).1 } } :=
        .still rfl rfl rfl id
      simp only [hear, outcome]
      exact taken.trans (announce_follows _ announcement)

theorem addPoint_follows (s : Session) (timer throttle : Datum) :
    s.Follows [] s.throttle (s.addPoint timer throttle).1 :=
  record_follows rfl

theorem happen_follows (s : Session) (x : Happening) :
    s.Follows (x.texts s) (x.position?.getD s.throttle) (s.happen x) := by
  cases x with
  | command plan run c => exact s.obey_follows plan run c
  | action a =>
      cases a with
      | slide position => exact s.slide_follows position
      | submit => exact s.submit_follows
      | runScript feed pressAtWait => exact s.runScript_follows feed pressAtWait
      | serve works bytes => exact s.serve_follows works bytes
      | hear line => exact s.hear_follows line
      | savePoint => exact s.addPoint_follows .nothing .nothing
      | addPoint timer throttle => exact s.addPoint_follows timer throttle
      | tickRecording =>
          simp only [happen, act]
          split
          · exact s.addPoint_follows .nothing .nothing
          · exact .still rfl rfl rfl id
      | connect =>
          simp only [happen, act, connect]
          split
          · exact .still rfl rfl rfl id
          · exact .still rfl rfl rfl id
      | attach => exact ⟨(List.append_nil _).symm, List.nil_suffix, rfl, id⟩
      | closeMonitor =>
          simp only [happen, act, closeMonitor]
          split
          · exact .still rfl rfl rfl id
          · exact s.stopReading_follows _
      | tickStopwatch =>
          simp only [happen, act, tickStopwatch]
          split
          · exact .still rfl rfl rfl id
          · exact .still rfl rfl rfl id
      | toggleRecording => exact .still rfl rfl rfl .toggle
      | clearPoints => exact .still rfl rfl rfl fun _ => .clear s.recorder
      | «show» | switchTheme | offer | refresh | tell | typeInput | suppress | scroll | zero
        | zeroAll | advance | pressStopwatch | resetStopwatch | chooseScript | chooseOtherScript
        | pressScript => exact .still rfl rfl rfl id

theorem happen_agrees (s : Session) (x : Happening) :
    ((s.happen x).throttle = commanded (s.happen x).sent) =
      match x.settles? s with
      | some agreed => agreed = true
      | none => s.throttle = commanded s.sent := by
  have step := s.happen_follows x
  have told : commanded (s.happen x).sent = (x.order? s).getD (commanded s.sent) := by
    rw [step.sent, commanded_append]
    rfl
  rw [step.throttle, told]
  cases moved : x.position? with
  | none =>
      cases ordered : x.order? s with
      | none => simp [Happening.settles?, moved, ordered]
      | some k => simp [Happening.settles?, moved, ordered]
  | some position =>
      cases ordered : x.order? s with
      | none => simp [Happening.settles?, moved, ordered]
      | some k => simp [Happening.settles?, moved, ordered]

/-- Have the slider and the throttle of the stand come apart?  What had a say in it last decides. -/
def Drifted (s : Session) (history : List Happening) : Prop :=
  latest? (fun before x => x.settles? (s.after before)) history = some false

instance (s : Session) (history : List Happening) : Decidable (s.Drifted history) :=
  inferInstanceAs (Decidable (_ = some false))

def slid (history : List Happening) : Int :=
  (history.filterMap Happening.position?).getLast?.getD 0

theorem slid_inside (history : List Happening) : 0 ≤ slid history ∧ slid history ≤ 100 := by
  unfold slid
  cases last : (history.filterMap Happening.position?).getLast? with
  | none => simp
  | some position =>
      obtain ⟨x, _, moved⟩ := List.mem_filterMap.mp (List.mem_of_getLast? last)
      unfold Happening.position? at moved
      split at moved
      · cases moved
        exact Happening.stop_inside _
      · cases moved

structure Reached (history : List Happening) (s : Session) : Prop where
  log : s.stand.log <:+ s.sent
  throttle : s.throttle = slid history
  columns : s.recorder.InColumns

theorem reached_after (ports : List String) (clock : Clock) (history : List Happening) :
    Reached history ((start ports clock).after history) := by
  induction history using List.reverseRecOn with
  | nil => exact ⟨List.nil_suffix, rfl, .empty⟩
  | append_singleton history x ih =>
      have step := ((start ports clock).after history).happen_follows x
      rw [after_snoc]
      refine ⟨?_, ?_, step.columns ih.columns⟩
      · obtain ⟨earlier, whole⟩ := ih.log
        rw [step.sent, ← whole, List.append_assoc]
        exact step.log.trans (List.suffix_append _ _)
      · rw [step.throttle, ih.throttle, slid, slid, List.filterMap_append, List.getLast?_append]
        cases moved : x.position? <;> simp [moved]

theorem not_drifted_iff (ports : List String) (clock : Clock) (history : List Happening) :
    ¬(start ports clock).Drifted history ↔
      ((start ports clock).after history).throttle =
        commanded ((start ports clock).after history).sent := by
  induction history using List.reverseRecOn with
  | nil => simp [Drifted, after, start, commanded]
  | append_singleton history x ih =>
      simp only [Drifted, after_snoc, latest?_snoc, happen_agrees] at ih ⊢
      cases x.settles? ((start ports clock).after history) with
      | none => exact ih
      | some agreed => cases agreed <;> simp

/-- Does an action add a row by hand?  The clock does so while points are recorded by it. -/
def AddsByHand (s : Session) (a : Action) : Prop :=
  a = .savePoint ∨ a = .tickRecording ∧ s.recorder.recording = true

theorem act_of_addsByHand {s : Session} {a : Action} (byHand : s.AddsByHand a) :
    s.act a = s.savePoint := by
  rcases byHand with rfl | ⟨rfl, recording⟩
  · rfl
  · simp [act, recording]

theorem savePoint_throttle {s : Session} (kept : s.recorder.InColumns)
    (inside : 0 ≤ s.throttle ∧ s.throttle ≤ 100) :
    let after := s.savePoint.session.recorder
    after.sheet.height = s.recorder.sheet.height + 1 ∧
      (∃ cell, after.sheet.last? "Throttle" = some cell ∧ cell.Stores s.throttle) ∧
      (s.savePoint.reported = [] →
        ∃ cell, after.table.last? "Throttle" = some cell ∧ cell.Stores s.throttle) := by
  have alone : Sheet.Datasheet.single
      (Datum.ofNumber? ((s.stopwatch.value s.clock).map Number.whole)) =
        .ok (Datum.ofNumber? ((s.stopwatch.value s.clock).map Number.whole)) := by
    cases s.stopwatch.value s.clock <;> rfl
  have small : Sheet.Form.ofWhole s.throttle = .whole := by
    have bound : Int.pow 2 63 = 9223372036854775808 := by decide
    simp only [Sheet.Form.ofWhole, bound]
    rw [if_pos (by omega)]
  obtain ⟨height, sheet, table⟩ := Recorder.add_throttle kept s.stand.board.value alone small
  refine ⟨height, sheet, fun accepted => table ?_⟩
  exact Option.toList_eq_nil_iff.mp accepted

end Session

/-- A row that is added by hand, whatever happened before, has the last position of the slider as
its throttle.  That is the throttle which was written to the port last exactly if the two have not
come apart.  A move of the slider that reaches the stand brings them together. -/
theorem hand_row_commanded_iff (ports : List String) (clock : Clock) (history : List Happening)
    (a : Action) (byHand : ((Session.start ports clock).after history).AddsByHand a) :
    let s := (Session.start ports clock).after history
    let after := (s.act a).session.recorder
    let carries (cell : Datum) : Prop :=
      cell.Stores (Session.slid history) ∧
        (cell.equals (.whole (commanded s.sent)) = true ↔
          ¬(Session.start ports clock).Drifted history)
    s.stand.log <:+ s.sent ∧
      after.sheet.height = s.recorder.sheet.height + 1 ∧
      (∃ cell, after.sheet.last? "Throttle" = some cell ∧ carries cell) ∧
      ((s.act a).reported = [] →
        ∃ cell, after.table.last? "Throttle" = some cell ∧ carries cell) ∧
      ∀ position, (Happening.action (.slide position)).texts s ≠ [] →
        ¬(Session.start ports clock).Drifted (history ++ [.action (.slide position)]) := by
  intro s after carries
  have reached := Session.reached_after ports clock history
  have inside := Session.slid_inside history
  have judged (cell : Datum) (stored : cell.Stores s.throttle) : carries cell := by
    rw [reached.throttle] at stored
    refine ⟨stored, ?_⟩
    have size : (Session.slid history).natAbs < Nat.pow 2 53 := by
      have bound : Nat.pow 2 53 = 9007199254740992 := by decide
      omega
    have agreed := Session.not_drifted_iff ports clock history
    rw [reached.throttle] at agreed
    exact (stored.equals_iff size _).trans agreed.symm
  rw [← reached.throttle] at inside
  obtain ⟨height, sheet, table⟩ := Session.savePoint_throttle reached.columns inside
  have saved : s.act a = s.savePoint := Session.act_of_addsByHand byHand
  simp only [after, saved]
  refine ⟨reached.log, height, ?_, fun accepted => ?_, fun position delivered => ?_⟩
  · obtain ⟨cell, found, stored⟩ := sheet
    exact ⟨cell, found, judged cell stored⟩
  · obtain ⟨cell, found, stored⟩ := table accepted
    exact ⟨cell, found, judged cell stored⟩
  · rw [Session.Drifted, latest?_snoc, Happening.settles?_of_delivered delivered]
    simp

def overtaken : List Happening :=
  [.action .attach, .action (.slide 30),
    .command {} (.begin {} {}) ⟨.setThrottle, ["70".toList]⟩]

theorem hand_row_commanded_iff_overtaken :
    (Session.start [] {}).Drifted overtaken ∧
      ((Session.start [] {}).after overtaken).AddsByHand .savePoint ∧
      commanded ((Session.start [] {}).after overtaken).sent = 70 ∧
      ∃ cell, (((Session.start [] {}).after overtaken).act .savePoint).session.recorder.sheet.last?
        "Throttle" = some cell ∧ cell.Stores 30 ∧ cell.equals (.whole 70) = false := by
  have drifted : (Session.start [] {}).Drifted overtaken := by decide +kernel
  have told : commanded ((Session.start [] {}).after overtaken).sent = 70 := by decide +kernel
  have byHand : ((Session.start [] {}).after overtaken).AddsByHand .savePoint := .inl rfl
  obtain ⟨_, _, ⟨cell, found, stored, right⟩, _⟩ :=
    hand_row_commanded_iff [] {} overtaken .savePoint byHand
  refine ⟨drifted, byHand, told, cell, found, stored, ?_⟩
  rw [told] at right
  have wrong : cell.equals (.whole 70) ≠ true := fun equal => right.mp equal drifted
  exact Bool.eq_false_iff.mpr wrong

end ThrustBench
