import Mathlib.Data.List.Count
import Mathlib.Data.List.Induction
import ThrustBench.Proofs.Latest
import ThrustBench.Proofs.Running

/-!
Commands and the ports they reach.  The port that lines are read from and the port that commands are
written to are held in two places, and ports that were opened before may still be there; a command
reaches the port that was opened last, while that is open and writing works, and no other.
-/

namespace ThrustBench

/-- A message by its code points, not all of which need be characters. -/
structure Message where
  points : List Nat
  deriving DecidableEq

namespace Message

def ofText (s : String) : Message := ⟨s.toList.map Char.toNat⟩

def Encodable (m : Message) : Prop := ∀ point ∈ m.points, point.isValidChar

instance (m : Message) : Decidable m.Encodable := inferInstanceAs (Decidable (∀ _ ∈ _, _))

def text (m : Message) : String := String.ofList (m.points.map Char.ofNat)

def utf8 (m : Message) : List UInt8 :=
  m.points.flatMap fun point => String.utf8EncodeChar (Char.ofNat point)

def outgoing (m : Message) : Outgoing :=
  if m.Encodable then .text m.text else .unencodable m.points

theorem encodable_ofText (s : String) : (ofText s).Encodable := by
  intro point member
  obtain ⟨c, _, rfl⟩ := List.mem_map.mp member
  exact c.valid

theorem text_ofText (s : String) : (ofText s).text = s := by
  simp [text, ofText, Function.comp_def]

theorem utf8_text (m : Message) : m.text.toUTF8.data.toList = m.utf8 := by
  simp [text, utf8, String.toUTF8, List.utf8Encode, List.flatMap_map]

end Message

inductive Occurrence where
  | connect (works : Bool)
  | throttle (n : Int)
  | send (m : Message)
  | disconnect
  | setFailing (failing : Bool)
  | receive (bytes : List UInt8)
  | readLine
  | hear (line : String)
  | zero (channel : Channel)
  deriving DecidableEq

namespace Occurrence

def message? : Occurrence → Option Message
  | .send m => some m
  | .throttle n =>
    if 0 ≤ n ∧ n ≤ 100 then some (.ofText (Stand.throttleCommand (.whole n))) else none
  | _ => none

def sendable (o : Occurrence) : List Message :=
  (o.message?.filter fun m => decide m.Encodable).toList

def failing? : Occurrence → Option Bool
  | .setFailing failing => some failing
  | _ => none

def isReading : Occurrence → Bool
  | .readLine | .hear _ | .zero _ => true
  | _ => false

end Occurrence

/-- Does a port write, given what happened since it was opened? -/
def Writes (since : List Occurrence) : Prop :=
  .disconnect ∉ since ∧ latest? (fun _ o => o.failing?) since ≠ some true

instance (since : List Occurrence) : Decidable (Writes since) := inferInstanceAs (Decidable (_ ∧ _))

def carriedAt (since : List Occurrence) (o : Occurrence) : List Message :=
  if Writes since then o.sendable else []

def carriedFrom (since : List Occurrence) : List Occurrence → List Message
  | [] => []
  | o :: later => carriedAt since o ++ carriedFrom (since ++ [o]) later

def carried (since : List Occurrence) : List Message := carriedFrom [] since

theorem carriedFrom_snoc (later : List Occurrence) (last : Occurrence) :
    ∀ since, carriedFrom since (later ++ [last]) =
      carriedFrom since later ++ carriedAt (since ++ later) last := by
  induction later with
  | nil => intro since; simp [carriedFrom]
  | cons o later ih =>
      intro since
      simp [carriedFrom, ih]

theorem carried_snoc (since : List Occurrence) (last : Occurrence) :
    carried (since ++ [last]) = carried since ++ carriedAt since last :=
  carriedFrom_snoc since last []

namespace Stand

def keep (s : Stand) : Except Fault Stand → Stand × Except Fault Datum
  | .ok s' => (s', .ok .nothing)
  | .error fault => (s, .error fault)

def handle (s : Stand) : Occurrence → Stand × Except Fault Datum
  | .connect works => ((s.connect works).1, .ok (.flag (s.connect works).2))
  | .throttle n => s.keep (s.setThrottle (.whole n))
  | .send m => s.keep (s.send m.outgoing)
  | .disconnect =>
    match s.disconnect with
    | .ok (s', wasOpen) => (s', .ok (.flag wasOpen))
    | .error fault => (s, .error fault)
  | .setFailing failing => s.keep (s.setFailing failing)
  | .receive bytes => s.keep (s.receive bytes)
  | .readLine =>
    match s.readLine with
    | .ok (s', none) => (s', .ok .nothing)
    | .ok (s', some read) => (s', read.outcome.map fun _ => .text read.line)
    | .error fault => (s, .error fault)
  | .hear line =>
    ({ s with board := (s.board.decode line).1 }, (s.board.decode line).2.map fun _ => .nothing)
  | .zero channel => (s.zero channel, .ok .nothing)

def after (history : List Occurrence) : Stand :=
  history.foldl (fun s o => (s.handle o).1) {}

theorem after_snoc (history : List Occurrence) (o : Occurrence) :
    after (history ++ [o]) = ((after history).handle o).1 := by
  simp [after]

theorem setThrottle_beyond (s : Stand) {n : Int} (beyond : ¬(0 ≤ n ∧ n ≤ 100)) :
    s.setThrottle (.whole n) = .error .throttleRange := by
  have judged : outsideThrottle (.whole n) = .ok true := by
    by_cases below : n < 0
    · simp [outsideThrottle, Datum.lt, Datum.number?, Number.whole_lt_whole, below, bind,
        Except.bind, pure, Except.pure]
    · have above : 100 < n := by omega
      simp [outsideThrottle, Datum.lt, Datum.number?, Number.whole_lt_whole, below, above, bind,
        Except.bind]
  simp [setThrottle, judged, bind, Except.bind]

def portAfter (p : Port) : Occurrence → Port
  | .connect works => if works then {} else p
  | .disconnect => { p with isOpen := false }
  | .setFailing failing => { p with failing }
  | .receive bytes => { p with pending := p.pending ++ bytes }
  | .readLine => if p.isOpen then { p with pending := (Port.cutLine p.pending).2 } else p
  | .hear _ | .zero _ => p
  | o =>
    if p.isOpen && !p.failing then
      { p with written := p.written ++ o.sendable.map fun m => m.text ++ "\n" }
    else p

theorem write_outgoing (p : Port) (m : Message) :
    (p.write m.outgoing).1 =
      if p.isOpen && !p.failing then
        { p with written := p.written ++ (Occurrence.send m).sendable.map fun m => m.text ++ "\n" }
      else p := by
  by_cases encodable : m.Encodable
  · have sendable : (Occurrence.send m).sendable = [m] := by
      simp [Occurrence.sendable, Occurrence.message?, Option.filter, encodable]
    simp only [Message.outgoing, encodable, if_true, Port.write, sendable]
    split <;> rfl
  · have sendable : (Occurrence.send m).sendable = [] := by
      simp [Occurrence.sendable, Occurrence.message?, Option.filter, encodable]
    simp [Message.outgoing, encodable, Port.write, sendable]

theorem handle_port {s : Stand} {p : Port} (connected : s.port = some p) (o : Occurrence) :
    (s.handle o).1.port = some (portAfter p o) := by
  cases o with
  | connect works => cases works <;> simp [handle, connect, portAfter, connected]
  | throttle n =>
      by_cases inside : 0 ≤ n ∧ n ≤ 100
      · have sent := write_outgoing p (.ofText (throttleCommand (.whole n)))
        simp only [Message.outgoing, Message.encodable_ofText, Message.text_ofText, if_true] at sent
        have same : (Occurrence.throttle n).sendable =
            (Occurrence.send (.ofText (throttleCommand (.whole n)))).sendable := by
          simp [Occurrence.sendable, Occurrence.message?, inside]
        simp only [handle, keep, s.setThrottle_inside inside, send, connected, sent, portAfter, same]
      · simp [handle, keep, s.setThrottle_beyond inside, portAfter, Occurrence.sendable,
          Occurrence.message?, inside, connected]
  | send m => simp only [handle, keep, send, connected, write_outgoing, portAfter]
  | disconnect => simp [handle, disconnect, connected, Port.close, portAfter]
  | setFailing failing => simp [handle, keep, setFailing, connected, portAfter]
  | receive bytes => simp [handle, keep, receive, deliver, connected, Port.receive, portAfter]
  | readLine =>
      by_cases isOpen : p.isOpen = true
      · by_cases empty : p.pending = []
        · have same : { p with pending := (Port.cutLine p.pending).2 } = p := by
            rw [empty]
            exact congrArg (fun pending => { p with pending }) empty.symm
          have idle : s.readLine = .ok (s, none) := by simp [readLine, connected, isOpen, empty]
          have calm : portAfter p .readLine = p := by rw [portAfter, if_pos isOpen, same]
          simp only [handle, idle, calm, connected]
        · simp [handle, readLine, connected, isOpen, empty, portAfter]
      · simp [handle, readLine, connected, isOpen, portAfter]
  | hear line => simp [handle, portAfter, connected]
  | zero channel => simp [handle, zero, portAfter, connected]

theorem handle_none {s : Stand} (unconnected : s.port = none) {o : Occurrence}
    (other : o ≠ .connect true) : (s.handle o).1.port = none := by
  cases o with
  | connect works =>
      cases works with
      | true => exact absurd rfl other
      | false => simp [handle, connect, unconnected]
  | throttle n =>
      by_cases inside : 0 ≤ n ∧ n ≤ 100
      · simp [handle, keep, s.setThrottle_inside inside, send, unconnected]
      · simp [handle, keep, s.setThrottle_beyond inside, unconnected]
  | send m => simp [handle, keep, send, unconnected]
  | disconnect => simp [handle, disconnect, unconnected]
  | setFailing failing => simp [handle, keep, setFailing, unconnected]
  | receive bytes => simp [handle, keep, receive, unconnected]
  | readLine => simp [handle, readLine, unconnected]
  | hear line => simp [handle, unconnected]
  | zero channel => simp [handle, zero, unconnected]

theorem handle_board (s : Stand) {o : Occurrence} (other : o.isReading = false) :
    (s.handle o).1.board = s.board := by
  cases o with
  | connect works => cases works <;> rfl
  | throttle n =>
      by_cases inside : 0 ≤ n ∧ n ≤ 100
      · cases connected : s.port <;>
          simp [handle, keep, s.setThrottle_inside inside, send, connected]
      · simp [handle, keep, s.setThrottle_beyond inside]
  | send m => cases connected : s.port <;> simp [handle, keep, send, connected]
  | disconnect => cases connected : s.port <;> simp [handle, disconnect, connected]
  | setFailing failing => cases connected : s.port <;> simp [handle, keep, setFailing, connected]
  | receive bytes => cases connected : s.port <;> simp [handle, keep, receive, deliver, connected]
  | readLine | hear | zero => simp [Occurrence.isReading] at other

end Stand

/-- Everything that holds a connection: all ports that were opened, from the first on, which of them
lines are read from, and which of them commands are written to. -/
structure Holders where
  board : Board := {}
  ports : List Port := []
  reader : Option Nat := none
  worker : Option Nat := none

namespace Holders

def view (h : Holders) (holder : Option Nat) : Stand :=
  ⟨h.board, holder.bind fun i => h.ports[i]?⟩

def through (h : Holders) (holder : Option Nat) (o : Occurrence) : Holders × Except Fault Datum :=
  let (s, answer) := (h.view holder).handle o
  let ports := (holder.bind fun i => s.port.map fun p => h.ports.set i p).getD h.ports
  ({ h with board := s.board, ports }, answer)

theorem through_of_same {h : Holders} {holder : Option Nat} {o : Occurrence} {fault : Fault}
    (same : (h.view holder).handle o = (h.view holder, .error fault)) :
    h.through holder o = (h, .error fault) := by
  have ports : (holder.bind fun i =>
      (h.view holder).port.map fun p => h.ports.set i p).getD h.ports = h.ports := by
    cases holder with
    | none => rfl
    | some i =>
        cases found : h.ports[i]? with
        | none => simp [view, found]
        | some p =>
            obtain ⟨bound, here⟩ := List.getElem?_eq_some_iff.mp found
            simp [view, found, ← here]
  simp only [through, same, ports]
  rfl

/-- A connection that works puts a new port into both places.  Commands go by the worker, and all
else by the reader. -/
def handle (h : Holders) (o : Occurrence) : Holders × Except Fault Datum :=
  match o with
  | .connect true =>
    ({ h with
        ports := h.ports ++ [{}]
        reader := some h.ports.length
        worker := some h.ports.length }, .ok (.flag true))
  | .connect false => (h, .ok (.flag false))
  | .throttle _ | .send _ => h.through h.worker o
  | _ => h.through h.reader o

def after (history : List Occurrence) : Holders :=
  history.foldl (fun h o => (h.handle o).1) {}

theorem after_snoc (history : List Occurrence) (o : Occurrence) :
    after (history ++ [o]) = ((after history).handle o).1 := by
  simp [after]

structure Joined (h : Holders) : Prop where
  worker : h.worker = h.reader
  reader : h.reader = if h.ports = [] then none else some (h.ports.length - 1)

theorem Joined.port {h : Holders} (joined : h.Joined) :
    (h.view h.reader).port = h.ports.getLast? := by
  rw [view, joined.reader, List.getLast?_eq_getElem?]
  by_cases none : h.ports = []
  · simp [none]
  · simp [none]

theorem handle_of_joined {h : Holders} (joined : h.Joined) {o : Occurrence}
    (other : o ≠ .connect true) :
    (h.handle o).2 = ((h.view h.reader).handle o).2 ∧
      ((h.handle o).1.board = ((h.view h.reader).handle o).1.board) ∧
      ((h.handle o).1.ports =
        h.ports.dropLast ++ (h.ports.getLast?.map fun p => Stand.portAfter p o).toList) ∧
      (h.handle o).1.reader = h.reader ∧ (h.handle o).1.worker = h.worker := by
  have delegated : h.handle o = h.through h.reader o ∨ o = .connect false := by
    cases o with
    | connect works => cases works <;> simp at other ⊢
    | throttle | send => exact .inl (by rw [handle, joined.worker])
    | _ => exact .inl rfl
  have seen := joined.port
  rcases delegated with same | rfl
  · rw [same]
    refine ⟨rfl, rfl, ?_, rfl, rfl⟩
    rcases List.eq_nil_or_concat h.ports with none | ⟨earlier, p, split⟩
    · simp [through, joined.reader, none]
    · have last : (h.view h.reader).port = some p := by simp [seen, split]
      have written := Stand.handle_port last o
      have holder : h.reader = some earlier.length := by simp [joined.reader, split]
      simp only [through, written]
      simp [holder, split]
  · refine ⟨rfl, rfl, ?_, rfl, rfl⟩
    rcases List.eq_nil_or_concat h.ports with none | ⟨earlier, p, split⟩
    · simp [handle, none]
    · simp [handle, split, Stand.portAfter]

theorem handle_joined {h : Holders} (joined : h.Joined) (o : Occurrence) :
    (h.handle o).1.Joined := by
  by_cases opened : o = .connect true
  · subst opened
    exact ⟨rfl, by simp [handle]⟩
  · obtain ⟨_, _, ports, reader, worker⟩ := handle_of_joined joined opened
    refine ⟨by rw [worker, reader, joined.worker], ?_⟩
    rw [reader, joined.reader, ports]
    rcases List.eq_nil_or_concat h.ports with none | ⟨earlier, p, split⟩
    · simp [none]
    · simp [split]

theorem after_joined (history : List Occurrence) : (after history).Joined := by
  induction history using List.reverseRecOn with
  | nil => exact ⟨rfl, rfl⟩
  | append_singleton history o ih =>
      rw [after_snoc]
      exact handle_joined ih o

theorem view_after (history : List Occurrence) :
    (after history).view (after history).reader = Stand.after history := by
  induction history using List.reverseRecOn with
  | nil => rfl
  | append_singleton history o ih =>
      have joined := after_joined history
      have next := after_joined (history ++ [o])
      rw [Stand.after_snoc, ← ih]
      apply congrArg₂ Stand.mk
      · rw [after_snoc]
        by_cases opened : o = .connect true
        · subst opened
          rfl
        · exact (handle_of_joined joined opened).2.1
      · have seen := next.port
        rw [after_snoc] at seen ⊢
        rw [view] at seen
        refine seen.trans ?_
        by_cases opened : o = .connect true
        · subst opened
          simp [handle, Stand.handle, Stand.connect]
        · rw [(handle_of_joined joined opened).2.2.1]
          rcases List.eq_nil_or_concat (after history).ports with none | ⟨earlier, p, split⟩
          · have unconnected : ((after history).view (after history).reader).port = .none := by
              rw [joined.port, none]
              rfl
            rw [none]
            exact (Stand.handle_none unconnected opened).symm
          · have connected : ((after history).view (after history).reader).port = some p := by
              rw [joined.port, split]
              simp
            rw [split, Stand.handle_port connected]
            simp

theorem after_length (history : List Occurrence) :
    (after history).ports.length = history.count (.connect true) := by
  induction history using List.reverseRecOn with
  | nil => rfl
  | append_singleton history o ih =>
      rw [after_snoc, List.count_append, ← ih]
      by_cases opened : o = .connect true
      · subst opened
        simp [handle]
      · rw [(handle_of_joined (after_joined history) opened).2.2.1]
        rcases List.eq_nil_or_concat (after history).ports with none | ⟨earlier, p, split⟩
        · simp [none, opened]
        · simp [split, opened]

theorem handle_earlier {h : Holders} (joined : h.Joined) (o : Occurrence) {i : Nat}
    (earlier : i + 1 < h.ports.length) : (h.handle o).1.ports[i]? = h.ports[i]? := by
  by_cases opened : o = .connect true
  · subst opened
    exact List.getElem?_append_left (by omega)
  · rw [(handle_of_joined joined opened).2.2.1, List.getElem?_append_left (by simp; omega),
      List.getElem?_dropLast, if_pos (by omega)]

end Holders

structure Port.Since (since : List Occurrence) (p : Port) : Prop where
  isOpen : p.isOpen = decide (.disconnect ∉ since)
  failing : p.failing = (latest? (fun _ o => o.failing?) since).getD false
  written : p.written = (carried since).map fun m => m.text ++ "\n"

theorem Port.Since.writes {since : List Occurrence} {p : Port} (given : p.Since since) :
    (p.isOpen && !p.failing) = decide (Writes since) := by
  rw [given.isOpen, given.failing]
  cases switched : latest? (fun _ o => Occurrence.failing? o) since with
  | none => simp [Writes, switched]
  | some failing => cases failing <;> simp [Writes, switched]

theorem Port.Since.step {since : List Occurrence} {p : Port} (given : p.Since since)
    {o : Occurrence} (other : o ≠ .connect true) : (Stand.portAfter p o).Since (since ++ [o]) := by
  have writes := given.writes
  -- an occurrence that writes nothing and leaves open what is open
  have quiet {q : Port} (isOpen : q.isOpen = (p.isOpen && decide (o ≠ .disconnect)))
      (failing : q.failing = (o.failing?.getD p.failing)) (written : q.written = p.written)
      (silent : o.message? = none) : q.Since (since ++ [o]) := by
    refine ⟨?_, ?_, ?_⟩
    · rw [isOpen, given.isOpen]
      simp [List.mem_append, eq_comm]
    · rw [failing, latest?_snoc, given.failing]
      cases o.failing? <;> rfl
    · rw [written, given.written, carried_snoc, carriedAt]
      simp [Occurrence.sendable, silent]
  have sends {m : Message} (kind : o = .send m ∨ ∃ n, o = .throttle n)
      (after : Stand.portAfter p o =
        if p.isOpen && !p.failing then
          { p with written := p.written ++ o.sendable.map fun m => m.text ++ "\n" }
        else p) : (Stand.portAfter p o).Since (since ++ [o]) := by
    have calm : o.failing? = none ∧ o ≠ .disconnect := by
      rcases kind with rfl | ⟨n, rfl⟩ <;> exact ⟨rfl, by simp⟩
    have kept : (Stand.portAfter p o).isOpen = p.isOpen ∧
        (Stand.portAfter p o).failing = p.failing := by
      rw [after]
      split <;> exact ⟨rfl, rfl⟩
    refine ⟨?_, ?_, ?_⟩
    · rw [kept.1, given.isOpen]
      simp [List.mem_append, calm.2.symm]
    · rw [kept.2, latest?_snoc, given.failing, calm.1]
      rfl
    · rw [after, writes, carried_snoc, carriedAt]
      by_cases open_ : Writes since
      · simp [open_, given.written]
      · simp [open_, given.written]
  cases o with
  | connect works =>
      cases works with
      | true => exact absurd rfl other
      | false => exact quiet (by simp [Stand.portAfter]) rfl rfl rfl
  | throttle n => exact sends (m := ⟨[]⟩) (.inr ⟨n, rfl⟩) rfl
  | send m => exact sends (.inl rfl) rfl
  | disconnect => exact quiet (by simp [Stand.portAfter]) rfl rfl rfl
  | setFailing failing => exact quiet (by simp [Stand.portAfter]) rfl rfl rfl
  | receive bytes => exact quiet (by simp [Stand.portAfter]) rfl rfl rfl
  | readLine =>
      simp only [Stand.portAfter]
      split
      · exact quiet (by simp) rfl rfl rfl
      · exact quiet (by simp) rfl rfl rfl
  | hear line => exact quiet (by simp [Stand.portAfter]) rfl rfl rfl
  | zero channel => exact quiet (by simp [Stand.portAfter]) rfl rfl rfl

namespace Holders

theorem after_since (before : List Occurrence) {since : List Occurrence}
    (single : .connect true ∉ since) :
    ∃ p : Port, (after (before ++ .connect true :: since)).ports = (after before).ports ++ [p] ∧
      p.Since since := by
  induction since using List.reverseRecOn with
  | nil =>
      refine ⟨{}, ?_, rfl, rfl, rfl⟩
      rw [after_snoc]
      rfl
  | append_singleton since o ih =>
      rw [List.mem_append, not_or] at single
      have other : o ≠ .connect true := by
        rintro rfl
        exact single.2 (by simp)
      obtain ⟨p, ports, given⟩ := ih single.1
      refine ⟨Stand.portAfter p o, ?_, given.step other⟩
      rw [← List.cons_append, ← List.append_assoc, after_snoc,
        (handle_of_joined (after_joined _) other).2.2.1, ports]
      simp

theorem after_replaced (history rest : List Occurrence) {i : Nat}
    (bound : i < (after history).ports.length) :
    (after (history ++ .connect true :: rest)).ports[i]? = (after history).ports[i]? := by
  induction rest using List.reverseRecOn with
  | nil =>
      rw [after_snoc]
      exact List.getElem?_append_left bound
  | append_singleton rest o ih =>
      rw [← List.cons_append, ← List.append_assoc, after_snoc, ← ih]
      apply handle_earlier (after_joined _)
      rw [after_length] at bound ⊢
      simp only [List.count_append, List.count_cons_self]
      omega

end Holders

/-- Whatever happened, both places hold the port that was opened last, and the stand is what they
show.  What was written to a port is exactly the messages that were sent from its opening until the
next one, while it was open and writing worked, as far as they have an encoding: each in UTF-8, with
a line feed behind it and in order.  A throttle outside 0 to 100 is refused and changes nothing, nor
does a connection that fails, and readings and offsets change by lines and zeroing only. -/
theorem commands_reach_current_port (history : List Occurrence) :
    let h := Holders.after history
    let s := Stand.after history
    (h.worker = h.reader ∧ h.view h.reader = s ∧ s.port = h.ports.getLast?) ∧
      (∀ before since rest, history = before ++ .connect true :: (since ++ rest) →
        .connect true ∉ since → (rest = [] ∨ rest.head? = some (.connect true)) →
        ∃ p, h.ports[before.count (.connect true)]? = some p ∧
          p.written = (carried since).map (fun m => m.text ++ "\n") ∧
          p.written.flatMap (fun text => text.toUTF8.data.toList) =
            (carried since).flatMap (fun m => m.utf8 ++ [10]) ∧
          (rest = [] → s.port = some p)) ∧
      (∀ n, ¬(0 ≤ n ∧ n ≤ 100) → h.handle (.throttle n) = (h, .error .throttleRange) ∧
        s.handle (.throttle n) = (s, .error .throttleRange)) ∧
      (h.handle (.connect false) = (h, .ok (.flag false)) ∧
        s.handle (.connect false) = (s, .ok (.flag false))) ∧
      ∀ o, o.isReading = false →
        (h.handle o).1.board = h.board ∧ (s.handle o).1.board = s.board := by
  intro h s
  have joined := Holders.after_joined history
  have view : h.view h.reader = s := Holders.view_after history
  have last : s.port = h.ports.getLast? := by rw [← view, joined.port]
  refine ⟨⟨joined.worker, view, last⟩, ?_, ?_, ⟨rfl, rfl⟩, ?_⟩
  · intro before since rest split single stretch
    obtain ⟨p, ports, given⟩ := Holders.after_since before single
    have place : (Holders.after (before ++ .connect true :: since)).ports[
        before.count (.connect true)]? = some p := by
      rw [ports, ← Holders.after_length, List.getElem?_concat_length]
    refine ⟨p, ?_, given.written, ?_, ?_⟩
    · rcases stretch with rfl | next
      · simpa only [h, split, List.append_nil] using place
      · obtain ⟨later, rfl⟩ : ∃ later, rest = .connect true :: later := by
          cases rest with
          | nil => simp at next
          | cons o later => exact ⟨later, by simpa using next⟩
        rw [← place]
        simp only [h, split]
        rw [← List.cons_append, ← List.append_assoc]
        apply Holders.after_replaced
        rw [Holders.after_length, List.count_append, List.count_cons_self]
        omega
    · rw [given.written, List.flatMap_map]
      congr 1
      funext m
      rw [String.toUTF8, String.toByteArray_append, ByteArray.data_append, Array.toList_append]
      exact congrArg₂ (· ++ ·) m.utf8_text rfl
    · rintro rfl
      rw [last]
      simp only [h, split, List.append_nil, ports]
      simp
  · intro n beyond
    have refused (t : Stand) : t.handle (.throttle n) = (t, .error .throttleRange) := by
      simp [Stand.handle, Stand.keep, t.setThrottle_beyond beyond]
    refine ⟨?_, refused s⟩
    exact Holders.through_of_same (refused _)
  · intro o other
    refine ⟨?_, s.handle_board other⟩
    have kept (holder : Option Nat) : (h.through holder o).1.board = h.board :=
      (h.view holder).handle_board other
    cases o with
    | connect works => cases works <;> rfl
    | _ => exact kept _

/-- A second connection, with a half of a surrogate pair and a throttle that is too large among the
commands behind it. -/
def reconnected : List Occurrence :=
  [.connect true, .throttle 30, .connect true, .send (.ofText "é"), .send ⟨[0xd800]⟩, .throttle 101,
    .setFailing true, .throttle 5, .setFailing false, .throttle 60, .disconnect, .throttle 70]

theorem commands_reach_current_port_reconnected :
    (∃ p, (Holders.after reconnected).ports[0]? = some p ∧ p.written = ["thr(30)\n"]) ∧
      ∃ p, (Stand.after reconnected).port = some p ∧
        p.written.flatMap (fun text => text.toUTF8.data.toList) =
          [0xc3, 0xa9, 10, 0x74, 0x68, 0x72, 0x28, 0x36, 0x30, 0x29, 10] := by
  obtain ⟨_, stretch, _⟩ := commands_reach_current_port reconnected
  obtain ⟨p, found, written, _⟩ := stretch [] [.throttle 30] (reconnected.drop 2) rfl (by simp)
    (.inr rfl)
  obtain ⟨q, _, _, bytes, last⟩ := stretch (reconnected.take 2) (reconnected.drop 3) [] rfl
    (by simp [reconnected]) (.inl rfl)
  refine ⟨⟨p, found, written.trans (by decide +kernel)⟩, q, last rfl, bytes.trans (by decide +kernel)⟩

end ThrustBench
