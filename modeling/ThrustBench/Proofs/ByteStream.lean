import Mathlib.Tactic.SplitIfs
import ThrustBench.Port

/-!
The bytes of the port, cut into lines.  However they arrive, each complete line is taken in once and
in order; the texts that are read off are those of the whole stream, since no character of UTF-8,
broken or not, reaches over a line feed.
-/

namespace ThrustBench

namespace Text

theorem utf8Lead?_low {b : Nat} {lead : Utf8Lead} (found : utf8Lead? b = some lead) :
    0x80 ≤ lead.low := by
  unfold utf8Lead? at found
  split_ifs at found <;> (obtain rfl := Option.some.inj found; simp)

theorem utf8Tail_line (more : Nat) : ∀ (low high bits : Nat) (body rest : List UInt8), 0x80 ≤ low →
    utf8Tail more low high bits (body ++ 10 :: rest) = utf8Tail more low high bits (body ++ [10]) ∧
      (utf8Tail more low high bits (body ++ [10])).2 ≤ body.length := by
  induction more with
  | zero => intro low high bits body rest _; simp [utf8Tail]
  | succ more ih =>
      intro low high bits body rest bound
      cases body with
      | nil =>
          have outside : ¬ (low ≤ (10 : UInt8).toNat ∧ (10 : UInt8).toNat ≤ high) := by
            rintro ⟨below, _⟩
            simp at below
            omega
          simp only [List.nil_append, utf8Tail, if_neg outside]
          simp
      | cons b body =>
          obtain ⟨same, short⟩ :=
            ih 0x80 0xbf (64 * bits + (b.toNat - 0x80)) body rest (Nat.le_refl _)
          simp only [List.cons_append, utf8Tail]
          split
          · rw [same]
            simpa using short
          · simp

theorem utf8Piece_line (b : UInt8) (body rest : List UInt8) :
    utf8Piece b (body ++ 10 :: rest) = utf8Piece b (body ++ [10]) ∧
      (utf8Piece b (body ++ [10])).2 ≤ body.length := by
  unfold utf8Piece
  cases found : utf8Lead? b.toNat with
  | none => simp
  | some lead => exact utf8Tail_line _ _ _ _ _ _ (utf8Lead?_low found)

theorem utf8Pieces_cons (b : UInt8) (bs : List UInt8) :
    utf8Pieces (b :: bs) =
      ((utf8Piece b bs).1, (utf8Piece b bs).2 + 1) :: utf8Pieces (bs.drop (utf8Piece b bs).2) := by
  rw [utf8Pieces]

theorem utf8Pieces_line (body rest : List UInt8) :
    utf8Pieces (body ++ 10 :: rest) = utf8Pieces (body ++ [10]) ++ utf8Pieces rest := by
  generalize size : body.length = count
  induction count using Nat.strongRecOn generalizing body with
  | ind count ih =>
      cases body with
      | nil =>
          have feed (bs : List UInt8) : utf8Piece 10 bs = (.char '\n', 0) := rfl
          simp [utf8Pieces_cons, feed, utf8Pieces]
      | cons b body =>
          obtain ⟨same, short⟩ := utf8Piece_line b body rest
          rw [List.length_cons] at size
          -- the first piece ends before the line feed, so that the rest of the line is shorter
          have later := ih (body.drop (utf8Piece b (body ++ [10])).2).length
            (by rw [List.length_drop]; omega) _ rfl
          rw [List.cons_append, List.cons_append, utf8Pieces_cons, utf8Pieces_cons, same,
            List.drop_append_of_le_length short, List.drop_append_of_le_length short, later]
          rfl

theorem decodeLossy_line (body rest : List UInt8) :
    decodeLossy (body ++ 10 :: rest) = decodeLossy (body ++ [10]) ++ decodeLossy rest := by
  unfold decodeLossy
  rw [utf8Pieces_line, List.map_append, String.ofList_append]

end Text

namespace Port

def IsLine (line : List UInt8) : Prop := ∃ body, 10 ∉ body ∧ line = body ++ [10]

def linesAfter (begun : List UInt8) : List UInt8 → List (List UInt8)
  | [] => []
  | b :: bs => if b = 10 then (begun ++ [b]) :: linesAfter [] bs else linesAfter (begun ++ [b]) bs

def lines (bytes : List UInt8) : List (List UInt8) := linesAfter [] bytes

theorem linesAfter_line {body : List UInt8} (single : 10 ∉ body) (begun rest : List UInt8) :
    linesAfter begun (body ++ 10 :: rest) = (begun ++ body ++ [10]) :: lines rest := by
  induction body generalizing begun with
  | nil => simp [linesAfter, lines]
  | cons b body ih =>
      rw [List.mem_cons, not_or] at single
      have other : b ≠ 10 := Ne.symm single.1
      rw [List.cons_append, linesAfter, if_neg other, ih single.2]
      simp

theorem lines_cons {line : List UInt8} (isLine : IsLine line) (rest : List UInt8) :
    lines (line ++ rest) = line :: lines rest := by
  obtain ⟨body, single, rfl⟩ := isLine
  rw [List.append_assoc, List.singleton_append, lines, linesAfter_line single, List.nil_append]

theorem exists_line {bytes : List UInt8} (holds : 10 ∈ bytes) :
    ∃ line rest, IsLine line ∧ bytes = line ++ rest := by
  obtain ⟨body, rest, rfl, single⟩ := List.eq_append_cons_of_mem holds
  exact ⟨body ++ [10], rest, ⟨body, single, rfl⟩, by simp⟩

theorem cutLine_line {line : List UInt8} (isLine : IsLine line) (rest : List UInt8) :
    cutLine (line ++ rest) = (line, rest) := by
  obtain ⟨body, single, rfl⟩ := isLine
  induction body with
  | nil => simp [cutLine]
  | cons b body ih =>
      rw [List.mem_cons, not_or] at single
      have other : b ≠ 10 := Ne.symm single.1
      rw [List.cons_append, List.cons_append, cutLine, if_neg other, ih single.2]

theorem join_decodeLossy (lines : List (List UInt8)) (all : ∀ line ∈ lines, IsLine line) :
    String.join (lines.map Text.decodeLossy) = Text.decodeLossy lines.flatten := by
  induction lines with
  | nil => simp [Text.decodeLossy, Text.utf8Pieces]
  | cons line lines ih =>
      obtain ⟨body, _, rfl⟩ := all line (by simp)
      rw [List.map_cons, String.join_cons, ih fun other later => all other (by simp [later]),
        List.flatten_cons, List.append_assoc, List.singleton_append, ← Text.decodeLossy_line]

end Port

inductive Traffic where
  | bytes (chunk : List UInt8)
  | ask

def received : List Traffic → List UInt8
  | [] => []
  | .bytes chunk :: rest => chunk ++ received rest
  | .ask :: rest => received rest

namespace Stand

def waiting (s : Stand) : List UInt8 := (s.port.map Port.pending).getD []

structure Serving where
  bytes : List UInt8
  read : LineRead

def meet (s : Stand) : Traffic → Except Fault (Stand × Option LineRead)
  | .bytes chunk => (s.receive chunk).map fun s => (s, none)
  | .ask => s.readLine

def meetAll (s : Stand) : List Traffic → Except Fault (Stand × List Serving)
  | [] => .ok (s, [])
  | t :: ts => do
    let (next, read) ← s.meet t
    let (last, servings) ← next.meetAll ts
    let taken := s.waiting.take (s.waiting.length - next.waiting.length)
    return (last, (read.map (Serving.mk taken)).toList ++ servings)

/-- Whenever a line is asked for, nothing waits at the port or a line feed does. -/
def Prompt (s : Stand) (traffic : List Traffic) : Prop :=
  ∀ before after t servings, traffic = before ++ .ask :: after → s.meetAll before = .ok (t, servings) →
    t.waiting = [] ∨ 10 ∈ t.waiting

def boardAfter (b : Board) (lines : List (List UInt8)) : Board :=
  lines.foldl (fun b line => (b.decode (Text.decodeLossy line)).1) b

section Steps

variable {s next : Stand} {p : Port} {t : Traffic} {ts : List Traffic} {read : Option LineRead}

theorem waiting_of_port (connected : s.port = some p) : s.waiting = p.pending := by
  rw [waiting, connected]
  rfl

theorem meetAll_cons (met : s.meet t = .ok (next, read)) {last : Stand} {servings : List Serving}
    (later : next.meetAll ts = .ok (last, servings)) :
    s.meetAll (t :: ts) = .ok (last,
      (read.map (Serving.mk (s.waiting.take (s.waiting.length - next.waiting.length)))).toList
        ++ servings) := by
  rw [meetAll, met]
  simp only [bind, Except.bind, later]
  rfl

theorem Prompt.tail (prompt : s.Prompt (t :: ts)) (met : s.meet t = .ok (next, read)) :
    next.Prompt ts := by
  intro before after u servings split reached
  exact prompt (t :: before) after u _ (by rw [split, List.cons_append]) (meetAll_cons met reached)

theorem meet_bytes (connected : s.port = some p) (chunk : List UInt8) :
    s.meet (.bytes chunk) = .ok ({ s with port := some (p.receive chunk) }, none) := by
  simp [meet, receive, deliver, connected, Except.map]

theorem meet_ask_idle (connected : s.port = some p) (isOpen : p.isOpen = true)
    (empty : p.pending = []) : s.meet .ask = .ok (s, none) := by
  simp [meet, readLine, connected, isOpen, empty]

theorem meet_ask_line (connected : s.port = some p) (isOpen : p.isOpen = true)
    {line rest : List UInt8} (isLine : Port.IsLine line) (split : p.pending = line ++ rest) :
    s.meet .ask = .ok (⟨(s.board.decode (Text.decodeLossy line)).1, some { p with pending := rest }⟩,
      some ⟨Text.decodeLossy line, (s.board.decode (Text.decodeLossy line)).2⟩) := by
  have some : line ++ rest ≠ [] := by
    obtain ⟨body, _, rfl⟩ := isLine
    simp
  simp [meet, readLine, connected, isOpen, split, some, Port.cutLine_line isLine]

end Steps

/-- What has become of a stream of bytes: the lines that were served, in order, and the rest of it,
which waits at the port. -/
structure Served (b : Board) (stream : List UInt8) (s : Stand) (p : Port)
    (servings : List Serving) : Prop where
  connected : s.port = some p
  isOpen : p.isOpen = true
  terminated : ∀ v ∈ servings, Port.IsLine v.bytes
  whole : servings.flatMap Serving.bytes ++ p.pending = stream
  lines : servings.map Serving.bytes = (Port.lines stream).take servings.length
  texts : servings.map (fun v => v.read.line) = servings.map fun v => Text.decodeLossy v.bytes
  board : s.board = boardAfter b (servings.map Serving.bytes)

theorem Served.cons {b : Board} {line stream : List UInt8} {s : Stand} {p : Port}
    {servings : List Serving} (isLine : Port.IsLine line)
    (served : Served (b.decode (Text.decodeLossy line)).1 stream s p servings)
    (outcome : Except Fault (Option Announcement)) :
    Served b (line ++ stream) s p (⟨line, Text.decodeLossy line, outcome⟩ :: servings) where
  connected := served.connected
  isOpen := served.isOpen
  terminated := by
    intro v member
    rcases List.mem_cons.mp member with rfl | later
    · exact isLine
    · exact served.terminated v later
  whole := by
    rw [List.flatMap_cons, List.append_assoc, served.whole]
  lines := by
    rw [Port.lines_cons isLine, List.map_cons, List.length_cons, List.take_succ_cons, served.lines]
  texts := by
    rw [List.map_cons, List.map_cons, served.texts]
  board := by
    rw [served.board]
    rfl

theorem meetAll_served {traffic : List Traffic} : ∀ {s : Stand} {p : Port}, s.port = some p →
    p.isOpen = true → s.Prompt traffic → ∃ t q servings, s.meetAll traffic = .ok (t, servings) ∧
      Served s.board (p.pending ++ received traffic) t q servings := by
  induction traffic with
  | nil =>
      intro s p connected isOpen _
      exact ⟨s, p, [], rfl, connected, isOpen, by simp, by simp [received], by simp, rfl, rfl⟩
  | cons event traffic ih =>
      intro s p connected isOpen prompt
      cases event with
      | bytes chunk =>
          have met := meet_bytes connected chunk
          obtain ⟨t, q, servings, reached, served⟩ :=
            ih (s := { s with port := some (p.receive chunk) }) rfl isOpen (prompt.tail met)
          refine ⟨t, q, servings, meetAll_cons met reached, ?_⟩
          rw [received, ← List.append_assoc]
          exact served
      | ask =>
          have ready := prompt [] traffic s [] rfl rfl
          rw [waiting_of_port connected] at ready
          rcases ready with empty | holds
          · have met := meet_ask_idle connected isOpen empty
            obtain ⟨t, q, servings, reached, served⟩ := ih connected isOpen (prompt.tail met)
            exact ⟨t, q, servings, meetAll_cons met reached, served⟩
          · obtain ⟨line, rest, isLine, split⟩ := Port.exists_line holds
            have met := meet_ask_line connected isOpen isLine split
            obtain ⟨t, q, servings, reached, served⟩ :=
              ih (p := { p with pending := rest }) rfl isOpen (prompt.tail met)
            refine ⟨t, q, _, meetAll_cons met reached, ?_⟩
            have taken : s.waiting.take (s.waiting.length - rest.length) = line := by
              rw [waiting_of_port connected, split, List.length_append, Nat.add_sub_cancel,
                List.take_left]
            change Served _ _ _ _ (⟨s.waiting.take (s.waiting.length - rest.length), _, _⟩ :: servings)
            rw [split, List.append_assoc, taken]
            exact served.cons isLine _

/-- The bytes that arrive at an open port are cut into lines without loss, in whatever pieces they
come.  The lines that were served are the first complete lines of the stream, each once and in order,
and the rest waits; their texts, joined, are the text of these bytes in one piece; and the board is
what these lines make of it.  Whenever bytes wait, a further call serves. -/
theorem stream_cut_without_loss {s : Stand} {p : Port} (connected : s.port = some p)
    (isOpen : p.isOpen = true) {traffic : List Traffic} (prompt : s.Prompt traffic) :
    let stream := p.pending ++ received traffic
    ∃ t q servings, s.meetAll traffic = .ok (t, servings) ∧ t.port = some q ∧
      servings.flatMap Serving.bytes ++ q.pending = stream ∧
      String.join (servings.map fun v => v.read.line) =
        Text.decodeLossy (servings.flatMap Serving.bytes) ∧
      servings.map Serving.bytes = (Port.lines stream).take servings.length ∧
      t.board = boardAfter s.board ((Port.lines stream).take servings.length) ∧
      ∃ u read, t.readLine = .ok (u, read) ∧ (read = none ↔ q.pending = []) := by
  intro stream
  obtain ⟨t, q, servings, reached, served⟩ := meetAll_served connected isOpen prompt
  refine ⟨t, q, servings, reached, served.connected, served.whole, ?_, served.lines,
    served.board.trans (by rw [served.lines]), ?_⟩
  · have joined := Port.join_decodeLossy (servings.map Serving.bytes)
      (by simpa using served.terminated)
    rw [List.map_map] at joined
    rw [served.texts, List.flatMap_def]
    exact joined
  · by_cases empty : q.pending = []
    · exact ⟨t, none, meet_ask_idle served.connected served.isOpen empty, by simp [empty]⟩
    · have serves : ∃ u read, t.readLine = .ok (u, some read) := by
        simp [readLine, served.connected, served.isOpen, empty]
      obtain ⟨u, read, outcome⟩ := serves
      exact ⟨u, some read, outcome, by simp [empty]⟩

/-- A reading with a character that its line feed cuts short, in pieces that cut it once more. -/
def brokenUp : List Traffic :=
  [.ask, .bytes [0x6c, 0x63, 0x31, 0x28], .bytes [0x35, 0x29, 0xe2], .bytes [0x82, 10, 0x6c], .ask]

theorem stream_cut_without_loss_brokenUp :
    let s : Stand := { port := some {} }
    let stream := received brokenUp
    s.Prompt brokenUp ∧ ∃ t q servings, s.meetAll brokenUp = .ok (t, servings) ∧ t.port = some q ∧
      servings.flatMap Serving.bytes ++ q.pending = stream ∧
      String.join (servings.map fun v => v.read.line) =
        Text.decodeLossy (servings.flatMap Serving.bytes) ∧
      servings.map Serving.bytes = (Port.lines stream).take servings.length ∧
      t.board = boardAfter s.board ((Port.lines stream).take servings.length) ∧
      ∃ u read, t.readLine = .ok (u, read) ∧ (read = none ↔ q.pending = []) := by
  intro s stream
  have prompt : s.Prompt brokenUp := by
    intro before after t servings split reached
    rcases before with _ | ⟨_, _ | ⟨_, _ | ⟨_, _ | ⟨_, _ | ⟨_, before⟩⟩⟩⟩⟩ <;>
      simp only [brokenUp, List.nil_append, List.cons_append, List.cons.injEq, reduceCtorEq,
        false_and, and_false] at split
    · cases reached
      exact Or.inl rfl
    · obtain ⟨rfl, rfl, rfl, rfl, _⟩ := split
      cases reached
      exact Or.inr (by decide)
    · simp at split
  exact ⟨prompt, stream_cut_without_loss (p := {}) rfl rfl prompt⟩

end Stand

end ThrustBench
