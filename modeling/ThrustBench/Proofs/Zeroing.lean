import ThrustBench.Proofs.ChannelHistory
import ThrustBench.Proofs.LastGroup

/-!
Zeroing a channel that has no reading.  Such a channel has no offset either, and fails at its next
reading; this is the only way in which a well-formed reading can fail.
-/

namespace ThrustBench

namespace Channel

/-- A channel was zeroed last when its latest line had no number. -/
def Poisoned (c : Channel) (history : List Operation) : Prop :=
  ∃ first line second press third,
    history = first ++ .line line :: second ++ press :: third ∧
      (Operation.line line).reading? c = some none ∧ (∀ op ∈ second, op.reading? c = none) ∧
      press.zeroes c = true ∧ ∀ op ∈ third, op.zeroes c = false

theorem rawAfter_eq_none_iff {c : Channel} {history : List Operation} :
    c.rawAfter history = none ↔
      ∃ first line second, history = first ++ .line line :: second ∧
        (Operation.line line).reading? c = some none ∧ ∀ op ∈ second, op.reading? c = none := by
  have found : c.rawAfter history = none ↔
      latest? (fun _ op => Operation.reading? c op) history = some none := by
    unfold rawAfter
    cases latest? (fun _ op => Operation.reading? c op) history <;> simp
  rw [found, latest?_eq_some_iff]
  constructor
  · rintro ⟨first, op, second, split, read, silent⟩
    cases op with
    | line text => exact ⟨first, text, second, split, read, forall_split_iff.mp silent⟩
    | zero | zeroAll => simp [Operation.reading?] at read
  · rintro ⟨first, line, second, split, read, silent⟩
    exact ⟨first, .line line, second, split, read, forall_split_iff.mpr silent⟩

theorem offsetAfter_eq_none_iff {c : Channel} {history : List Operation} :
    c.offsetAfter history = none ↔ c.Poisoned history := by
  have found : c.offsetAfter history = none ↔
      latest? (fun before op =>
        if Operation.zeroes c op then some (c.rawAfter before) else none) history = some none := by
    unfold offsetAfter
    cases latest? (fun before op =>
      if Operation.zeroes c op then some (c.rawAfter before) else none) history <;> simp
  rw [found, latest?_eq_some_iff]
  constructor
  · rintro ⟨before, press, third, rfl, made, silent⟩
    by_cases zeroed : press.zeroes c = true
    · rw [if_pos zeroed, Option.some.injEq] at made
      obtain ⟨first, line, second, rfl, read, unread⟩ := rawAfter_eq_none_iff.mp made
      refine ⟨first, line, second, press, third, rfl, read, unread, zeroed, ?_⟩
      refine forall_split_iff.mp ?_
      intro between op later split
      simpa using silent between op later split
    · simp [zeroed] at made
  · rintro ⟨first, line, second, press, third, rfl, read, unread, zeroed, silent⟩
    refine ⟨first ++ .line line :: second, press, third, rfl, ?_, ?_⟩
    · rw [if_pos zeroed, Option.some.injEq]
      exact rawAfter_eq_none_iff.mpr ⟨first, line, second, rfl, read, unread⟩
    · intro between op later split
      have still := forall_split_iff.mpr silent between op later split
      simp [still]

/-- What stands between the parentheses of a whole number: digits of any script behind at most one
minus sign. -/
def WholeBody (body : List Char) : Prop :=
  ∃ sign digits, body = sign ++ digits ∧ (sign = [] ∨ sign = ['-']) ∧ digits ≠ [] ∧
    digits.length ≤ Fault.digitLimit ∧ ∀ d ∈ digits, Text.isDigit d = true

/-- What stands between the parentheses of a decimal: at most one sign, and plain digits with or
without a point before the last of them. -/
def DecimalBody (body : List Char) : Prop :=
  ∃ sign front back, (sign = [] ∨ sign = ['-'] ∨ sign = ['+']) ∧
    (∀ d ∈ front ++ back, Reading.isPlainDigit d = true) ∧
    (body = sign ++ front ∧ front ≠ [] ∨ body = sign ++ front ++ '.' :: back ∧ back ≠ [])

/-- A well-formed reading of a channel: a number in parentheses behind the tag, and nothing but
white space at the end. -/
def WellFormed (c : Channel) (line : String) : Prop :=
  ∃ body blank, line.toList = c.tag ++ body ++ ')' :: blank ∧
    (∀ d ∈ blank, Text.isBlank d = true) ∧
    match c with
    | .cell1 | .cell2 => WholeBody body
    | .current | .voltage => DecimalBody body

theorem WholeBody.spelled {body : List Char} (given : WholeBody body) :
    ∃ negative digits, Reading.SpellsWhole body (.number negative digits) ∧
      digits.length ≤ Fault.digitLimit := by
  obtain ⟨sign, digits, rfl, sort, filled, few, all⟩ := given
  rcases sort with rfl | rfl
  · exact ⟨false, digits, .number false filled all, few⟩
  · exact ⟨true, digits, .number true filled all, few⟩

theorem DecimalBody.spelled {body : List Char} (given : DecimalBody body) :
    ∃ number, Reading.SpellsReal body number := by
  obtain ⟨sign, front, back, sort, all, shape⟩ := given
  rcases shape with ⟨rfl, filled⟩ | ⟨rfl, filled⟩
  · exact ⟨_, .front sort filled fun d member => all d (List.mem_append_left back member)⟩
  · rw [List.append_assoc]
    exact ⟨_, .point sort filled all⟩

theorem lastGroup_of_tag {α : Type} {accept : List Char → Option α} {Spells : List Char → α → Prop}
    {front body blank : List Char} {a : α} (takes : Reading.Takes accept Spells) (c : Channel)
    (single : '\n' ∉ front) (spelled : Spells body a)
    (ends : ∀ d ∈ blank, Text.isBlank d = true) :
    ∃ name, c.tag = name ++ ['('] ∧
      Reading.LastGroup (Reading.Spelled Spells)
        (Reading.firstLine (front ++ (c.tag ++ body ++ ')' :: blank)))
        (front ++ name) body (Reading.firstLine blank) := by
  have split : ∃ name, c.tag = name ++ ['('] ∧ '\n' ∉ name := by
    cases c
    · exact ⟨['l', 'c', '1'], rfl, by decide⟩
    · exact ⟨['l', 'c', '2'], rfl, by decide⟩
    · exact ⟨['c', 'u', 'r'], rfl, by decide⟩
    · exact ⟨['v', 't', 'g'], rfl, by decide⟩
  obtain ⟨name, tag, plain⟩ := split
  have clean : '(' ∉ Reading.firstLine blank := by
    intro member
    have blanks := ends _ ((List.takeWhile_sublist _).subset member)
    exact absurd blanks (by decide)
  have early : '\n' ∉ front ++ name := by simp [single, plain]
  refine ⟨name, tag, ?_⟩
  rw [tag]
  simpa using takes.lastGroup spelled early clean

theorem whole_of_wellFormed {c : Channel} {line : String} {body blank : List Char}
    (spelled : line.toList = c.tag ++ body ++ ')' :: blank) (given : WholeBody body)
    (ends : ∀ d ∈ blank, Text.isBlank d = true) : ∃ k, Reading.whole line = .ok (some k) := by
  obtain ⟨negative, digits, number, few⟩ := given.spelled
  have alone : '\n' ∉ ([] : List Char) := by simp
  obtain ⟨name, tag, group⟩ := lastGroup_of_tag Reading.wholeBody?_takes c alone number ends
  rw [List.nil_append, ← spelled] at group
  rw [Reading.whole_of_last group number, Reading.number_value, if_neg (by omega)]
  exact ⟨_, rfl⟩

theorem real_of_wellFormed {c : Channel} {line : String} {body blank : List Char}
    (spelled : line.toList = c.tag ++ body ++ ')' :: blank) (given : DecimalBody body)
    (ends : ∀ d ∈ blank, Text.isBlank d = true) : ∃ x, Reading.real line = some x := by
  obtain ⟨number, decimal⟩ := given.spelled
  have alone : '\n' ∉ ([] : List Char) := by simp
  obtain ⟨name, tag, group⟩ := lastGroup_of_tag Reading.realBody?_takes c alone decimal ends
  rw [List.nil_append, ← spelled] at group
  rw [Reading.real_of_last group decimal]
  exact ⟨_, rfl⟩

theorem WellFormed.reading {c : Channel} {line : String} (good : c.WellFormed line) :
    ∃ n, Board.reading c line = .ok (some n) := by
  obtain ⟨body, blank, spelled, ends, given⟩ := good
  cases c with
  | cell1 | cell2 =>
      obtain ⟨k, read⟩ := whole_of_wellFormed spelled given ends
      exact ⟨.whole k, by simp [Board.reading, read, Except.map]⟩
  | current | voltage =>
      obtain ⟨x, read⟩ := real_of_wellFormed spelled given ends
      exact ⟨.real x, by simp [Board.reading, read]⟩

theorem WellFormed.carried {c : Channel} {line : String} (good : c.WellFormed line) :
    c.tag <+: line.toList := by
  obtain ⟨body, blank, spelled, _, _⟩ := good
  rw [spelled, List.append_assoc]
  exact List.prefix_append _ _

end Channel

namespace Board

theorem decode_of_reading (b : Board) {c : Channel} {line : String} {n : Number}
    (carried : c.tag <+: line.toList) (read : reading c line = .ok (some n)) :
    b.decode line =
      match announced c n (b.offset.get c) with
      | .error fault => ({ b with raw := b.raw.set c (some n) }, .error fault)
      | .ok v =>
        ({ b with raw := b.raw.set c (some n), value := b.value.set c v }, .ok (some ⟨c, v⟩)) := by
  have tagged := Channel.ofLine?_eq_some_iff.mpr carried
  cases outcome : announced c n (b.offset.get c) with
  | error fault => simp only [decode, tagged, read, outcome]
  | ok v => simp only [decode, tagged, read, outcome]

end Board

/-- After any history the offset of a channel is a number, and a well-formed reading of it is
announced, unless the channel was zeroed last when its latest line had no number.  Then there is no
offset, every well-formed reading fails and leaves the value as it was, until the channel is zeroed
after such a reading. -/
theorem announced_iff_not_poisoned (history : List Operation) (c : Channel) :
    let b := Board.after history
    (c.Poisoned history → b.offset.get c = .nothing) ∧
      (¬c.Poisoned history → ∃ m, b.offset.get c = .ofNumber m) ∧
      ∀ line, c.WellFormed line →
        ((∃ v, (b.decode line).2 = .ok (some ⟨c, v⟩)) ↔ ¬c.Poisoned history) ∧
          (c.Poisoned history →
            (∃ kind, (b.decode line).2 = .error (.operands "-" kind .nothing)) ∧
              (b.decode line).1.value = b.value) ∧
          ¬c.Poisoned (history ++ [.line line, .zero c]) := by
  intro b
  have offset : b.offset.get c = Datum.ofNumber? (c.offsetAfter history) :=
    Board.after_offset history c
  have lost : c.Poisoned history → b.offset.get c = .nothing := by
    intro poisoned
    rw [offset, Channel.offsetAfter_eq_none_iff.mpr poisoned]
    rfl
  have kept : ¬c.Poisoned history → ∃ m, c.Has m ∧ b.offset.get c = .ofNumber m := by
    intro sound
    rw [← Channel.offsetAfter_eq_none_iff, ← ne_eq, Option.ne_none_iff_exists'] at sound
    obtain ⟨m, found⟩ := sound
    exact ⟨m, Channel.has_of_offsetAfter found, by rw [offset, found]; rfl⟩
  refine ⟨lost, fun sound => (kept sound).imp fun _ both => both.2, ?_⟩
  intro line good
  obtain ⟨n, read⟩ := good.reading
  have decoded := b.decode_of_reading good.carried read
  refine ⟨⟨?_, ?_⟩, ?_, ?_⟩
  · rintro ⟨v, announced⟩ poisoned
    rw [decoded, lost poisoned, Board.announced_of_nothing] at announced
    simp at announced
  · intro sound
    obtain ⟨m, has, number⟩ := kept sound
    rw [decoded, number, Board.announced_of_number (Channel.has_of_reading read) has]
    exact ⟨_, rfl⟩
  · intro poisoned
    rw [decoded, lost poisoned, Board.announced_of_nothing]
    exact ⟨⟨n.kind, rfl⟩, rfl⟩
  · have carried := Operation.reading?_line_of_tagged good.carried
    have split : history ++ [.line line, .zero c] = history ++ [.line line] ++ [.zero c] := by simp
    rw [← Channel.offsetAfter_eq_none_iff, split, Channel.offsetAfter_snoc, Channel.rawAfter_snoc,
      carried, read]
    simp [Operation.zeroes, Except.toOption]

theorem announced_iff_not_poisoned_unready :
    Channel.cell1.Poisoned [.line "lc1(n)", .zero .cell1] ∧
      Channel.cell1.WellFormed "lc1(5)" ∧
      ¬∃ v, ((Board.after [.line "lc1(n)", .zero .cell1]).decode "lc1(5)").2 =
        .ok (some ⟨.cell1, v⟩) := by
  have poisoned : Channel.cell1.Poisoned [.line "lc1(n)", .zero .cell1] :=
    ⟨[], "lc1(n)", [], .zero .cell1, [], rfl, by decide, by simp, rfl, by simp⟩
  have digit : Text.isDigit '5' = true := by decide
  have good : Channel.cell1.WellFormed "lc1(5)" :=
    ⟨['5'], [], by decide, by simp, [], ['5'], rfl, .inl rfl, by simp, by decide,
      by simp [digit]⟩
  refine ⟨poisoned, good, ?_⟩
  intro announced
  exact ((announced_iff_not_poisoned _ .cell1).2.2 "lc1(5)" good).1.mp announced poisoned

end ThrustBench
