import ThrustBench.Board
import ThrustBench.Proofs.Latest
import ThrustBench.Proofs.WholeDoubles

/-!
The board told by its history: what a channel has is found by looking back for the latest line or
the latest zeroing of that channel, and not by taking in one thing after another.
-/

namespace ThrustBench

namespace Channel

theorem tag_length (c : Channel) : c.tag.length = 4 := by
  cases c <;> rfl

theorem eq_of_tags {c d : Channel} {line : List Char} (first : c.tag <+: line)
    (second : d.tag <+: line) : c = d := by
  have same : c.tag = d.tag := by
    obtain ⟨_, rfl⟩ := first
    have short : d.tag <+: c.tag :=
      List.prefix_of_prefix_length_le second (List.prefix_append _ _) (by simp [tag_length])
    exact (short.eq_of_length (by simp [tag_length])).symm
  revert same
  cases c <;> cases d <;> decide

theorem ofLine?_eq_some_iff {line : List Char} {c : Channel} :
    ofLine? line = some c ↔ c.tag <+: line := by
  have sound {d : Channel} (found : ofLine? line = some d) : d.tag <+: line := by
    simpa using List.find?_some found
  refine ⟨sound, ?_⟩
  intro carried
  cases found : ofLine? line with
  | none =>
      have missed := List.find?_eq_none.mp found c (by cases c <;> simp [all])
      simp [carried] at missed
  | some d => rw [eq_of_tags (sound found) carried]

end Channel

inductive Operation where
  | line (text : String)
  | zero (channel : Channel)
  | zeroAll
  deriving DecidableEq

namespace Operation

def IsOn (c : Channel) : Operation → Prop
  | .line text => c.tag <+: text.toList
  | .zero d => d = c
  | .zeroAll => False

def reading? (c : Channel) : Operation → Option (Option Number)
  | .line text => if c.tag <+: text.toList then (Board.reading c text).toOption else none
  | _ => none

def zeroes (c : Channel) : Operation → Bool
  | .line _ => false
  | .zero d => d = c
  | .zeroAll => true

end Operation

namespace Board

/-- The board after one thing more.  A line that fails counts, too. -/
def step (b : Board) : Operation → Board
  | .line text => (b.decode text).1
  | .zero c => b.zero c
  | .zeroAll => b.zeroAll

def after (history : List Operation) : Board := history.foldl step {}

theorem after_snoc (history : List Operation) (op : Operation) :
    after (history ++ [op]) = (after history).step op := by
  simp [after]

end Board

def Number.double : Number → Binary64
  | whole n => .ofInt n
  | real x => x

def Number.minus : Number → Number → Number
  | whole m, whole n => whole (m - n)
  | m, n => real (m.double.sub n.double)

namespace Channel

def rounded : Channel → Number → Number
  | .current, .real x | .voltage, .real x => .real (x.roundPlaces 2)
  | _, n => n

def rawAfter (c : Channel) (history : List Operation) : Option Number :=
  (latest? (fun _ op => op.reading? c) history).getD (some (.whole 0))

/-- The reading that a channel had when it was zeroed last. -/
def offsetAfter (c : Channel) (history : List Operation) : Option Number :=
  (latest? (fun before op => if op.zeroes c then some (c.rawAfter before) else none)
    history).getD (some (.whole 0))

/-- The latest number that was read while the offset was a number, less that offset. -/
def valueAfter (c : Channel) (history : List Operation) : Number :=
  (latest? (fun before op =>
    match op.reading? c, c.offsetAfter before with
    | some (some reading), some offset => some (c.rounded (reading.minus offset))
    | _, _ => none) history).getD (.whole 0)

section

variable (c : Channel) (history : List Operation) (op : Operation)

theorem rawAfter_snoc :
    c.rawAfter (history ++ [op]) = (op.reading? c).getD (c.rawAfter history) := by
  cases found : op.reading? c <;> simp [rawAfter, latest?_snoc, found]

theorem offsetAfter_snoc :
    c.offsetAfter (history ++ [op]) =
      if op.zeroes c then c.rawAfter history else c.offsetAfter history := by
  cases zeroed : op.zeroes c <;> simp [offsetAfter, latest?_snoc, zeroed]

theorem valueAfter_snoc :
    c.valueAfter (history ++ [op]) =
      match op.reading? c, c.offsetAfter history with
      | some (some reading), some offset => c.rounded (reading.minus offset)
      | _, _ => c.valueAfter history := by
  simp only [valueAfter, latest?_snoc]
  split <;> simp

end

/-- The numbers that a channel can have: whole ones for the load cells, and reals for current and
voltage, but for the zero at the beginning. -/
def Has : Channel → Number → Prop
  | .cell1, n | .cell2, n => ∃ k, n = .whole k
  | .current, n | .voltage, n => n = .whole 0 ∨ ∃ x, n = .real x

theorem has_zero (c : Channel) : c.Has (.whole 0) := by
  cases c <;> simp [Has]

theorem has_of_reading {c : Channel} {line : String} {n : Number}
    (read : Board.reading c line = .ok (some n)) : c.Has n := by
  cases c with
  | cell1 | cell2 =>
      cases found : Reading.whole line with
      | error fault => simp [Board.reading, found, Except.map] at read
      | ok value =>
          simp only [Board.reading, found, Except.map, Except.ok.injEq] at read
          obtain ⟨k, _, rfl⟩ := Option.map_eq_some_iff.mp read
          exact ⟨k, rfl⟩
  | current | voltage =>
      simp only [Board.reading, Except.ok.injEq] at read
      obtain ⟨x, _, rfl⟩ := Option.map_eq_some_iff.mp read
      exact .inr ⟨x, rfl⟩

end Channel

namespace Operation

theorem reading?_line_of_tagged {c : Channel} {text : String} (carried : c.tag <+: text.toList) :
    (line text).reading? c = (Board.reading c text).toOption :=
  if_pos carried

theorem reading?_line_of_untagged {c : Channel} {text : String}
    (other : ¬c.tag <+: text.toList) : (line text).reading? c = none :=
  if_neg other

theorem has_of_reading? {c : Channel} {op : Operation} {n : Number}
    (read : op.reading? c = some (some n)) : c.Has n := by
  cases op with
  | zero | zeroAll => simp [reading?] at read
  | line text =>
      by_cases carried : c.tag <+: text.toList
      · rw [reading?_line_of_tagged carried] at read
        cases found : Board.reading c text with
        | error fault => simp [found, Except.toOption] at read
        | ok value =>
            simp only [found, Except.toOption, Option.some.injEq] at read
            exact Channel.has_of_reading (by rw [found, read])
      · simp [reading?_line_of_untagged carried] at read

end Operation

namespace Channel

theorem has_of_rawAfter {c : Channel} {history : List Operation} {n : Number}
    (raw : c.rawAfter history = some n) : c.Has n := by
  induction history using List.reverseRecOn with
  | nil => exact Option.some.inj raw ▸ c.has_zero
  | append_singleton history op ih =>
      rw [rawAfter_snoc] at raw
      cases read : op.reading? c with
      | none =>
          rw [read, Option.getD_none] at raw
          exact ih raw
      | some reading =>
          rw [read, Option.getD_some] at raw
          exact Operation.has_of_reading? (read.trans (congrArg some raw))

theorem has_of_offsetAfter {c : Channel} {history : List Operation} {n : Number}
    (offset : c.offsetAfter history = some n) : c.Has n := by
  induction history using List.reverseRecOn with
  | nil => exact Option.some.inj offset ▸ c.has_zero
  | append_singleton history op ih =>
      rw [offsetAfter_snoc] at offset
      split at offset
      · exact has_of_rawAfter offset
      · exact ih offset

end Channel

theorem Number.sub_of_has {c : Channel} {m n : Number} (first : c.Has m) (second : c.Has n) :
    m.sub n = .ok (m.minus n) := by
  have nothing : (whole 0).toReal = .ok (.ofInt 0) := by
    have exact := Binary64.ofInt_of_small (n := 0) (by decide)
    simp only [toReal, exact, Binary64.isInfinite, Bool.false_eq_true, if_false]
  cases c with
  | cell1 | cell2 =>
      obtain ⟨k, rfl⟩ := first
      obtain ⟨l, rfl⟩ := second
      rfl
  | current | voltage =>
      rcases first with rfl | ⟨x, rfl⟩ <;> rcases second with rfl | ⟨y, rfl⟩
      · rfl
      · simp only [sub, nothing]
        rfl
      · simp only [sub, nothing]
        rfl
      · rfl

theorem Datum.number?_ofNumber (n : Number) : (ofNumber n).number? = some n := by
  cases n <;> rfl

namespace Board

theorem announced_of_number {c : Channel} {reading offset : Number} (read : c.Has reading)
    (zeroed : c.Has offset) :
    announced c reading (.ofNumber offset) = .ok (c.rounded (reading.minus offset)) := by
  have difference : (Datum.ofNumber reading).sub (.ofNumber offset) =
      .ok (reading.minus offset) := by
    simp only [Datum.sub, Datum.number?_ofNumber, Number.sub_of_has read zeroed]
  simp only [announced, difference]
  generalize reading.minus offset = n
  cases c <;> cases n <;> rfl

theorem announced_of_nothing (c : Channel) (reading : Number) :
    announced c reading .nothing = .error (.operands "-" reading.kind .nothing) := by
  cases reading <;> rfl

theorem decode_of_untagged (b : Board) {c : Channel} {line : String}
    (other : ¬c.tag <+: line.toList) :
    (b.decode line).1.raw.get c = b.raw.get c ∧
      (b.decode line).1.value.get c = b.value.get c := by
  unfold decode
  cases found : Channel.ofLine? line.toList with
  | none => exact ⟨rfl, rfl⟩
  | some d =>
      have distinct : c ≠ d := by
        rintro rfl
        exact other (Channel.ofLine?_eq_some_iff.mp found)
      simp only
      split
      · exact ⟨rfl, rfl⟩
      · exact ⟨Channels.get_set_of_ne _ _ distinct, rfl⟩
      · split
        · exact ⟨Channels.get_set_of_ne _ _ distinct, rfl⟩
        · exact ⟨Channels.get_set_of_ne _ _ distinct, Channels.get_set_of_ne _ _ distinct⟩

@[simp] theorem decode_offset (b : Board) (line : String) :
    (b.decode line).1.offset = b.offset := by
  unfold decode
  split
  · rfl
  · split
    · rfl
    · rfl
    · simp only
      split <;> rfl

theorem decode_raw (b : Board) (line : String) (c : Channel) :
    (b.decode line).1.raw.get c = ((Operation.line line).reading? c).getD (b.raw.get c) := by
  by_cases carried : c.tag <+: line.toList
  · rw [Operation.reading?_line_of_tagged carried]
    simp only [decode, Channel.ofLine?_eq_some_iff.mpr carried]
    cases reading c line with
    | error fault => rfl
    | ok found =>
        cases found with
        | none => simp [Except.toOption]
        | some n =>
            simp only
            split <;> simp [Except.toOption]
  · rw [Operation.reading?_line_of_untagged carried, (b.decode_of_untagged carried).1]
    rfl

theorem decode_value (b : Board) (line : String) (c : Channel) :
    (b.decode line).1.value.get c =
      match (Operation.line line).reading? c with
      | some (some n) => (announced c n (b.offset.get c)).toOption.getD (b.value.get c)
      | _ => b.value.get c := by
  by_cases carried : c.tag <+: line.toList
  · rw [Operation.reading?_line_of_tagged carried]
    simp only [decode, Channel.ofLine?_eq_some_iff.mpr carried]
    cases reading c line with
    | error fault => rfl
    | ok found =>
        cases found with
        | none => simp [Except.toOption]
        | some n =>
            simp only [Except.toOption]
            split <;> simp [*]
  · rw [Operation.reading?_line_of_untagged carried, (b.decode_of_untagged carried).2]

section

variable (b : Board) (op : Operation) (c : Channel)

theorem zeroAll_eq :
    b.zeroAll = { b with offset := b.zeroAll.offset } ∧
      b.zeroAll.offset.get c = Datum.ofNumber? (b.raw.get c) := by
  refine ⟨rfl, ?_⟩
  cases c <;> rfl

theorem step_raw : (b.step op).raw.get c = (op.reading? c).getD (b.raw.get c) := by
  cases op with
  | line text => exact b.decode_raw text c
  | zero | zeroAll => rfl

theorem step_offset :
    (b.step op).offset.get c =
      if op.zeroes c then Datum.ofNumber? (b.raw.get c) else b.offset.get c := by
  cases op with
  | line text => simp [step, Operation.zeroes]
  | zero d =>
      by_cases same : d = c
      · simp [step, zero, Operation.zeroes, same]
      · simp [step, zero, Operation.zeroes, same, Channels.get_set_of_ne _ _ (Ne.symm same)]
  | zeroAll => exact (b.zeroAll_eq c).2

theorem step_value :
    (b.step op).value.get c =
      match op.reading? c with
      | some (some n) => (announced c n (b.offset.get c)).toOption.getD (b.value.get c)
      | _ => b.value.get c := by
  cases op with
  | line text => exact b.decode_value text c
  | zero | zeroAll => rfl

end

theorem after_raw (history : List Operation) (c : Channel) :
    (after history).raw.get c = c.rawAfter history := by
  induction history using List.reverseRecOn with
  | nil => exact Channels.get_const _ c
  | append_singleton history op ih => rw [after_snoc, step_raw, ih, Channel.rawAfter_snoc]

theorem after_offset (history : List Operation) (c : Channel) :
    (after history).offset.get c = Datum.ofNumber? (c.offsetAfter history) := by
  induction history using List.reverseRecOn with
  | nil => exact Channels.get_const _ c
  | append_singleton history op ih =>
      rw [after_snoc, step_offset, ih, after_raw, Channel.offsetAfter_snoc]
      split <;> rfl

theorem after_value (history : List Operation) (c : Channel) :
    (after history).value.get c = c.valueAfter history := by
  induction history using List.reverseRecOn with
  | nil => exact Channels.get_const _ c
  | append_singleton history op ih =>
      rw [after_snoc, step_value, after_offset, ih, Channel.valueAfter_snoc]
      cases read : op.reading? c with
      | none => rfl
      | some reading =>
          cases reading with
          | none => rfl
          | some n =>
              cases offset : c.offsetAfter history with
              | none =>
                  simp only [Datum.ofNumber?, announced_of_nothing]
                  rfl
              | some m =>
                  have kind := Operation.has_of_reading? read
                  have other := Channel.has_of_offsetAfter offset
                  simp only [Datum.ofNumber?, announced_of_number kind other]
                  rfl

end Board

theorem Operation.not_on_other {c d : Channel} {op : Operation} (other : d ≠ c) (isOn : op.IsOn d) :
    op.reading? c = none ∧ op.zeroes c = false := by
  cases op with
  | line text =>
      refine ⟨reading?_line_of_untagged fun carried => ?_, rfl⟩
      exact other (Channel.eq_of_tags isOn carried)
  | zero e =>
      have same : e = d := isOn
      exact ⟨rfl, by simp [zeroes, same, other]⟩
  | zeroAll => exact isOn.elim

/-- After any history a channel has its latest reading, the offset is the reading at its latest
zeroing, and the value is the latest number that was read while the offset was one, less that
offset.  What is done to another channel changes none of the three. -/
theorem channel_by_history (history : List Operation) (c : Channel) :
    (Board.after history).raw.get c = c.rawAfter history ∧
      (Board.after history).offset.get c = Datum.ofNumber? (c.offsetAfter history) ∧
      (Board.after history).value.get c = c.valueAfter history ∧
      ∀ d op, d ≠ c → op.IsOn d →
        (Board.after (history ++ [op])).raw.get c = (Board.after history).raw.get c ∧
          (Board.after (history ++ [op])).offset.get c = (Board.after history).offset.get c ∧
          (Board.after (history ++ [op])).value.get c = (Board.after history).value.get c := by
  refine ⟨Board.after_raw history c, Board.after_offset history c, Board.after_value history c, ?_⟩
  intro d op other isOn
  obtain ⟨unread, unzeroed⟩ := Operation.not_on_other other isOn
  rw [Board.after_snoc, Board.step_raw, Board.step_offset, Board.step_value, unread, unzeroed]
  exact ⟨rfl, rfl, rfl⟩

def zeroedTwice : List Operation :=
  [.line "lc1(n)", .zero .cell1, .line "lc1(7)", .line "lc2(3)", .zero .cell1, .line "lc1(9)"]

theorem channel_by_history_zeroedTwice :
    (Board.after (zeroedTwice.take 3)).raw.get .cell1 = some (.whole 7) ∧
      (Board.after (zeroedTwice.take 3)).offset.get .cell1 = .nothing ∧
      (Board.after (zeroedTwice.take 3)).value.get .cell1 = .whole 0 ∧
      (Board.after zeroedTwice).value.get .cell1 = .whole 2 := by
  obtain ⟨raw, offset, value, _⟩ := channel_by_history (zeroedTwice.take 3) .cell1
  refine ⟨raw.trans (by decide), offset.trans (by decide), value.trans (by decide), ?_⟩
  exact (channel_by_history zeroedTwice .cell1).2.2.1.trans (by decide)

end ThrustBench
