import ThrustBench.Proofs.Zeroing

/-!
How a line is framed, and which number it delivers.  The tag at the front decides on the channel,
and the last group of the line on the number; nothing says that the two belong together.
-/

namespace ThrustBench

open Reading (LastGroup Spelled SpellsWhole SpellsReal firstLine)

namespace Channel

def IsBody : Channel → List Char → Prop
  | cell1 | cell2 => Spelled SpellsWhole
  | current | voltage => Spelled SpellsReal

inductive Spells : Channel → List Char → Number → Prop
  | whole {c : Channel} {digits : List Char} (cell : c = cell1 ∨ c = cell2) (negative : Bool)
      (given : digits ≠ []) (all : ∀ d ∈ digits, Text.isDigit d = true)
      (few : digits.length ≤ Fault.digitLimit) :
      Spells c (Reading.minus negative ++ digits) (.whole (Reading.wholeNumber negative digits))
  | real {c : Channel} {body : List Char} {b : Reading.RealBody}
      (gauge : c = current ∨ c = voltage) (decimal : SpellsReal body b) :
      Spells c body (.real b.value)

/-- A line is the tag of a channel, one number and a closing parenthesis, but for white space at
its end. -/
def Framed (c : Channel) (line : String) (n : Number) : Prop :=
  ∃ body blank, line.toList = c.tag ++ body ++ ')' :: blank ∧
    (∀ d ∈ blank, Text.isBlank d = true) ∧ c.Spells body n

structure Reads (c : Channel) (line : String) (before body after : List Char) (n : Number) :
    Prop where
  group : LastGroup c.IsBody (firstLine line.toList) before body after
  spelled : c.Spells body n

variable {c : Channel} {line : String} {front before body after blank : List Char} {n : Number}

theorem cell_or_gauge (c : Channel) : (c = cell1 ∨ c = cell2) ∨ c = current ∨ c = voltage := by
  cases c <;> simp

theorem isBody_of_cell (cell : c = cell1 ∨ c = cell2) : c.IsBody = Spelled SpellsWhole := by
  rcases cell with rfl | rfl <;> rfl

theorem isBody_of_gauge (gauge : c = current ∨ c = voltage) : c.IsBody = Spelled SpellsReal := by
  rcases gauge with rfl | rfl <;> rfl

theorem reading_of_cell (cell : c = cell1 ∨ c = cell2) :
    Board.reading c line = (Reading.whole line).map (Option.map Number.whole) := by
  rcases cell with rfl | rfl <;> rfl

theorem reading_of_gauge (gauge : c = current ∨ c = voltage) :
    Board.reading c line = .ok ((Reading.real line).map Number.real) := by
  rcases gauge with rfl | rfl <;> rfl

theorem IsBody.flat (fits : c.IsBody body) : Reading.Flat body := by
  rcases c.cell_or_gauge with cell | gauge
  · rw [isBody_of_cell cell] at fits
    obtain ⟨b, spelled⟩ := fits
    exact spelled.flat
  · rw [isBody_of_gauge gauge] at fits
    obtain ⟨b, spelled⟩ := fits
    exact spelled.flat

theorem Reads.reading (reads : c.Reads line before body after n) :
    Board.reading c line = .ok (some n) := by
  obtain ⟨group, spelled⟩ := reads
  cases spelled with
  | whole cell negative given all few =>
      rw [isBody_of_cell cell] at group
      rw [reading_of_cell cell, Reading.whole_of_last group (.number negative given all),
        Reading.number_value, if_neg (by omega)]
      rfl
  | real gauge decimal =>
      rw [isBody_of_gauge gauge] at group
      rw [reading_of_gauge gauge, Reading.real_of_last group decimal]
      rfl

theorem reading_of_not_reads (none : ¬∃ before body after n, c.Reads line before body after n) :
    Board.reading c line = .ok .none ∨
      ∃ count, Fault.digitLimit < count ∧ Board.reading c line = .error (.tooManyDigits count) := by
  rcases c.cell_or_gauge with cell | gauge
  · rw [reading_of_cell cell]
    by_cases has : Reading.HasGroup (Spelled SpellsWhole) (firstLine line.toList)
    · obtain ⟨before, body, after, group⟩ := Reading.exists_lastGroup has
      obtain ⟨b, spelled⟩ := group.fits
      rw [Reading.whole_of_last group spelled]
      cases spelled with
      | unready => exact .inl rfl
      | @number negative digits given all =>
          rw [Reading.number_value]
          by_cases many : Fault.digitLimit < digits.length
          · rw [if_pos many]
            exact .inr ⟨digits.length, many, rfl⟩
          · refine absurd ⟨before, _, after, _, ?_, .whole cell negative given all (by omega)⟩ none
            rw [isBody_of_cell cell]
            exact group
    · rw [Reading.whole_of_noGroup has]
      exact .inl rfl
  · rw [reading_of_gauge gauge]
    by_cases has : Reading.HasGroup (Spelled SpellsReal) (firstLine line.toList)
    · obtain ⟨before, body, after, group⟩ := Reading.exists_lastGroup has
      obtain ⟨b, spelled⟩ := group.fits
      refine absurd ⟨before, body, after, _, ?_, .real gauge spelled⟩ none
      rw [isBody_of_gauge gauge]
      exact group
    · rw [Reading.real_of_noGroup has]
      exact .inl rfl

theorem reads_of_tag (d : Channel) (single : '\n' ∉ front) (spelled : c.Spells body n)
    (ends : ∀ e ∈ blank, Text.isBlank e = true)
    (written : line.toList = front ++ (d.tag ++ body ++ ')' :: blank)) :
    ∃ name, d.tag = name ++ ['('] ∧ c.Reads line (front ++ name) body (firstLine blank) n := by
  cases id spelled with
  | whole cell negative given all few =>
      obtain ⟨name, tag, group⟩ := lastGroup_of_tag Reading.wholeBody?_takes d single
        (.number negative given all) ends
      rw [← written, ← isBody_of_cell cell] at group
      exact ⟨name, tag, group, spelled⟩
  | real gauge decimal =>
      obtain ⟨name, tag, group⟩ := lastGroup_of_tag Reading.realBody?_takes d single decimal ends
      rw [← written, ← isBody_of_gauge gauge] at group
      exact ⟨name, tag, group, spelled⟩

theorem Framed.reads (framed : c.Framed line n) :
    ∃ name body blank, c.tag = name ++ ['('] ∧ line.toList = c.tag ++ body ++ ')' :: blank ∧
      (∀ d ∈ blank, Text.isBlank d = true) ∧ c.Reads line name body (firstLine blank) n := by
  obtain ⟨body, blank, written, ends, spelled⟩ := framed
  have alone : '\n' ∉ ([] : List Char) := by simp
  obtain ⟨name, tag, reads⟩ := reads_of_tag c alone spelled ends written
  exact ⟨name, body, blank, tag, written, ends, reads⟩

theorem Reads.framed_iff (reads : c.Reads line before body after n) :
    c.Framed line n ↔ before ++ ['('] = c.tag ∧
      ∃ blank, line.toList = before ++ '(' :: (body ++ ')' :: blank) ∧
        ∀ d ∈ blank, Text.isBlank d = true := by
  constructor
  · intro framed
    obtain ⟨name, body', blank, tag, written, ends, own⟩ := framed.reads
    obtain ⟨rfl, rfl, -⟩ := reads.group.unique IsBody.flat own.group
    refine ⟨tag.symm, blank, ?_, ends⟩
    rw [written, tag]
    simp
  · rintro ⟨tag, blank, written, ends⟩
    refine ⟨body, blank, ?_, ends, reads.spelled⟩
    rw [written, ← tag]
    simp

theorem reads_of_fused {cut : List Char} (d : Channel) (single : '\n' ∉ cut)
    (spelled : c.Spells body n) (ends : ∀ e ∈ blank, Text.isBlank e = true)
    (written : line.toList = c.tag ++ cut ++ (d.tag ++ body ++ ')' :: blank)) :
    (∃ before, c.Reads line before body (firstLine blank) n) ∧ ∀ m, ¬c.Framed line m := by
  have early : '\n' ∉ c.tag ++ cut := by
    have tag : '\n' ∉ c.tag := by cases c <;> decide
    simp [tag, single]
  obtain ⟨name, tag, reads⟩ := reads_of_tag d early spelled ends written
  refine ⟨⟨_, reads⟩, ?_⟩
  intro m framed
  obtain ⟨own, body', blank', ownTag, _, _, first⟩ := framed.reads
  obtain ⟨same, -, -⟩ := reads.group.unique IsBody.flat first.group
  -- the group of a framed line stands too early to lie behind a whole tag
  have size : own.length + 1 = c.tag.length := by rw [ownTag]; simp
  have length := congrArg List.length same
  simp only [List.length_append] at length
  omega

end Channel

namespace Board

/-- A line puts a number into a channel, and the number is announced less the offset. -/
def Delivers (b : Board) (line : String) (c : Channel) (n : Number) : Prop :=
  (b.decode line).1.raw = b.raw.set c (some n) ∧
    (b.decode line).2 = (announced c n (b.offset.get c)).map fun v => some ⟨c, v⟩

theorem delivers_of_reading (b : Board) {c : Channel} {line : String} {n : Number}
    (carried : c.tag <+: line.toList) (read : reading c line = .ok (some n)) :
    b.Delivers line c n := by
  rw [Delivers, b.decode_of_reading carried read]
  cases announced c n (b.offset.get c) with
  | error fault => exact ⟨rfl, rfl⟩
  | ok v => exact ⟨rfl, rfl⟩

end Board

/-- A line that begins with the tag of a channel delivers the number of its last group, wherever
that group stands.  Every framed line is read so, but so are others: the line was framed only if the
group stands at the tag and nothing but white space follows.  A line that was cut off and runs into
a line of any channel delivers the number of the second one on the channel of the first. -/
theorem delivers_last_group (b : Board) (c : Channel) (line : String)
    (carried : c.tag <+: line.toList) :
    (∀ before body after n, c.Reads line before body after n →
        b.Delivers line c n ∧
          (c.Framed line n ↔ before ++ ['('] = c.tag ∧
            ∃ blank, line.toList = before ++ '(' :: (body ++ ')' :: blank) ∧
              ∀ e ∈ blank, Text.isBlank e = true)) ∧
      ((¬∃ before body after n, c.Reads line before body after n) →
        b.decode line = ({ b with raw := b.raw.set c none }, .ok none) ∨
          ∃ count, Fault.digitLimit < count ∧
            b.decode line = (b, .error (.tooManyDigits count))) ∧
      (∀ n, c.Framed line n → b.Delivers line c n) ∧
      ∀ (cut : List Char) (d : Channel) body blank n, '\n' ∉ cut → c.Spells body n →
        (∀ e ∈ blank, Text.isBlank e = true) →
        line.toList = c.tag ++ cut ++ (d.tag ++ body ++ ')' :: blank) →
        b.Delivers line c n ∧ ∀ m, ¬c.Framed line m := by
  have delivers {before body after : List Char} {n : Number}
      (reads : c.Reads line before body after n) : b.Delivers line c n :=
    b.delivers_of_reading carried reads.reading
  refine ⟨fun before body after n reads => ⟨delivers reads, reads.framed_iff⟩, ?_, ?_, ?_⟩
  · intro none
    have tagged := Channel.ofLine?_eq_some_iff.mpr carried
    rcases Channel.reading_of_not_reads none with read | ⟨count, many, read⟩
    · exact .inl (by simp only [Board.decode, tagged, read])
    · exact .inr ⟨count, many, by simp only [Board.decode, tagged, read]⟩
  · intro n framed
    obtain ⟨name, body, blank, _, _, _, reads⟩ := framed.reads
    exact delivers reads
  · intro cut d body blank n single spelled ends written
    obtain ⟨⟨before, reads⟩, unframed⟩ := Channel.reads_of_fused d single spelled ends written
    exact ⟨delivers reads, unframed⟩

theorem delivers_last_group_fused :
    Channel.cell1.tag <+: "lc1(12lc2(34)".toList ∧
      Board.Delivers {} "lc1(12lc2(34)" .cell1 (.whole 34) ∧
      ∀ m, ¬Channel.cell1.Framed "lc1(12lc2(34)" m := by
  have carried : Channel.cell1.tag <+: "lc1(12lc2(34)".toList := by decide
  have three : Text.isDigit '3' = true := by decide
  have four : Text.isDigit '4' = true := by decide
  have digits : ∀ d ∈ ['3', '4'], Text.isDigit d = true := by simp [three, four]
  have spelled : Channel.cell1.Spells ['3', '4'] (.whole 34) :=
    .whole (.inl rfl) false (by simp) digits (by decide)
  exact ⟨carried, (delivers_last_group {} .cell1 "lc1(12lc2(34)" carried).2.2.2 ['1', '2'] .cell2
    ['3', '4'] [] _ (by decide) spelled (by simp) (by decide)⟩

end ThrustBench
