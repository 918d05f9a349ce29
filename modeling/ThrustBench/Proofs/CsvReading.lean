import ThrustBench.Sheet.Csv

/-!
Reading comma separated values.  A reader goes through the text character by character; it reads
the lines that were written as the fields they were written from, whatever stands in them.
-/

namespace ThrustBench.Sheet.Csv

inductive Mode where
  | start
  | plain
  | quoted
  /-- Behind a quotation mark, which ended the field or is the first of two. -/
  | marked
  deriving DecidableEq

structure Reader where
  mode : Mode := .start
  field : List Char := []
  fields : List (List Char) := []
  lines : List (List (List Char)) := []

namespace Reader

def add (r : Reader) (mode : Mode) (c : Char) : Reader :=
  { r with mode, field := r.field ++ [c] }

def endField (r : Reader) : Reader :=
  { r with mode := .start, field := [], fields := r.fields ++ [r.field] }

def endLine (r : Reader) : Reader :=
  { lines := r.lines ++ [r.fields ++ [r.field]] }

def outside (r : Reader) (c : Char) : Reader :=
  if c = ',' then r.endField else if c = '\n' then r.endLine else r.add .plain c

def step (r : Reader) (c : Char) : Reader :=
  match r.mode with
  | .start => if c = '"' then { r with mode := .quoted } else r.outside c
  | .plain => r.outside c
  | .quoted => if c = '"' then { r with mode := .marked } else r.add .quoted c
  | .marked => if c = '"' then r.add .quoted c else r.outside c

def run (r : Reader) (text : List Char) : Reader := text.foldl step r

theorem run_append (r : Reader) (first second : List Char) :
    r.run (first ++ second) = (r.run first).run second := by
  simp [run]

variable {r : Reader}

theorem step_comma (closed : r.mode ≠ .quoted) : r.step ',' = r.endField := by
  cases mode : r.mode with
  | quoted => exact absurd mode closed
  | start | plain | marked => simp [step, mode, outside]

theorem step_lineFeed (closed : r.mode ≠ .quoted) : r.step '\n' = r.endLine := by
  cases mode : r.mode with
  | quoted => exact absurd mode closed
  | start | plain | marked => simp [step, mode, outside]

theorem run_doubled (text : List Char) : ∀ {r : Reader}, r.mode = .quoted →
    r.run (doubled text) = { r with field := r.field ++ text } := by
  induction text with
  | nil =>
      intro r mode
      simp [doubled, run]
  | cons c text ih =>
      intro r mode
      have next : r.run (doubled (c :: text)) = (r.add .quoted c).run (doubled text) := by
        by_cases quote : c = '"'
        · simp [doubled, quote, run, step, mode, add]
        · simp [doubled, quote, run, step, mode]
      rw [next, ih rfl]
      simp [add, mode]

theorem run_plain (text : List Char) (plain : ∀ c ∈ text, isSpecial c = false) :
    ∀ {r : Reader}, r.mode = .start ∨ r.mode = .plain →
      r.run text = { r with
        mode := if text = [] then r.mode else .plain
        field := r.field ++ text } := by
  induction text with
  | nil =>
      intro r mode
      simp [run]
  | cons c text ih =>
      intro r mode
      have usual := plain c (by simp)
      simp only [isSpecial, Bool.or_eq_false_iff, beq_eq_false_iff_ne] at usual
      have next : r.step c = r.add .plain c := by
        rcases mode with mode | mode
        · simp [step, mode, outside, usual]
        · simp [step, mode, outside, usual]
      have rest := ih (fun d member => plain d (by simp [member])) (r := r.add .plain c) (.inr rfl)
      rw [run, List.foldl_cons, next]
      rw [run] at rest
      rw [rest]
      simp [add]

theorem run_field (text : List Char) (mode : r.mode = .start) (fresh : r.field = []) :
    ∃ mode, mode ≠ .quoted ∧ r.run (Csv.field text) = { r with mode, field := text } := by
  unfold Csv.field
  by_cases special : text.any isSpecial = true
  · rw [if_pos special]
    refine ⟨.marked, by decide, ?_⟩
    have opened : r.step '"' = { r with mode := .quoted } := by simp [step, mode]
    have inside := run_doubled text (r := { r with mode := .quoted }) rfl
    have whole : r.run ('"' :: (doubled text ++ ['"'])) =
        ({ r with mode := .quoted }.run (doubled text)).step '"' := by
      rw [← opened]
      simp [run]
    rw [whole, inside]
    simp [step, fresh]
  · rw [if_neg special]
    refine ⟨if text = [] then r.mode else .plain, ?_, ?_⟩
    · split
      · rw [mode]
        decide
      · decide
    · rw [run_plain text (by simpa using special) (.inl mode), fresh, List.nil_append]

theorem run_joined (fields : List (List Char)) (given : fields ≠ []) :
    ∀ {r : Reader}, r.mode = .start → r.field = [] →
      r.run (joined (fields.map Csv.field) ++ ['\n']) =
        { lines := r.lines ++ [r.fields ++ fields] } := by
  induction fields with
  | nil => exact absurd rfl given
  | cons text fields ih =>
      intro r mode fresh
      obtain ⟨last, closed, read⟩ := run_field text mode fresh
      cases fields with
      | nil =>
          have ended := step_lineFeed (r := { r with mode := last, field := text }) closed
          simp only [List.map_cons, List.map_nil, joined, run_append, read]
          exact ended
      | cons next fields =>
          have ended := step_comma (r := { r with mode := last, field := text }) closed
          have split : joined ((text :: next :: fields).map Csv.field) ++ ['\n'] =
              Csv.field text ++ ([','] ++ (joined ((next :: fields).map Csv.field) ++ ['\n'])) := by
            simp [joined]
          have comma : run { r with mode := last, field := text } [','] =
              endField { r with mode := last, field := text } := ended
          rw [split, run_append, run_append, read, comma,
            ih (by simp) (r := endField { r with mode := last, field := text }) rfl rfl]
          simp [endField]

theorem run_line {fields : List (List Char)} (given : fields ≠ []) {r : Reader}
    (mode : r.mode = .start) (fresh : r.field = []) (first : r.fields = []) :
    r.run (line fields) = { lines := r.lines ++ [fields] } := by
  unfold line
  split
  · obtain ⟨_, _, _, lines⟩ := r
    cases mode
    cases fresh
    cases first
    rfl
  · rw [run_joined fields given mode fresh, first, List.nil_append]

theorem run_lines (lines : List (List (List Char))) (given : ∀ fields ∈ lines, fields ≠ [])
    (earlier : List (List (List Char))) :
    run { lines := earlier } (lines.flatMap line) = { lines := earlier ++ lines } := by
  induction lines generalizing earlier with
  | nil => simp [run]
  | cons fields lines ih =>
      have first := run_line (given fields (by simp)) (r := { lines := earlier }) rfl rfl rfl
      rw [List.flatMap_cons, run_append, first,
        ih (fun f member => given f (by simp [member]))]
      simp

end Reader

/-- The fields on each line of a text, if the text ends where a line does. -/
def read (text : List Char) : Option (List (List (List Char))) :=
  let r := Reader.run {} text
  if r.mode = .start ∧ r.field = [] ∧ r.fields = [] then some r.lines else none

theorem read_lines (lines : List (List (List Char))) (given : ∀ fields ∈ lines, fields ≠ []) :
    read (lines.flatMap line) = some lines := by
  have done := Reader.run_lines lines given []
  rw [List.nil_append] at done
  simp only [read, done, and_self, if_true]

example : read (line [['a', ','], ['"'], ['\n']] ++ line [[]]) =
    some [[['a', ','], ['"'], ['\n']], [[]]] := by decide

end ThrustBench.Sheet.Csv
