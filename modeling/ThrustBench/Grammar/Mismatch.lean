/-!
Where and why a text does not follow a grammar, and how that is told.
-/

namespace ThrustBench.Grammar

/-- A text that does not follow a grammar.  `position` is the furthest place that some beginning of
a derivation reaches, and `expected` names the terminals that could come next there. -/
structure Mismatch where
  text : List Char
  position : Nat
  expected : List String
  deriving DecidableEq

namespace Mismatch

def atEnd (m : Mismatch) : Bool := m.position == m.text.length

def lastLine (cs : List Char) : List Char :=
  (cs.reverse.takeWhile (· != '\n')).reverse

def firstLine (cs : List Char) : List Char := cs.takeWhile (· != '\n')

def line (m : Mismatch) : Int :=
  if m.atEnd then -1 else 1 + ((m.text.take m.position).count '\n' : Nat)

def column (m : Mismatch) : Int :=
  if m.atEnd then -1 else 1 + ((lastLine (m.text.take m.position)).length : Nat)

/-- The width of a text when tabs go to the next multiple of eight columns.  A carriage return
starts the columns again and still takes a place. -/
def tabbedWidth : Nat → List Char → Nat
  | _, [] => 0
  | column, '\t' :: cs =>
    let step := 8 - column % 8
    step + tabbedWidth (column + step) cs
  | column, c :: cs => 1 + tabbedWidth (if c = '\r' then 0 else column + 1) cs

def span : Nat := 40

def context (m : Mismatch) : String :=
  let before := lastLine ((m.text.take m.position).drop (m.position - span))
  let after := firstLine ((m.text.drop m.position).take span)
  String.ofList (before ++ after) ++ "\n"
    ++ String.ofList (List.replicate (tabbedWidth 0 before) ' ') ++ "^\n"

def expectedText (m : Mismatch) : String :=
  "Expected one of: \n" ++ String.join (m.expected.map fun name => "\t* " ++ name ++ "\n")

def message (m : Mismatch) : String :=
  if m.atEnd then "Unexpected end-of-input. " ++ m.expectedText
  else
    "No terminal matches '" ++ String.ofList ((m.text.drop m.position).take 1)
      ++ "' in the current parser context, at line " ++ toString m.line ++ " col "
      ++ toString m.column ++ "\n\n" ++ m.context ++ m.expectedText

end Mismatch

end ThrustBench.Grammar
