import ThrustBench.Datum

/-!
The forms in which a sheet stores its values.  A column keeps one form as long as its values allow
it; values of two forms are stored together in a form that holds both.
-/

namespace ThrustBench.Sheet

inductive Form where
  | absent
  | flag
  | whole
  /-- Whole numbers of 64 bits without a sign. -/
  | word
  | real
  | mixed
  deriving DecidableEq

def missing : Datum := .real .nan

def isMissing : Datum → Bool
  | .nothing => true
  | .real .nan => true
  | _ => false

namespace Form

def ofWhole (n : Int) : Form :=
  if -(Int.pow 2 63) ≤ n ∧ n < Int.pow 2 63 then whole
  else if 0 ≤ n ∧ n < Int.pow 2 64 then word
  else mixed

def own : Datum → Form
  | .flag _ => flag
  | .whole n => ofWhole n
  | .real _ => real
  | _ => mixed

def isNumeric : Form → Bool
  | flag | whole | word | real => true
  | absent | mixed => false

def holdsMissing : Form → Bool
  | real | mixed => true
  | absent | flag | whole | word => false

/-- The form for values of two forms.  Flags become numbers, and whole numbers with and without a
sign have only the doubles in common. -/
def merge (a b : Form) : Form :=
  if a = b then a
  else if !a.isNumeric || !b.isNumeric then mixed
  else if a = flag then b
  else if b = flag then a
  else real

/-- The form for values of two forms that keeps flags apart from numbers. -/
def mergeApart (a b : Form) : Form :=
  if a = b then a else if a = flag ∨ b = flag then mixed else a.merge b

def withMissing : Form → Form
  | whole | word => real
  | flag => mixed
  | form => form

def cast : Form → Datum → Datum
  | real, .whole n => .real (.ofInt n)
  | real, .flag b => .real (.ofInt (if b then 1 else 0))
  | real, .nothing => missing
  | whole, .flag b | word, .flag b => .whole (if b then 1 else 0)
  | _, d => d

end Form

end ThrustBench.Sheet
