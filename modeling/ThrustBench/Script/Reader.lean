import ThrustBench.Fault
import ThrustBench.Grammar.Rule
import ThrustBench.Script.Command

/-!
Reading test scripts.  A script is one command or more; white space may stand between any two
terminals and is needed only between two whole numbers.
-/

namespace ThrustBench.Script

def isSpace (c : Char) : Bool :=
  c == ' ' || c == '\t' || c == '\x0c' || c == '\r' || c == '\n'

def cutWord (same : Char → Char → Bool) : List Char → List Char →
    Option (List Char × List Char)
  | [], cs => some ([], cs)
  | _ :: _, [] => none
  | w :: ws, c :: cs =>
    if same w c then (cutWord same ws cs).map fun r => (c :: r.1, r.2) else none

/-- The same letter in either case; the long s is an s. -/
def sameLetter (w c : Char) : Bool := c.toUpper == w || (w == 'S' && c.toNat == 0x17f)

def cutDigits (cs : List Char) : Option (List Char × List Char) :=
  let digits := cs.takeWhile Char.isDigit
  if digits.isEmpty then none else some (digits, cs.dropWhile Char.isDigit)

def cut : Terminal → List Char → Option (List Char × List Char)
  | .keyword v, cs => cutWord (· == ·) v.keyword.toList cs
  | .argument .whole, cs => cutDigits cs
  | .argument .switch, cs =>
    (cutWord sameLetter ['T', 'R', 'U', 'E'] cs).or
      (cutWord sameLetter ['F', 'A', 'L', 'S', 'E'] cs)

def lexicon : Grammar.Lexicon Terminal := ⟨Terminal.name, cut, List.dropWhile isSpace⟩

open Grammar (Rule)

def arguments : List Argument → Rule Terminal (List (List Char))
  | [] => return []
  | sort :: sorts => do
    let text ← Rule.terminal lexicon (.argument sort)
    let texts ← arguments sorts
    return text :: texts

def command (v : Verb) : Rule Terminal Command := do
  let _ ← Rule.terminal lexicon (.keyword v)
  let texts ← arguments v.signature
  return ⟨v, texts⟩

def script : Rule Terminal (List Command) := Rule.plus (Rule.oneOf (Verb.all.map command))

def parse (text : String) : Except Fault (List Command) :=
  match Rule.derive lexicon script text.toList with
  | .ok commands => .ok commands
  | .error m => .error (.mismatch m)

def parseFile (bytes : List UInt8) : Except Fault (List Command) :=
  match Text.decode? bytes with
  | .ok text => parse (String.ofList (Text.unixLines text.toList))
  | .error fault => .error (.undecodable fault)

end ThrustBench.Script
