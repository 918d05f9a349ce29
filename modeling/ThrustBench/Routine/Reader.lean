import ThrustBench.Fault
import ThrustBench.Text.Digit
import ThrustBench.Grammar.Rule
import ThrustBench.Routine.Term

/-!
Reading routines.  White space and comments may stand between any two terminals.  Words need no
separation and are not reserved, so every way to read a text is followed; a reading of a sensor is
preferred to the assignment of a variable whose name begins with its word.
-/

namespace ThrustBench.Routine

def isSpace (c : Char) : Bool :=
  c == ' ' || c == '\t' || c == '\x0c' || c == '\r' || c == '\n'

/-- Drops white space and comments; the flag says that a comment is open. -/
def skipFrom : Bool → List Char → List Char
  | _, [] => []
  | true, c :: cs => skipFrom (c != '\n') cs
  | false, c :: cs =>
    if c = '#' then skipFrom true cs else if isSpace c then skipFrom false cs else c :: cs

def skip (cs : List Char) : List Char := skipFrom false cs

def cutExact : List Char → List Char → Option (List Char × List Char)
  | [], cs => some ([], cs)
  | _ :: _, [] => none
  | w :: ws, c :: cs => if w = c then (cutExact ws cs).map fun r => (c :: r.1, r.2) else none

def startsName (c : Char) : Bool := c.isAlpha || c == '_'
def continuesName (c : Char) : Bool := c.isAlphanum || c == '_'

def cutName : List Char → Option (List Char × List Char)
  | c :: cs =>
    if startsName c then some (c :: cs.takeWhile continuesName, cs.dropWhile continuesName)
    else none
  | [] => none

def cutDigits (cs : List Char) : Option (List Char × List Char) :=
  let digits := cs.takeWhile Text.isDigit
  if digits.isEmpty then none else some (digits, cs.dropWhile Text.isDigit)

def cutFraction : List Char → List Char × List Char
  | '.' :: cs =>
    match cutDigits cs with
    | some (digits, rest) => ('.' :: digits, rest)
    | none => ([], '.' :: cs)
  | cs => ([], cs)

def cutUnsigned (cs : List Char) : Option (List Char × List Char) :=
  (cutDigits cs).map fun r =>
    let fraction := cutFraction r.2
    (r.1 ++ fraction.1, fraction.2)

def cutNumber : List Char → Option (List Char × List Char)
  | '-' :: cs => (cutUnsigned cs).map fun r => ('-' :: r.1, r.2)
  | cs => cutUnsigned cs

def cut : Terminal → List Char → Option (List Char × List Char)
  | .keyword k, cs => cutExact k.text.toList cs
  | .name, cs => cutName cs
  | .number, cs => cutNumber cs
  | .sign s, cs => cutExact s.text.toList cs
  | .comparison c, cs => cutExact c.text.toList cs

def lexicon : Grammar.Lexicon Terminal := ⟨Terminal.label, cut, skip⟩

open Grammar (Rule)

def take (t : Terminal) : Rule Terminal (List Char) := Rule.terminal lexicon t

def takeSign (s : Sign) : Rule Terminal Unit := do
  let _ ← take (.sign s)

def takeKeyword (k : Keyword) : Rule Terminal Unit := do
  let _ ← take (.keyword k)

def addOp : Rule Terminal AddOp :=
  Rule.either (do takeSign .plus; return .plus) (do takeSign .minus; return .minus)

def mulOp : Rule Terminal MulOp :=
  Rule.either (do takeSign .times; return .times) (do takeSign .divide; return .divide)

def comparison : Rule Terminal Comparison :=
  Rule.oneOf (Comparison.all.map fun c => do
    let _ ← take (.comparison c)
    return c)

def atom (inner : Rule Terminal Expr) : Rule Terminal Atom :=
  Rule.oneOf
    [do return .number (← take .number),
     do return .name (← take .name),
     do
      takeSign .openParen
      let e ← inner
      takeSign .closeParen
      return .group e]

def product (inner : Rule Terminal Expr) : Rule Terminal Product := do
  let first ← atom inner
  let rest ← Rule.star do
    let op ← mulOp
    let next ← atom inner
    return (op, next)
  return .mk first (.ofList rest)

def sum (inner : Rule Terminal Expr) : Rule Terminal Sum := do
  let first ← product inner
  let rest ← Rule.star do
    let op ← addOp
    let next ← product inner
    return (op, next)
  return .mk first (.ofList rest)

def exprOf (inner : Rule Terminal Expr) : Rule Terminal Expr := do
  let left ← sum inner
  let right ← Rule.optional do
    let c ← comparison
    let right ← sum inner
    return (c, right)
  match right with
  | some (c, right) => return .compare left c right
  | none => return .plain left

def exprTo : Nat → Rule Terminal Expr
  | 0 => Rule.none
  | depth + 1 => exprOf (exprTo depth)

/-- An expression: nesting takes characters, so a text's length bounds its depth. -/
def expr : Rule Terminal Expr := fun cs => exprTo (cs.length + 1) cs

def block (statement : Rule Terminal Stmt) : Rule Terminal (List Stmt) := do
  takeSign .openBrace
  let body ← Rule.star statement
  takeSign .closeBrace
  return body

def statementOf (inner : Rule Terminal Stmt) : Rule Terminal Stmt :=
  Rule.oneOf
    [do
      takeKeyword .setPwm
      let channel ← take .name
      let value ← take .number
      return .setPwm channel value,
     do
      takeKeyword .wait
      return .wait (← take .number),
     do
      takeKeyword .readSensor
      return .readSensor (← take .name),
     do
      let target ← take .name
      takeSign .assign
      takeKeyword .readSensor
      return .readAssign target (← take .name),
     do
      let target ← take .name
      takeSign .assign
      return .assign target (← expr),
     do
      takeKeyword .branch
      let condition ← expr
      takeKeyword .whenTrue
      let whenTrue ← block inner
      let whenFalse ← Rule.optional do
        takeKeyword .whenFalse
        block inner
      match whenFalse with
      | some whenFalse => return .branchElse condition whenTrue whenFalse
      | none => return .branch condition whenTrue,
     do
      takeKeyword .loop
      let count ← take .number
      return .loop count (← block inner),
     do return .block (← block inner)]

def statementTo : Nat → Rule Terminal Stmt
  | 0 => Rule.none
  | depth + 1 => statementOf (statementTo depth)

def statement : Rule Terminal Stmt := fun cs => statementTo (cs.length + 1) cs

def routine : Rule Terminal (List Stmt) := Rule.star statement

def parse (text : String) : Except Fault (List Stmt) :=
  match Rule.derive lexicon routine text.toList with
  | .ok program => .ok program
  | .error m => .error (.mismatch m)

end ThrustBench.Routine
