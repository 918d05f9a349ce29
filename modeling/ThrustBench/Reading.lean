import ThrustBench.Datum

/-!
Readings on a line.  A reading is a number in parentheses; of several groups on the first line of
a text the last one that holds a number is read.
-/

namespace ThrustBench.Reading

def firstLine (cs : List Char) : List Char := cs.takeWhile (· != '\n')

/-- What `accept` makes of the text behind an opening parenthesis, at the last one it accepts. -/
def lastGroup? {α : Type} (accept : List Char → Option α) : List Char → Option α
  | [] => none
  | c :: cs =>
    match lastGroup? accept cs with
    | some a => some a
    | none => if c = '(' then accept cs else none

/-- The inside of a group that holds a whole number, or `n` for no reading. -/
inductive WholeBody where
  | unready
  | number (negative : Bool) (digits : List Char)
  deriving DecidableEq

def splitMinus : List Char → Bool × List Char
  | '-' :: cs => (true, cs)
  | cs => (false, cs)

/-- Reads `n)`, or an optional minus sign, decimal digits of any script and `)`. -/
def wholeBody? (cs : List Char) : Option WholeBody :=
  match cs with
  | 'n' :: ')' :: _ => some .unready
  | _ =>
    let (negative, body) := splitMinus cs
    let digits := body.takeWhile Text.isDigit
    match body.dropWhile Text.isDigit with
    | ')' :: _ => if digits.isEmpty then none else some (.number negative digits)
    | _ => none

def WholeBody.value : WholeBody → Except Fault (Option Int)
  | .unready => .ok none
  | .number negative digits =>
    if Fault.digitLimit < digits.length then .error (.tooManyDigits digits.length)
    else
      let value : Int := Text.digitsValue digits
      .ok (some (if negative then -value else value))

def whole (line : String) : Except Fault (Option Int) :=
  match lastGroup? wholeBody? (firstLine line.toList) with
  | some body => body.value
  | none => .ok none

def isPlainDigit (c : Char) : Bool := '0' ≤ c && c ≤ '9'

structure RealBody where
  negative : Bool
  front : List Char
  back : List Char
  deriving DecidableEq

/-- Reads an optional sign, plain digits with at most one point before the last digit, and `)`. -/
def realBody? (cs : List Char) : Option RealBody :=
  let (negative, body) := Numeral.splitSign cs
  let front := body.takeWhile isPlainDigit
  match body.dropWhile isPlainDigit with
  | ')' :: _ => if front.isEmpty then none else some ⟨negative, front, []⟩
  | '.' :: rest =>
    let back := rest.takeWhile isPlainDigit
    match rest.dropWhile isPlainDigit with
    | ')' :: _ => if back.isEmpty then none else some ⟨negative, front, back⟩
    | _ => none
  | _ => none

def RealBody.value (body : RealBody) : Binary64 :=
  Binary64.ofDecimal body.negative
    ⟨Text.digitsValue (body.front ++ body.back), -(body.back.length : Int)⟩

def real (line : String) : Option Binary64 :=
  (lastGroup? realBody? (firstLine line.toList)).map RealBody.value

end ThrustBench.Reading
