import ThrustBench.Fault
import ThrustBench.Decimal.Basic
import ThrustBench.Text.Blank
import ThrustBench.Text.Digit

/-!
Numbers written as texts.  White space around a number is dropped, digits of every script count,
and single underscores may stand between digits.
-/

namespace ThrustBench.Numeral

/-- White space around a number.  Of the plain characters only the blank and the characters that
move the carriage are, so that the separators `U+001C` to `U+001F` are not. -/
def isBlank (c : Char) : Bool :=
  if c.toNat < 0x7f then Text.isPlainBlank c else Text.isBlank c

def splitSign : List Char → Bool × List Char
  | '-' :: cs => (true, cs)
  | '+' :: cs => (false, cs)
  | cs => (false, cs)

def underscoresFit : Bool → List Char → Bool
  | _, [] => true
  | afterDigit, '_' :: c :: cs => afterDigit && Text.isDigit c && underscoresFit true cs
  | _, ['_'] => false
  | _, c :: cs => underscoresFit (Text.isDigit c) cs

def whole? (text : String) : Except Fault Int :=
  let (negative, body) := splitSign (Text.trimBy isBlank text.toList)
  let run := body.takeWhile fun c => Text.isDigit c || c == '_'
  let rest := body.dropWhile fun c => Text.isDigit c || c == '_'
  let digits := run.filter Text.isDigit
  if run.isEmpty || !underscoresFit false run then .error (.notWholeText text)
  else if Fault.digitLimit < digits.length then .error (.tooManyDigits digits.length)
  else if !rest.isEmpty then .error (.notWholeText text)
  else
    let value : Int := Text.digitsValue digits
    .ok (if negative then -value else value)

def splitDigits (cs : List Char) : List Char × List Char :=
  (cs.takeWhile Text.isDigit, cs.dropWhile Text.isDigit)

def exponent? : List Char → Option Int
  | [] => some 0
  | mark :: cs =>
    if mark = 'e' ∨ mark = 'E' then
      let (negative, body) := splitSign cs
      let (digits, rest) := splitDigits body
      if digits.isEmpty || !rest.isEmpty then none
      else
        let value : Int := Text.digitsValue digits
        some (if negative then -value else value)
    else none

def splitFraction : List Char → List Char × List Char
  | '.' :: cs => splitDigits cs
  | cs => ([], cs)

def decimal? (cs : List Char) : Option Decimal :=
  let (front, afterFront) := splitDigits cs
  let (back, rest) := splitFraction afterFront
  if front.isEmpty && back.isEmpty then none
  else
    (exponent? rest).map fun exponent =>
      ⟨Text.digitsValue (front ++ back), exponent - (back.length : Int)⟩

def word? (negative : Bool) (cs : List Char) : Option Binary64 :=
  let word := String.ofList (cs.map Char.toLower)
  if word = "inf" ∨ word = "infinity" then some (.infinity negative)
  else if word = "nan" then some .nan
  else none

def real? (text : String) : Except Fault Binary64 :=
  let trimmed := Text.trimBy isBlank text.toList
  let (negative, body) := splitSign (trimmed.filter (· != '_'))
  let value :=
    match word? negative body with
    | some x => some x
    | none => (decimal? body).map (Binary64.ofDecimal negative)
  match value with
  | some x => if underscoresFit false trimmed then .ok x else .error (.notRealText text)
  | none => .error (.notRealText text)

end ThrustBench.Numeral
