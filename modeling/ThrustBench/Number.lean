import ThrustBench.Numeral
import ThrustBench.Decimal.Layout

/-!
Numbers, whole or real.  Whole numbers have no bounds; where the two kinds meet, they are compared
exactly and combined as doubles.
-/

namespace ThrustBench

inductive Number where
  | whole (n : Int)
  | real (x : Binary64)
  deriving DecidableEq

namespace Number

def kind : Number → Kind
  | whole _ => .whole
  | real _ => .real

def text : Number → String
  | whole n => wholeText n
  | real x => x.text

def toReal : Number → Except Fault Binary64
  | whole n =>
    let x := Binary64.ofInt n
    if x.isInfinite then .error .wholeTooLarge else .ok x
  | real x => .ok x

def sub : Number → Number → Except Fault Number
  | whole m, whole n => .ok (whole (m - n))
  | m, n => do
    let x ← m.toReal
    let y ← n.toReal
    return real (x.sub y)

def div : Number → Number → Except Fault Binary64
  | whole m, whole n =>
    if n = 0 then .error .divisionByZero
    else
      let x := Binary64.ofQuotient (if n < 0 then -m else m) n.natAbs
      if x.isInfinite then .error .quotientTooLarge else .ok x
  | m, n => do
    let x ← m.toReal
    let y ← n.toReal
    if y.isZero then .error .divisionByZero else .ok (x.div y)

/-- A number of steps of `2 ^ -1074` as an integer, exact for both kinds of numbers; none for
what is not finite. -/
def steps? : Number → Option Int
  | whole n => some (n * Binary64.unit)
  | real (.finite negative steps) => some (Binary64.signed negative steps)
  | real _ => none

def lt : Number → Number → Bool
  | real x, real y => x.lt y
  | m, n =>
    match m.steps?, n.steps? with
    | some a, some b => decide (a < b)
    | some _, none => n == real (.infinity false)
    | none, _ => m == real (.infinity true)

def eq : Number → Number → Bool
  | real x, real y => x.eq y
  | m, n =>
    match m.steps?, n.steps? with
    | some a, some b => decide (a = b)
    | _, _ => false

end Number

end ThrustBench
