/-!
Double precision numbers held exactly.  A finite double is a signed whole number of steps of
`2 ^ -1074`, so its order is the order of integers, and every operation is an exact computation on
integers followed by one rounding to 53 significant bits.
-/

namespace ThrustBench

/-- A double: not a number, an infinity, or a signed whole number of steps of `2 ^ -1074`. -/
inductive Binary64 where
  | nan
  | infinity (negative : Bool)
  | finite (negative : Bool) (steps : Nat)
  deriving DecidableEq

namespace Binary64

/-- The number of steps in one. -/
def unit : Nat := Nat.pow 2 1074

/-- The first number of steps that is too large: `2 ^ 1024`. -/
def limit : Nat := Nat.pow 2 2098

/-- The whole number nearest to `num / den`; a half goes to the even neighbour. -/
def roundDiv (num den : Nat) : Nat :=
  let quotient := num / den
  let remainder := num % den
  if 2 * remainder < den then quotient
  else if den < 2 * remainder then quotient + 1
  else quotient + quotient % 2

/-- How many low bits of a number of steps lie beyond 53 significant ones. -/
def excess (steps : Nat) : Nat := steps.log2 - 52

def nearest (num den : Nat) : Nat :=
  let grain := Nat.pow 2 (excess (num / den))
  roundDiv num (den * grain) * grain

def ofSteps (negative : Bool) (num den : Nat) : Binary64 :=
  let steps := nearest num den
  if steps < limit then finite negative steps else infinity negative

def zero (negative : Bool) : Binary64 := finite negative 0

instance : Inhabited Binary64 := ⟨zero false⟩

def signed (negative : Bool) (steps : Nat) : Int :=
  if negative then -(steps : Int) else steps

def ofQuotient (num : Int) (den : Nat) : Binary64 :=
  ofSteps (decide (num < 0)) (num.natAbs * unit) den

def ofInt (n : Int) : Binary64 := ofQuotient n 1

def isInfinite : Binary64 → Bool
  | infinity _ => true
  | _ => false

def isZero : Binary64 → Bool
  | finite _ steps => steps == 0
  | _ => false

def neg : Binary64 → Binary64
  | nan => nan
  | infinity negative => infinity !negative
  | finite negative steps => finite (!negative) steps

def add : Binary64 → Binary64 → Binary64
  | nan, _ => nan
  | _, nan => nan
  | infinity a, infinity b => if a = b then infinity a else nan
  | infinity a, finite _ _ => infinity a
  | finite _ _, infinity b => infinity b
  | finite a m, finite b n =>
    let sum := signed a m + signed b n
    if sum = 0 then zero (a && b) else ofSteps (decide (sum < 0)) sum.natAbs 1

def sub (x y : Binary64) : Binary64 := add x y.neg

def mul : Binary64 → Binary64 → Binary64
  | nan, _ => nan
  | _, nan => nan
  | infinity a, infinity b => infinity (a ^^ b)
  | infinity a, finite b n => if n = 0 then nan else infinity (a ^^ b)
  | finite a m, infinity b => if m = 0 then nan else infinity (a ^^ b)
  | finite a m, finite b n => ofSteps (a ^^ b) (m * n) unit

/-- A quotient.  Division by zero has no value here: callers refuse it first. -/
def div : Binary64 → Binary64 → Binary64
  | nan, _ => nan
  | _, nan => nan
  | infinity _, infinity _ => nan
  | infinity a, finite b _ => infinity (a ^^ b)
  | finite a _, infinity b => zero (a ^^ b)
  | finite a m, finite b n => if n = 0 then nan else ofSteps (a ^^ b) (m * unit) n

def mod : Binary64 → Binary64 → Binary64
  | finite a m, finite b n =>
    if n = 0 then nan
    else if m % n = 0 then zero b
    else if a = b then finite a (m % n)
    else add (finite a (m % n)) (finite b n)
  | finite a m, infinity b => if m = 0 then zero b else if a = b then finite a m else infinity b
  | _, _ => nan

def lt : Binary64 → Binary64 → Bool
  | nan, _ => false
  | _, nan => false
  | infinity a, infinity b => a && !b
  | infinity a, finite _ _ => a
  | finite _ _, infinity b => !b
  | finite a m, finite b n => decide (signed a m < signed b n)

def eq : Binary64 → Binary64 → Bool
  | infinity a, infinity b => a == b
  | finite a m, finite b n => decide (signed a m = signed b n)
  | _, _ => false

def le (x y : Binary64) : Bool := lt x y || eq x y

def min (x y : Binary64) : Binary64 := if lt y x then y else x

def truncate : Binary64 → Int
  | finite negative steps => signed negative (steps / unit)
  | _ => 0

def roundToInt : Binary64 → Int
  | finite negative steps => signed negative (roundDiv steps unit)
  | _ => 0

end Binary64

end ThrustBench
