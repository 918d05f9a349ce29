import ThrustBench.Binary64.Basic

/-!
Decimal numerals and doubles.  `ofDecimal` reads a decimal as the nearest double, `shortest` finds
the fewest digits that read back, and `fixed` rounds to a given number of decimal places.
-/

namespace ThrustBench

/-- The decimal number `digits * 10 ^ exponent`. -/
structure Decimal where
  digits : Nat
  exponent : Int
  deriving DecidableEq

namespace Decimal

def width (n : Nat) : Nat := (Nat.toDigits 10 n).length

end Decimal

namespace Binary64

/-- The double nearest to a decimal.  Outside `10 ^ ±400` the answer is already known, which keeps
the powers of ten small. -/
def ofDecimal (negative : Bool) (d : Decimal) : Binary64 :=
  if d.digits = 0 then zero negative
  else
    let order := d.exponent + Decimal.width d.digits
    if 400 < order then infinity negative
    else if order < -400 then zero negative
    else if d.exponent < 0 then ofSteps negative (d.digits * unit) (Nat.pow 10 d.exponent.natAbs)
    else ofSteps negative (d.digits * Nat.pow 10 d.exponent.natAbs * unit) 1

/-- A number of steps measured on the grid of multiples of `10 ^ exponent`, as a numerator and a
denominator. -/
structure Grid where
  scale : Nat
  den : Nat

def grid (exponent : Int) : Grid :=
  if exponent < 0 then ⟨Nat.pow 10 exponent.natAbs, unit⟩
  else ⟨1, unit * Nat.pow 10 exponent.natAbs⟩

/-- Twice the distance to the ends of the interval of reals that round to `steps`: below, above. -/
def gaps (steps : Nat) : Nat × Nat :=
  let grain := Nat.pow 2 (excess steps)
  if excess steps ≠ 0 ∧ steps = Nat.pow 2 steps.log2 then (grain / 2, grain) else (grain, grain)

/-- Does the grid point `count` read back as `steps`?  The ends of the interval belong to it when
the last bit of the significand is even. -/
def readsBack (steps : Nat) (g : Grid) (count : Nat) : Bool :=
  let ends := gaps steps
  let low := (2 * steps - ends.1) * g.scale
  let high := (2 * steps + ends.2) * g.scale
  let point := 2 * count * g.den
  if (steps / Nat.pow 2 (excess steps)) % 2 = 0 then decide (low ≤ point) && decide (point ≤ high)
  else decide (low < point) && decide (point < high)

/-- The grid point next to `steps` that reads back, the nearer one if both do, the even one if
they are equally near. -/
def onGrid? (steps : Nat) (exponent : Int) : Option Decimal :=
  let g := grid exponent
  let below := steps * g.scale / g.den
  let close := roundDiv (steps * g.scale) g.den
  let far := if close = below then below + 1 else below
  if readsBack steps g close then some ⟨close, exponent⟩
  else if readsBack steps g far then some ⟨far, exponent⟩
  else none

def order (steps : Nat) : Int :=
  (Decimal.width (steps * Nat.pow 10 350 / unit) : Int) - 351

def shortestFrom (steps : Nat) : List Nat → Decimal
  | [] => (onGrid? steps (order steps - 16)).getD ⟨0, 0⟩
  | count :: counts =>
    match onGrid? steps (order steps + 1 - (count : Int)) with
    | some d => d
    | none => shortestFrom steps counts

def shortest (steps : Nat) : Decimal :=
  shortestFrom steps [1, 2, 3, 4, 5, 6, 7, 8, 9, 10, 11, 12, 13, 14, 15, 16, 17]

/-- A number of steps in units of `10 ^ -places`, a half going to the even neighbour. -/
def fixed (places steps : Nat) : Nat := roundDiv (steps * Nat.pow 10 places) unit

def roundPlaces (places : Nat) : Binary64 → Binary64
  | finite negative steps => ofDecimal negative ⟨fixed places steps, -(places : Int)⟩
  | x => x

end Binary64

end ThrustBench
