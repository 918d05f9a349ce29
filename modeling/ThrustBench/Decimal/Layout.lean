import ThrustBench.Decimal.Basic

/-!
How doubles are written.  `Binary64.text` gives the fewest digits that read back, positionally for
decimal exponents from -4 to 15 and with an exponent otherwise; `Binary64.fixedText` gives a fixed
number of decimal places.
-/

namespace ThrustBench

structure Layout where
  /-- The least decimal exponent that is written positionally. -/
  lowest : Int
  /-- The first decimal exponent above that is not. -/
  highest : Int
  exponentWidth : Nat
  notANumber : String
  infinite : String

/-- Readings are positional from `0.0001` to below `10 ^ 16`; an exponent has a sign and two
digits at least. -/
def Layout.reading : Layout := ⟨-4, 16, 2, "nan", "inf"⟩

def padZeros (width : Nat) (s : String) : String :=
  String.ofList (List.replicate (width - s.length) '0') ++ s

def wholeText (n : Int) : String :=
  if n < 0 then "-" ++ toString n.natAbs else toString n.natAbs

namespace Decimal

def significant (d : Decimal) : List Char :=
  ((Nat.toDigits 10 d.digits).reverse.dropWhile (· == '0')).reverse

def leading (d : Decimal) : Int := d.exponent + (width d.digits : Int) - 1

def positional (digits : List Char) (leading : Int) : List Char :=
  if leading < 0 then
    '0' :: '.' :: (List.replicate (leading.natAbs - 1) '0' ++ digits)
  else
    let whole := leading.natAbs + 1
    let front := digits.take whole
    let back := digits.drop whole
    front ++ List.replicate (whole - front.length) '0' ++
      '.' :: (if back.isEmpty then ['0'] else back)

def scientific (layout : Layout) (digits : List Char) (leading : Int) : List Char :=
  let front := digits.take 1
  let back := digits.drop 1
  let mark := if leading < 0 then '-' else '+'
  front ++ (if back.isEmpty then [] else '.' :: back) ++
    'e' :: mark :: (padZeros layout.exponentWidth (toString leading.natAbs)).toList

def text (layout : Layout) (d : Decimal) : String :=
  if layout.lowest ≤ d.leading ∧ d.leading < layout.highest then
    String.ofList (positional d.significant d.leading)
  else String.ofList (scientific layout d.significant d.leading)

end Decimal

namespace Binary64

def sign (negative : Bool) : String := if negative then "-" else ""

def text : Binary64 → String
  | nan => Layout.reading.notANumber
  | infinity negative => sign negative ++ Layout.reading.infinite
  | finite negative steps =>
    sign negative ++ (if steps = 0 then "0.0" else (shortest steps).text Layout.reading)

def pointed (places units : Nat) : String :=
  let digits := (padZeros (places + 1) (toString units)).toList
  let whole := digits.length - places
  String.ofList (digits.take whole) ++ "." ++ String.ofList (digits.drop whole)

def fixedText (places width : Nat) : Binary64 → String
  | nan => padZeros width Layout.reading.notANumber
  | infinity negative =>
    sign negative ++ padZeros (width - (sign negative).length) Layout.reading.infinite
  | finite negative steps =>
    sign negative ++ padZeros (width - (sign negative).length) (pointed places (fixed places steps))

end Binary64

end ThrustBench
