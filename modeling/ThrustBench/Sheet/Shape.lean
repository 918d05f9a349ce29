import ThrustBench.Datum

/-!
The shape of nested lists: how many items there are at each depth, as far down as all lists of a
depth have the same number of them.
-/

namespace ThrustBench.Sheet

/-- The sizes from the outside to the inside, and whether they tell all of the nesting. -/
structure Shape where
  sizes : List Nat
  regular : Bool
  deriving DecidableEq

namespace Shape

def common : List Nat → List Nat → List Nat
  | a :: as, b :: bs => if a = b then a :: common as bs else []
  | _, _ => []

def around : List Shape → Shape
  | [] => ⟨[0], true⟩
  | s :: ss =>
    ⟨(s :: ss).length :: ss.foldl (fun sizes t => common sizes t.sizes) s.sizes,
      (s :: ss).all fun t => t.regular && t.sizes == s.sizes⟩

mutual

def of : Datum → Shape
  | .list items => around (ofEach items)
  | _ => ⟨[], true⟩

def ofEach : List Datum → List Shape
  | [] => []
  | d :: ds => of d :: ofEach ds

end

def check (items : List Datum) : Except Fault Unit :=
  let shape := of (.list items)
  if shape.regular then .ok () else .error (.ragged shape.sizes)

end Shape

end ThrustBench.Sheet
