import ThrustBench.Routine.Term
import ThrustBench.Routine.Part

/-!
Building the value of a routine from its terms, each after its own parts and from left to right.
-/

namespace ThrustBench.Routine

/-- The double nearest to a number of a text. -/
def spelled (text : List Char) : Binary64 :=
  ((Numeral.real? (String.ofList text)).toOption).getD .nan

def numberValue (text : List Char) : Value := .real (spelled text)

def nameValue (text : List Char) : Value := .text (String.ofList text)

mutual

def Expr.build : Expr → Except Fault Value
  | .plain sum => do Part.compare.make [← sum.build]
  | .compare left _ right => do
    let l ← left.build
    let sign ← Part.comparison.make []
    let r ← right.build
    Part.compare.make [l, sign, r]

def Sum.build : Sum → Except Fault Value
  | .mk first rest => do
    let v ← first.build
    Part.fold.make (v :: (← rest.build))

def Terms.build : Terms → Except Fault (List Value)
  | .nil => return []
  | .cons _ next rest => do
    let v ← next.build
    return v :: (← rest.build)

def Product.build : Product → Except Fault Value
  | .mk first rest => do
    let v ← first.build
    Part.fold.make (v :: (← rest.build))

def Factors.build : Factors → Except Fault (List Value)
  | .nil => return []
  | .cons _ next rest => do
    let v ← next.build
    return v :: (← rest.build)

def Atom.build : Atom → Except Fault Value
  | .number text => Part.number.make [numberValue text]
  | .name text => Part.name.make [nameValue text]
  | .group inner => inner.build

end

mutual

def Stmt.build : Stmt → Except Fault Value
  | .setPwm channel value => Part.setPwm.make [nameValue channel, numberValue value]
  | .wait seconds => Part.wait.make [numberValue seconds]
  | .readSensor sensor => Part.readSensor.make [nameValue sensor]
  | .readAssign target sensor => Part.readAssign.make [nameValue target, nameValue sensor]
  | .assign target value => do Part.assign.make [nameValue target, ← value.build]
  | .branch condition whenTrue => do
    let c ← condition.build
    let t ← Part.block.make (← buildAll whenTrue)
    Part.branch.make [c, t]
  | .branchElse condition whenTrue whenFalse => do
    let c ← condition.build
    let t ← Part.block.make (← buildAll whenTrue)
    let f ← Part.block.make (← buildAll whenFalse)
    Part.branch.make [c, t, f]
  | .loop count body => do
    let b ← Part.block.make (← buildAll body)
    Part.loop.make [numberValue count, b]
  | .block body => do
    let b ← Part.block.make (← buildAll body)
    Part.bareBlock.make [b]

def buildAll : List Stmt → Except Fault (List Value)
  | [] => return []
  | s :: ss => do
    let v ← s.build
    return v :: (← buildAll ss)

end

/-- The value of a routine: the list of its actions, or, of a single statement, its action. -/
def build : List Stmt → Except Fault Value
  | [s] => s.build
  | ss => do Part.routine.make (← buildAll ss)

end ThrustBench.Routine
