import ThrustBench.Routine.Term
import ThrustBench.Routine.Machine

/-!
Carrying out actions.
-/

namespace ThrustBench.Routine

/-- One step of a fold.  An unknown operator leaves the value as it is. -/
def applyOperator (value : Binary64) (operator : Value) (operand : Binary64) :
    Except Fault Binary64 :=
  match operator with
  | .datum (.text "+") => .ok (value.add operand)
  | .datum (.text "-") => .ok (value.sub operand)
  | .datum (.text "*") => .ok (value.mul operand)
  | .datum (.text "/") => if operand.isZero then .error .divisionByZero else .ok (value.div operand)
  | _ => .ok value

def foldFrom (value : Binary64) : List Value → Act Binary64
  | [] => return value
  | [_] => throw .noSuchItem
  | operator :: operand :: rest => do
    let right ← Act.operand operand
    let value ← Act.ofExcept (applyOperator value operator right)
    foldFrom value rest

def foldParts : List Value → Act Binary64
  | [] => throw .noSuchItem
  | first :: rest => do foldFrom (← Act.operand first) rest

def ordered (c : Comparison) (test : Number → Number → Bool) (left right : Datum) :
    Except Fault Bool :=
  match left.number?, right.number? with
  | some m, some n => .ok (test m n)
  | _, _ => .error (.unordered c.text left.kind right.kind)

def Comparison.holds (c : Comparison) (left right : Datum) : Except Fault Bool :=
  match c with
  | .atLeast => ordered c (fun m n => n.lt m || m.eq n) left right
  | .atMost => ordered c (fun m n => m.lt n || m.eq n) left right
  | .more => ordered c (fun m n => n.lt m) left right
  | .less => ordered c (fun m n => m.lt n) left right
  | .equal => .ok (left.equals right)
  | .different => .ok (!left.equals right)

/-- Compares two values by a sign.  An unknown sign makes no comparison that holds. -/
def applyComparison (left : Datum) (sign : Value) (right : Datum) : Except Fault Bool :=
  match sign with
  | .datum (.text s) =>
    match Comparison.all.find? fun c => c.text == s with
    | some c => c.holds left right
    | none => .ok false
  | _ => .ok false

def iterate (act : Act Unit) : Nat → Act Unit
  | 0 => return
  | count + 1 => do
    act
    iterate act count

mutual

def Value.run : Value → Act Datum
  | .action a => a.run
  | v => throw (.notCallable v.kind)

def Value.evaluate : Value → Act Datum
  | .action a => a.run
  | v => do return .real (← Act.operand v)

def Value.holds : Value → Act Bool
  | .action a => do return (← a.run).truth
  | v => return v.truth

def Action.run : Action → Act Datum
  | .fold parts => do return .real (← foldParts parts)
  | .test value => do return .flag (!(← value.evaluate).equals (.real (.zero false)))
  | .compare left comparison right => do
    let l ← left.evaluate
    let r ← right.evaluate
    return .flag (← Act.ofExcept (applyComparison l comparison r))
  | .setPwm channel value => do
    Act.unlessStopped
    Act.setPwm channel (← Act.ofExcept value.toReal)
    return .nothing
  | .wait seconds => do
    Act.unlessStopped
    Act.wait seconds
    return .nothing
  | .readSensor sensor => do
    Act.unlessStopped
    let _ ← Act.readSensor sensor
    return .nothing
  | .readAssign target sensor => do
    Act.unlessStopped
    Act.store target (← Act.readSensor sensor)
    return .nothing
  | .assign target value => do
    Act.unlessStopped
    Act.store target (← Act.ofExcept (← value.evaluate).toReal)
    return .nothing
  | .idle => return .nothing
  | .branch condition whenTrue whenFalse => do
    if ← condition.holds then runAll whenTrue else runAll whenFalse
    return .nothing
  | .loop count body => do
    iterate (runAll body) count.toNat
    return .nothing

def runAll : List Value → Act Unit
  | [] => return
  | v :: vs => do
    Act.unlessStopped
    let _ ← v.run
    runAll vs

end

end ThrustBench.Routine
