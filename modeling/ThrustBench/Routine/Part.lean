import ThrustBench.Routine.Value

/-!
The parts of routines, and how each makes its value of the values of its own parts.
-/

namespace ThrustBench.Routine

inductive Part where
  | number
  | name
  | fold
  | compare
  | comparison
  | setPwm
  | wait
  | readSensor
  | readAssign
  | assign
  | block
  | bareBlock
  | branch
  | loop
  | routine
  deriving DecidableEq

namespace Part

def all : List Part :=
  [number, name, fold, compare, comparison, setPwm, wait, readSensor, readAssign, assign, block,
    bareBlock, branch, loop, routine]

def label : Part → String
  | number => "number"
  | name => "var"
  | fold => "fold_bin"
  | compare => "cmp"
  | comparison => "comp_op"
  | setPwm => "set_pwm"
  | wait => "wait"
  | readSensor => "read_sensor"
  | readAssign => "read_assign"
  | assign => "assign"
  | block => "block"
  | bareBlock => "bare_block"
  | branch => "if_stmt"
  | loop => "repeat"
  | routine => "start"

def ofLabel? (s : String) : Option Part := all.find? fun p => p.label == s

def first : List Value → Except Fault Value
  | [] => .error .noSuchItem
  | v :: _ => .ok v

def unpackTwo : List Value → Except Fault (Value × Value)
  | [a, b] => .ok (a, b)
  | _ :: _ :: _ => .error (.tooManyValues 2)
  | few => .error (.tooFewValues 2 few.length)

def buildCompare : List Value → Except Fault Value
  | [v] => .ok (.action (.test v))
  | [left, sign, right] => .ok (.action (.compare left sign right))
  | _ :: _ :: _ :: _ => .error (.tooManyValues 3)
  | few => .error (.tooFewValues 3 few.length)

def buildBranch : List Value → Except Fault Value
  | condition :: whenTrue :: rest =>
    .ok (.action (.branch condition whenTrue.asBlock ((rest.head?.map Value.asBlock).getD [])))
  | _ => .error .noSuchItem

def keepActions (vs : List Value) : Value := .list (vs.filter Value.isAction)

def build : Part → List Value → Except Fault Value
  | number, args => first args
  | name, args => do return .named (← first args)
  | fold, args => .ok (.action (.fold args))
  | compare, args => buildCompare args
  | comparison, args => do return .text (← first args).shown
  | setPwm, args => do
    let (channel, value) ← unpackTwo args
    return .action (.setPwm channel value)
  | wait, args => do return .action (.wait (← (← first args).toReal))
  | readSensor, args => do return .action (.readSensor (← first args))
  | readAssign, args => do
    let (target, sensor) ← unpackTwo args
    return .action (.readAssign target sensor)
  | assign, args => do
    let (target, value) ← unpackTwo args
    return .action (.assign target value)
  | block, args => .ok (keepActions args)
  | bareBlock, _ => .ok (.action .idle)
  | branch, args => buildBranch args
  | loop, args => do
    let (count, body) ← unpackTwo args
    return .action (.loop (← Datum.wholeOfReal (← count.toReal)) body.asBlock)
  | routine, args => .ok (keepActions args)

def make (p : Part) (args : List Value) : Except Fault Value :=
  match p.build args with
  | .ok v => .ok v
  | .error fault => .error (.command p.label fault)

end Part

end ThrustBench.Routine
