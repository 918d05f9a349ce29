import ThrustBench.Datum

/-!
Values of routines.  A routine is built bottom up: each part of the language makes a value of the
values of its own parts, and a statement or an expression becomes an action that can be carried out
later.  Nothing is checked before it is needed, so an action may hold values it cannot use.
-/

namespace ThrustBench.Routine

mutual

inductive Value where
  | datum (d : Datum)
  | list (items : List Value)
  | named (name : Value)
  | action (a : Action)

inductive Action where
  | fold (parts : List Value)
  | test (value : Value)
  | compare (left comparison right : Value)
  | setPwm (channel value : Value)
  | wait (seconds : Binary64)
  | readSensor (sensor : Value)
  | readAssign (target sensor : Value)
  | assign (target value : Value)
  | idle
  | branch (condition : Value) (whenTrue whenFalse : List Value)
  | loop (count : Int) (body : List Value)

end

namespace Value

instance : Inhabited Value := ⟨datum .nothing⟩

def text (s : String) : Value := datum (.text s)

def real (x : Binary64) : Value := datum (.real x)

def kind : Value → Kind
  | datum d => d.kind
  | list _ => .list
  | named _ => .pair
  | action _ => .action

def isAction : Value → Bool
  | action _ => true
  | _ => false

def actions (vs : List Value) : List Action :=
  vs.filterMap fun v =>
    match v with
    | action a => some a
    | _ => none

mutual

def shownInside : Value → String
  | datum d => d.shownInside
  | list items => "[" ++ shownItems items ++ "]"
  | named name => "('VAR', " ++ name.shownInside ++ ")"
  | action _ => "<function>"

def shownItems : List Value → String
  | [] => ""
  | [v] => v.shownInside
  | v :: w :: vs => v.shownInside ++ ", " ++ shownItems (w :: vs)

end

def shown : Value → String
  | datum d => d.shown
  | v => v.shownInside

def toReal : Value → Except Fault Binary64
  | datum d => d.toReal
  | v => .error (.notReal v.kind)

def truth : Value → Bool
  | datum d => d.truth
  | list items => !items.isEmpty
  | named _ => true
  | action _ => true

/-- Can a variable be kept under a value?  Lists and records are no names, nor are variables that
have such names. -/
def checkName : Value → Except Fault Unit
  | datum (.list _) | list _ => .error (.notHashable .list)
  | datum (.record _) => .error (.notHashable .record)
  | named name => name.checkName
  | _ => .ok ()

/-- Do two values name the same variable?  Numbers do if they are equal as numbers. -/
def sameName : Value → Value → Bool
  | datum a, datum b => a.equals b
  | named a, named b => sameName a b
  | _, _ => false

def asBlock : Value → List Value
  | list items => items
  | datum (.list items) => items.map datum
  | v => [v]

end Value

end ThrustBench.Routine
