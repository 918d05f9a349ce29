/-!
The four channels of the stand, and one value for each of them.
-/

namespace ThrustBench

inductive Channel where
  | cell1
  | cell2
  | current
  | voltage
  deriving DecidableEq

namespace Channel

def all : List Channel := [cell1, cell2, current, voltage]

def name : Channel → String
  | cell1 => "cell1"
  | cell2 => "cell2"
  | current => "current"
  | voltage => "voltage"

/-- What a line that carries a reading of the channel begins with. -/
def tag : Channel → List Char
  | cell1 => ['l', 'c', '1', '(']
  | cell2 => ['l', 'c', '2', '(']
  | current => ['c', 'u', 'r', '(']
  | voltage => ['v', 't', 'g', '(']

def ofLine? (line : List Char) : Option Channel :=
  all.find? fun c => c.tag.isPrefixOf line

def ofName? (name : String) : Option Channel := all.find? fun c => c.name == name

end Channel

structure Channels (α : Type) where
  cell1 : α
  cell2 : α
  current : α
  voltage : α
  deriving DecidableEq

namespace Channels

variable {α : Type}

def const (a : α) : Channels α := ⟨a, a, a, a⟩

def get (v : Channels α) : Channel → α
  | .cell1 => v.cell1
  | .cell2 => v.cell2
  | .current => v.current
  | .voltage => v.voltage

def set (v : Channels α) (c : Channel) (a : α) : Channels α :=
  match c with
  | .cell1 => { v with cell1 := a }
  | .cell2 => { v with cell2 := a }
  | .current => { v with current := a }
  | .voltage => { v with voltage := a }

def toList (v : Channels α) : List α := Channel.all.map v.get

@[simp] theorem get_const (a : α) (c : Channel) : (const a).get c = a := by
  cases c <;> rfl

theorem get_set (v : Channels α) (c d : Channel) (a : α) :
    (v.set c a).get d = if d = c then a else v.get d := by
  cases c <;> cases d <;> rfl

@[simp] theorem get_set_self (v : Channels α) (c : Channel) (a : α) : (v.set c a).get c = a := by
  simp [get_set]

theorem get_set_of_ne (v : Channels α) {c d : Channel} (a : α) (other : d ≠ c) :
    (v.set c a).get d = v.get d := by
  simp [get_set, other]

theorem ext_get {v w : Channels α} (same : ∀ c, v.get c = w.get c) : v = w := by
  cases v; cases w
  have first := same .cell1
  have second := same .cell2
  have third := same .current
  have fourth := same .voltage
  simp_all [get]

end Channels

end ThrustBench
