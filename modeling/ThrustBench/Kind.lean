/-!
Kinds of values, as messages name them.
-/

namespace ThrustBench

inductive Kind where
  | nothing
  | flag
  | whole
  | real
  | text
  | list
  | record
  | pair
  | action
  | builder
  deriving DecidableEq

def Kind.name : Kind → String
  | nothing => "NoneType"
  | flag => "bool"
  | whole => "int"
  | real => "float"
  | text => "str"
  | list => "list"
  | record => "dict"
  | pair => "tuple"
  | action => "function"
  | builder => "ProgramBuilder"

def Kind.givenName : Kind → String
  | nothing => "None"
  | kind => kind.name

end ThrustBench
