import ThrustBench.Channel
import ThrustBench.Grammar.Tree

/-!
The commands of test scripts.  A command is a verb and the texts of its arguments.
-/

namespace ThrustBench.Script

inductive Verb where
  | setThrottle
  | read (channel : Channel)
  | wait
  | useSpreadsheet
  | useRaw
  | writeSheetCell
  | addPoint
  deriving DecidableEq

inductive Argument where
  | whole
  | switch
  deriving DecidableEq

namespace Verb

def all : List Verb :=
  [setThrottle, read .cell1, read .cell2, read .current, read .voltage, wait, useSpreadsheet,
    useRaw, writeSheetCell, addPoint]

def keyword : Verb → String
  | setThrottle => "SET_THROTTLE"
  | read .cell1 => "READ_CELL_1"
  | read .cell2 => "READ_CELL_2"
  | read .current => "READ_CURRENT"
  | read .voltage => "READ_VOLTAGE"
  | wait => "WAIT"
  | useSpreadsheet => "USE_SPREADSHEET"
  | useRaw => "USE_RAW"
  | writeSheetCell => "WRITE_SHEET_CELL"
  | addPoint => "ADD_POINT"

def rule : Verb → String
  | setThrottle => "set_throttle"
  | read .cell1 => "read_cell_1"
  | read .cell2 => "read_cell_2"
  | read .current => "read_current"
  | read .voltage => "read_voltage"
  | wait => "wait"
  | useSpreadsheet => "use_spreadsheet"
  | useRaw => "use_raw"
  | writeSheetCell => "write_sheet_cell"
  | addPoint => "add_point"

def ofRule? (name : String) : Option Verb := all.find? fun v => v.rule == name

def signature : Verb → List Argument
  | setThrottle | wait => [.whole]
  | useSpreadsheet | useRaw => [.switch]
  | writeSheetCell => [.whole, .whole, .whole]
  | read _ | addPoint => []

end Verb

inductive Terminal where
  | keyword (verb : Verb)
  | argument (sort : Argument)
  deriving DecidableEq

def Terminal.name : Terminal → String
  | .keyword v => v.keyword
  | .argument .whole => "INT"
  | .argument .switch => "BOOLEAN"

structure Command where
  verb : Verb
  arguments : List (List Char)
  deriving DecidableEq

def Command.lexemes (c : Command) : List (Terminal × List Char) :=
  (.keyword c.verb, c.verb.keyword.toList) ::
    List.zip (c.verb.signature.map Terminal.argument) c.arguments

def Command.tree (c : Command) : Grammar.Tree :=
  .node c.verb.rule (c.lexemes.tail.map fun l => .token l.1.name (String.ofList l.2))

def tree (script : List Command) : Grammar.Tree :=
  .node "start" (script.map fun c => .node "statement" [c.tree])

end ThrustBench.Script
