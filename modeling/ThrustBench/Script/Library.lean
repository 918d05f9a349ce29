import ThrustBench.Folder
import ThrustBench.Script.Reader
import ThrustBench.Theme.Basic

/-!
The scripts that come with the bench, and the one that was chosen from elsewhere.
-/

namespace ThrustBench.Script

def rampStep (throttle : Nat) : String :=
  "SET_THROTTLE " ++ toString throttle ++ "\nWAIT 2000\nADD_POINT\n"

def ramp : String :=
  String.join ((List.range 10).map fun i => rampStep (10 * (i + 1))) ++ "SET_THROTTLE 0"

def library : List (String × String) := [("Test", ramp), ("Thrust", ramp), ("Torque", "")]

def imageStart : List UInt8 := [0x89, 0x50, 0x4e, 0x47, 0x0d, 0x0a, 0x1a, 0x0a]

def imageStoreStart : List UInt8 := [0xd0, 0xcf, 0x11, 0xe0, 0xa1, 0xb1, 0x1a, 0xe1]

def images : List String :=
  ["connect.png", "down-triangle.png", "loading-screen.png", "pause.png", "play.png",
    "refresh.png", "timer.png"]

/-- The folder of the bench.  Of a file that is no script only the beginning matters. -/
def benchFolder : Entry :=
  .folder
    [("scripts", .folder (library.map fun script => (script.1, .ofText script.2))),
     ("resources", .folder
       [("dark.qss", .ofText Theme.dark.sheet), ("light.qss", .ofText Theme.light.sheet),
        ("iconBtn.qss", .ofText "QPushButton \x7b\n"), ("infbar.qss", .ofText "QFrame \x7b\n"),
        ("navbar.qss", .ofText "QFrame \x7b\n")]),
     ("icons", .folder
       (("Thumbs.db", .file imageStoreStart) :: images.map fun name => (name, .file imageStart))),
     ("readme.md", .ofText "STARTUP GUIDE\n")]

def systemFolder : Entry :=
  .folder (["bin", "dev", "etc", "home", "lib", "opt", "proc", "root", "run", "sbin", "srv", "sys",
    "tmp", "usr", "var"].map fun name => (name, .folder []))

/-- The path of a script: its name in the folder of scripts, unless it starts from the outermost
folder itself. -/
def pathOf (name : String) : String := if name.startsWith "/" then name else "scripts/" ++ name

inductive Choice where
  | named (name : String)
  | other
  deriving DecidableEq

def Choice.content (c : Choice) (other : String) : Except Fault (List UInt8) :=
  match c with
  | .other => .ok other.toUTF8.toList
  | .named name => Entry.read systemFolder benchFolder (pathOf name)

def Choice.read (c : Choice) (other : String) : Except Fault (List Command) := do
  parseFile (← c.content other)

end ThrustBench.Script
