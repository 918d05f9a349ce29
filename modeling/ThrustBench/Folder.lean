import ThrustBench.Fault

/-!
Files and folders, and the paths that lead to them.
-/

namespace ThrustBench

inductive Entry where
  | file (bytes : List UInt8)
  | folder (entries : List (String × Entry))

namespace Entry

def ofText (text : String) : Entry := .file text.toUTF8.toList

def nameLimit : Nat := 255
def pathLimit : Nat := 4095

/-- Follows the parts of a path from an entry on.  The folders above it are given, the innermost
first; above the outermost one is itself. -/
def follow (path : String) (here : Entry) (above : List Entry) : List String → Except Fault Entry
  | [] => .ok here
  | part :: parts =>
    match here with
    | .file _ => .error (.notDirectory path)
    | .folder entries =>
      if part = "" ∨ part = "." then follow path here above parts
      else if part = ".." then
        match above with
        | [] => follow path here [] parts
        | outer :: above => follow path outer above parts
      else if nameLimit < part.utf8ByteSize then .error (.nameTooLong path)
      else
        match entries.lookup part with
        | some next => follow path next (here :: above) parts
        | none => .error (.noSuchFile path)

def read (outermost folder : Entry) (path : String) : Except Fault (List UInt8) := do
  if path.toList.contains '\x00' then .error .nullInPath
  if pathLimit < path.utf8ByteSize then .error (.nameTooLong path)
  let parts := path.splitOn "/"
  let found ←
    if path.startsWith "/" then follow path outermost [] parts
    else follow path folder [outermost] parts
  match found with
  | .file bytes => .ok bytes
  | .folder _ => .error (.isDirectory path)

end Entry

end ThrustBench
