import ThrustBench.Incident.Trouble

/-!
Reports of errors that nothing handled.  An error tells what it was caused by, or else what was
being handled when it came up, before it tells about itself.
-/

namespace ThrustBench

inductive Incident where
  | mk (kind : String) (arguments : List Datum) (cause context : Option Incident)

namespace Incident

instance : Inhabited Incident := ⟨.mk "" [] none none⟩

def sorted (kind : String) (arguments : List Datum) : Except Fault (String × Trouble) := do
  if !isKind kind then .error (.unknownKind kind)
  let kind := Trouble.toldKind (plainKind kind) arguments
  return (kind, ← Trouble.of? kind arguments)

def check : Incident → Except Fault Unit
  | .mk kind arguments cause context => do
    let _ ← sorted kind arguments
    match cause with
    | some cause => cause.check
    | none => pure ()
    match context with
    | some context => context.check
    | none => pure ()

def causeNote : String :=
  "\nThe above exception was the direct cause of the following exception:\n\n"

def contextNote : String :=
  "\nDuring handling of the above exception, another exception occurred:\n\n"

def told (w : Wording) : Incident → Except Fault String
  | .mk kind arguments cause context => do
    let before ←
      match cause, context with
      | some cause, _ => (cause.told w).map (· ++ causeNote)
      | none, some context => (context.told w).map (· ++ contextNote)
      | none, none => .ok ""
    let (kind, trouble) ← sorted kind arguments
    return before ++ (← trouble.told w kind)

def report (i : Incident) : Except Fault String := do
  i.check
  return (← i.told .full) ++ (← i.told .brief)

end Incident

end ThrustBench
