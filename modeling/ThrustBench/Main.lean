import ThrustBench.Launch

/-!
The command line: tells how the bench starts with the given arguments.
-/

namespace ThrustBench

def LaunchEvent.line : LaunchEvent → String
  | application arguments => "application " ++ " ".intercalate arguments
  | splash image => "splash " ++ image
  | message text => "message " ++ text
  | splashShow => "splash shown"
  | process => "windows drawn"
  | splashFinish title => "splash gives way to " ++ title
  | .show title => "window " ++ title
  | exec => "running"

end ThrustBench

def main (arguments : List String) : IO Unit := do
  for event in (ThrustBench.Program.bench.launch arguments (.whole 0)).events do
    IO.println event.line
