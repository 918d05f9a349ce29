import ThrustBench.Datum
import ThrustBench.Theme.Basic

/-!
How the programs start: in what order their windows appear, and what they end with.
-/

namespace ThrustBench

inductive Program where
  | bench
  | routineEditor
  deriving DecidableEq

inductive LaunchEvent where
  | application (arguments : List String)
  | splash (image : String)
  | message (text : String)
  | splashShow
  | process
  | splashFinish (title : String)
  | show (title : String)
  | exec
  deriving DecidableEq

structure Launch where
  events : List LaunchEvent := []
  exit : Option Datum := none
  reportsErrors : Bool := false
  theme : Theme := {}

namespace Program

def title : Program → String
  | bench => "AeroThrust"
  | routineEditor => "Lark DSL Test Runner"

def platformArguments : List String := ["-platform", "windows:darkmode=1"]

def launch (p : Program) (arguments : List String) (code : Datum) : Launch :=
  match p with
  | bench =>
    { events :=
        [.application (arguments ++ platformArguments), .splash "icons/loading-screen.png",
          .message "..........  Loading  ..........", .splashShow, .process,
          .splashFinish p.title, .show p.title, .exec]
      exit := some code
      reportsErrors := true
      theme := .dark }
  | routineEditor =>
    { events := [.application arguments, .show p.title, .exec], exit := some code }

end Program

end ThrustBench
