import ThrustBench.Theme.Dark
import ThrustBench.Theme.Light

/-!
The theme: a name, and the style sheet that goes with it.
-/

namespace ThrustBench

structure Theme where
  name : String := "dark"
  sheet : String := ""
  deriving DecidableEq

namespace Theme

def dark : Theme := ⟨"dark", darkSheet⟩

def light : Theme := ⟨"light", lightSheet⟩

def other? (name : String) : Option Theme :=
  if name = "light" then some dark else if name = "dark" then some light else none

end Theme

end ThrustBench
