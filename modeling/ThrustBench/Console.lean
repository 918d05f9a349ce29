import ThrustBench.Channel
import ThrustBench.Text.Blank

/-!
The console: lines from the stand and about it.  Lines that carry readings can be suppressed.
-/

namespace ThrustBench

structure Console where
  lines : List String := []
  autoscroll : Bool := true
  scrolls : Nat := 0
  /-- Are lines with readings left out? -/
  suppress : Bool := true

namespace Console

def append (c : Console) (text : String) : Console :=
  if (Channel.ofLine? text.toList).isSome && c.suppress then c
  else
    { c with
      lines := c.lines ++ [Text.trimEnd text]
      scrolls := if c.autoscroll then c.scrolls + 1 else c.scrolls }

/-- The scroll bar moves: the console follows its end only while the bar is there. -/
def scrollTo (c : Console) (position last : Int) : Console :=
  { c with autoscroll := position == last }

end Console

end ThrustBench
