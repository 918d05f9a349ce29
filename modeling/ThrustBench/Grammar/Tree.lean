/-!
Trees of derivations: rules with their parts, and the texts that terminals took.
-/

namespace ThrustBench.Grammar

inductive Tree where
  | token (name : String) (text : String)
  | node (rule : String) (children : List Tree)

end ThrustBench.Grammar
