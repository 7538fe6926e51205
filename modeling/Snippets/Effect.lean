import Snippets.World

/-!
Effects: what the program asks of its surroundings, in the order it asks. The surroundings are the
rule source, the feature gate, local handlers, the network, the compiler of runner sources, child
processes, the page and the player.
-/

namespace Snippets

inductive Effect where
  /-- asks the rule source whether the page is exempt -/
  | askWhitelist
  /-- asks the rule source for its scripts -/
  | askSnippets
  /-- asks the feature gate about advertisements -/
  | askGate
  /-- calls a local handler -/
  | handle (name : Text) (args : List Text)
  | openClient
  | fetch (url : Text)
  | closeClient
  | compile (source : Text)
  | run (runner : Nat) (world : World) (filters : List (List Text))
  | close (runner : Nat)
  /-- starts a child process -/
  | exec (argv : List Text) (input : Text) (timeout : Int)
  | evaluate (xpath : Text)
  | select (selector : Text)
  | observe
  | skip
  deriving DecidableEq, Repr

end Snippets
