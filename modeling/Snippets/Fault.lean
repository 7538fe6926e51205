import Snippets.Text.Basic

/-!
Failures that a collaborator raises. An ordinary one is contained by whoever called the
collaborator; a fatal one and a cancellation pass through.
-/

namespace Snippets

/-- How far a failure reaches. -/
inductive Reach where
  | contained
  | fatal
  | cancellation
  deriving DecidableEq, Repr

/-- A failure with the name of its kind and its message. -/
structure Fault where
  label : Text
  message : Text
  reach : Reach
  deriving DecidableEq, Repr

/-- What the operating system refuses. -/
def Fault.system (message : Text) : Fault := ⟨text "OSError", message, .contained⟩

end Snippets
