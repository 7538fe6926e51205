import Snippets.Fault
import Snippets.Value

/-!
How a piece of work fails: by what a collaborator raised, by being cancelled, or because the
program itself refuses. Everything but cancellations and fatal faults can be contained.
-/

namespace Snippets

inductive Failure where
  /-- the external runner could not be loaded from its address -/
  | loading (url reason : Text)
  /-- the external runner is needed, but not there -/
  | notLoaded
  /-- the runner had been started before -/
  | startedTwice
  /-- the external runner is still being loaded -/
  | stillLoading
  /-- a child process took longer than it may -/
  | timedOut (argv : List Text) (seconds : Int)
  | fault (f : Fault)
  | cancelled
  deriving DecidableEq, Repr

namespace Failure

/-- What a collaborator raised, as a failure of the work that called it. -/
def ofFault (f : Fault) : Failure :=
  match f.reach with
  | .cancellation => .cancelled
  | _ => .fault f

def message : Failure → Text
  | loading url reason => text "Failed to load external runner from " ++ url ++ text ": " ++ reason
  | notLoaded => text "External runner is not initialized"
  | startedTwice => text "SnippetRunner can only be started once"
  | stillLoading => text "Cannot reset while initialization is in progress"
  | timedOut argv seconds =>
    text "Command '" ++ (Value.list (argv.map .text)).render ++ text "' timed out after " ++
      Text.ofInt seconds ++ text " seconds"
  | fault f => f.message
  | cancelled => []

/-- Whether whoever called the work may go on in spite of it. -/
def isContained : Failure → Bool
  | fault f => f.reach == .contained
  | cancelled => false
  | _ => true

/-- Whether it is a failure to load the external runner. -/
def isLoading : Failure → Bool
  | loading _ _ => true
  | _ => false

end Failure

end Snippets
