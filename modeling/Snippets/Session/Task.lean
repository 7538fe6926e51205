import Snippets.Session.Host

/-!
Tasks. A task carries out calls one after another; between two blocks of work it stands in a phase
of a call and waits. Its last calls may be marked as due whatever happened before them.
-/

namespace Snippets

/-- A call that a task carries out. -/
inductive Call where
  /-- starts the snippet runner -/
  | start
  /-- fetches rules, queues their snippets and dispatches the queue -/
  | cycle
  /-- waits for all scheduled cycles -/
  | drain
  /-- gets the external runner, loading it if need be -/
  | get
  /-- loads the external runner -/
  | load
  /-- hands a batch to the external runner -/
  | invoke (world : World) (filters : List (List Text))
  /-- waits for the external runner if it is being loaded, and closes it -/
  | close
  /-- stops reacting to notifications -/
  | stop
  | fail (f : Fault)
  deriving DecidableEq, Repr

/-- A call of a task; one that is due always is not skipped after a failure. -/
structure Due where
  call : Call
  always : Bool := false
  deriving DecidableEq, Repr

/-- Where a task stands inside a call while it waits. -/
inductive Phase where
  /-- a start that waits to learn whether the page is exempt -/
  | eligibility
  /-- a start that waits for its first cycle -/
  | firstCycle (cycle : TaskId)
  /-- a cycle that waits for the rules -/
  | rules
  /-- a cycle that waits for the external runner -/
  | loading (parsed : Nat) (load : TaskId)
  /-- a cycle that waits for the feature gate -/
  | gate (parsed : Nat) (loadingError : Option Text)
  /-- a cycle whose batch has run -/
  | dispatched (report : Report) (failure : Option Failure)
  | draining
  | getting (load : TaskId)
  /-- a batch that has run -/
  | invoked (failure : Option Failure)
  | closing (load : TaskId)
  /-- a loading that waits for the network -/
  | fetching
  /-- a loading that has read a file -/
  | reading (source : Except Tree.ReadError Text)

/-- What a task waits for. -/
inductive Wait where
  /-- the answer of a collaborator -/
  | answer (q : Question)
  /-- a task that others may wait for as well: to give up waiting does not touch it -/
  | shared (task : TaskId)
  /-- a task of its own -/
  | own (task : TaskId)
  /-- all of these tasks -/
  | all (tasks : List TaskId)
  /-- its turn, after the tasks that are ready -/
  | turn
  deriving DecidableEq, Repr

/-- What is to be done when a task has ended. -/
inductive Role where
  | load
  | cycle (scheduled : Bool)
  | other
  deriving DecidableEq, Repr

/-- What the calls of a task amount to so far: the first result, or the last failure. -/
abbrev Verdict := Except Failure (Option Result)

structure Task where
  role : Role := .other
  /-- the phase of the current call; none before the task has begun -/
  phase : Option Phase := none
  /-- the calls after the current one -/
  due : List Due
  verdict : Verdict := .ok none
  cancelRequested : Bool := false
  outcome : Option Outcome := none

/-- What a call came to: it waits in a phase, or it has ended. -/
inductive Progress where
  | waits (phase : Phase) (wait : Wait)
  | ends (outcome : Outcome)

/-- A piece of work that is ready to be done. -/
inductive Job where
  /-- lets a task go on -/
  | resume (t : TaskId)
  /-- wakes a task whose turn has come or whose shared task has ended -/
  | relay (t : TaskId)
  /-- tells a task that waits for several that one of them has ended -/
  | joined (t : TaskId) (ended : TaskId)
  /-- does what is to be done when a task has ended -/
  | settled (t : TaskId)
  deriving DecidableEq, Repr

end Snippets
