import Snippets.Event
import Snippets.Registry
import Snippets.Session.Task

/-!
A session: one snippet runner with its gateway to the external runner, the collaborators around
them, and the tasks that are under way. Work is done in blocks, each of which is a function on
sessions; the order of the blocks is a matter of the list of ready jobs.
-/

namespace Snippets

/-- How far the snippet runner is. -/
inductive Stage where
  | created
  | initializing
  | gated
  | ready
  | suppressed
  deriving DecidableEq, Repr

def Stage.label : Stage → Text
  | .created => text "created"
  | .initializing => text "initializing"
  | .gated => text "gated"
  | .ready => text "ready"
  | .suppressed => text "suppressed"

/-- What is fixed when a session is set up. A registered name may have no handler. -/
structure Setup where
  registry : Registry (Option Nat) := {}
  world : World := .isolated
  /-- where the external runner is loaded from -/
  url : Text
  /-- whether loading opens a network client of its own -/
  ownClient : Bool := false

structure Session where
  setup : Setup
  host : Host
  /-- tells of rules that were loaded -/
  event : Event := {}
  stage : Stage := .created
  queue : List (Snippet Text) := []
  /-- the scheduled cycles that have not been settled -/
  pending : List TaskId := []
  /-- the task that loads or has loaded the external runner -/
  loading : Option TaskId := none
  runner : Option CompiledRunner := none
  tasks : List Task := []
  /-- the tasks that wait, in the order in which they began to -/
  waiting : List (TaskId × Wait) := []
  ready : List Job := []
  journal : Journal := []

namespace Session

/-! ## The parts around the runner -/

def withHost (s : Session) (h : Host) : Session := { s with host := h }

def withEvent (s : Session) (e : Event) : Session := { s with event := e }

def withStage (s : Session) (x : Stage) : Session := { s with stage := x }

/-! ## The journal -/

def record (s : Session) (t : Option TaskId) (what : Happening) : Session :=
  { s with journal := s.journal ++ [⟨t, what⟩] }

def recordAll (s : Session) (t : Option TaskId) (whats : List Happening) : Session :=
  whats.foldl (fun s what => s.record t what) s

def effect (s : Session) (t : Option TaskId) (e : Effect) : Session := s.record t (.effect e)

def note (s : Session) (t : Option TaskId) (l : Log) : Session := s.record t (.log l)

/-! ## Tasks -/

def enqueue (s : Session) (j : Job) : Session := { s with ready := s.ready ++ [j] }

def enqueueAll (s : Session) (js : List Job) : Session := { s with ready := s.ready ++ js }

/-- Creates a task. It begins after the jobs that are ready now. -/
def spawn (s : Session) (role : Role) (due : List Due) : Session × TaskId :=
  let t := s.tasks.length
  let task : Task := { role, due }
  ({ s with tasks := s.tasks ++ [task] }.enqueue (.resume t), t)

def modifyTask (s : Session) (t : TaskId) (f : Task → Task) : Session :=
  { s with tasks := s.tasks.modify t f }

/-- The outcome of a task that has ended. -/
def outcome? (s : Session) (t : TaskId) : Option Outcome := (s.tasks[t]?).bind Task.outcome

def hasEnded (s : Session) (t : TaskId) : Bool := (s.outcome? t).isSome

/-- What a task waits for, if it waits. -/
def wait? (s : Session) (t : TaskId) : Option Wait := s.waiting.lookup t

/-- Ends the waiting of a task and makes it ready. -/
def wake (s : Session) (t : TaskId) : Session :=
  { s with waiting := s.waiting.filter fun w => w.1 != t }.enqueue (.resume t)

/-- Whether the external runner is being loaded. -/
def isLoading (s : Session) : Bool :=
  match s.loading with
  | some load => !s.hasEnded load
  | none => false

/-! ## Notifications -/

/-- The name under which the snippet runner listens. -/
def listener : Text := text "runner"

def isListening (s : Session) : Bool := s.event.has listener

def stop (s : Session) : Session := s.withEvent (s.event.remove listener)

/-- Schedules a cycle. -/
def schedule (s : Session) : Session × TaskId :=
  let (s, t) := s.spawn (.cycle true) [⟨.cycle, false⟩]
  ({ s with pending := s.pending ++ [t] }.record none (.scheduled t), t)

def scheduleTimes : Nat → Session → Session
  | 0, s => s
  | n + 1, s => scheduleTimes n s.schedule.1

/-- Tells the listeners that rules were loaded. The snippet runner schedules a cycle each time it
is called. -/
def notify (s : Session) : Session × Option Fault :=
  let (event, fault) := { s.event with calls := [] }.emit
  (scheduleTimes (event.calls.count listener) (s.withEvent event), fault)

/-- Reloads the rule source, and then tells the listeners; one of them may fail. -/
def reloadSource (s : Session) (t : Option TaskId) (snippets : Value) :
    Except MappingFile.LoadError (Session × Option Fault) :=
  match s.host.source.reload s.host.files snippets with
  | .error e => .error e
  | .ok source =>
    .ok ((s.withHost { s.host with source }).note t RuleSource.reloadNote).notify

end Session

/-- The split of a queue: a snippet is local if its name is registered. -/
def Partition.of {η : Type} (r : Registry η) (queue : List (Snippet Text)) : Partition where
  locals := queue.filter fun s => r.contains s.name
  externals := queue.filter fun s => !r.contains s.name

/-- The split of the whole queue. -/
def Session.partition (s : Session) : Partition := Partition.of s.setup.registry s.queue

end Snippets
