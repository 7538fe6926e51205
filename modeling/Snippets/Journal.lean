import Snippets.External.Compiler
import Snippets.Report

/-!
The journal of a session: everything that happened, in order, and which task did it. Effects and
notes are what the surroundings see; the other entries mark the stages of a cycle, the life of the
external runner and those who share in its loading.
-/

namespace Snippets

/-- Tasks are numbered in the order of their creation. -/
abbrev TaskId := Nat

/-- What a call gives back. -/
inductive Result where
  | nothing
  | report (r : Report)
  | runner (r : CompiledRunner)
  deriving DecidableEq, Repr

abbrev Outcome := Except Failure Result

inductive Happening where
  | effect (e : Effect)
  | log (l : Log)
  /-- a cycle was scheduled -/
  | scheduled (cycle : TaskId)
  /-- a cycle put the snippets of the rules it fetched at the end of the queue -/
  | queued (rules : List Value)
  /-- a cycle learned how loading the external runner ended -/
  | loadingKnown (error : Option Text)
  /-- a cycle learned whether it may dispatch -/
  | gateKnown (enabled : Bool)
  /-- a cycle called the local handler of a snippet, which the registry knows by its number -/
  | called (handler : Nat) (snippet : Snippet Text)
  /-- a cycle handed a batch to the gateway -/
  | batched (filters : List (List Text))
  /-- a cycle ended -/
  | reported (outcome : Except Failure Report)
  /-- a task was told to give up -/
  | cancelled
  /-- a task asked for the external runner and shares the loading of it -/
  | attached (load : TaskId)
  /-- a task learned how the loading that it shares has ended -/
  | received (load : TaskId) (outcome : Outcome)
  /-- a loading began to fetch the source of the external runner -/
  | fetching (url : Text)
  /-- a loading had the source compiled -/
  | compiling (source : Text)
  /-- the external runner was compiled -/
  | compiled (r : CompiledRunner)
  /-- the external runner was closed -/
  | closed (r : CompiledRunner)
  /-- the gateway forgot the external runner and how it was loaded -/
  | reset

/-- One line of the journal; what a command does directly belongs to no task. -/
structure Entry where
  task : Option TaskId
  what : Happening

abbrev Journal := List Entry

namespace Journal

def effects (j : Journal) : List Effect :=
  j.filterMap fun e =>
    match e.what with
    | .effect x => some x
    | _ => none

def logs (j : Journal) : List Log :=
  j.filterMap fun e =>
    match e.what with
    | .log l => some l
    | _ => none

/-- How the cycles ended, in the order in which they did. -/
def reports (j : Journal) : List (Except Failure Report) :=
  j.filterMap fun e =>
    match e.what with
    | .reported r => some r
    | _ => none

/-- The part that belongs to one task. -/
def of (j : Journal) (t : TaskId) : Journal := j.filter fun e => e.task == some t

end Journal

end Snippets
