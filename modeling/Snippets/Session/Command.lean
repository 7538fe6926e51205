import Snippets.Session.Run

/-!
What the surroundings do to a session from outside: they create and cancel tasks, change how the
collaborators behave, hold and release their answers, tell of loaded rules, and use those
operations of the runner that do not wait.
-/

namespace Snippets

/-- A change in how a collaborator behaves. -/
inductive Arrangement where
  | snippets (v : Value)
  | whitelisted (v : Value)
  | whitelistFault (f : Option Fault)
  | snippetsFault (f : Option Fault)
  | gate (g : GateAnswer)
  | replies (r : Supply Reply)
  | compiler (c : Compiler)
  | handlers (hs : List Handler)
  | processes (p : Supply ProcessEnd)
  | runFault (f : Option Fault)
  | closeFault (f : Option Fault)
  | nodes (key : Text) (nodes : List Value)
  | file (path : Path) (node : Node)

def Host.arrange (h : Host) : Arrangement → Host
  | .snippets v => { h with source := { h.source with snippets := v } }
  | .whitelisted v => { h with source := { h.source with whitelisted := v } }
  | .whitelistFault f => { h with whitelistFault := f }
  | .snippetsFault f => { h with snippetsFault := f }
  | .gate g => { h with gate := g }
  | .replies r => { h with replies := r }
  | .compiler c => { h with compiler := c }
  | .handlers hs => { h with handlers := hs }
  | .processes p => { h with bench := { h.bench with processes := p } }
  | .runFault f => { h with bench := { h.bench with runFault := f } }
  | .closeFault f => { h with bench := { h.bench with closeFault := f } }
  | .nodes key nodes =>
    { h with page := { h.page with document := h.page.document.setXPath key nodes } }
  | .file path node => { h with files := h.files.write path node }

inductive Command where
  | spawn (role : Role) (due : List Due)
  | cancel (t : TaskId)
  | stop
  | reset
  | emit
  /-- reloads the rule source -/
  | reload (snippets : Value)
  | arrange (a : Arrangement)
  /-- the document changes -/
  | mutate
  | hold (q : Question)
  | release (q : Question)

/-- Why a command failed. -/
inductive CommandError where
  | failure (f : Failure)
  | load (e : MappingFile.LoadError)
  | fault (f : Fault)

namespace Session

/-! ## Cancelling -/

/-- Cancels a task that waits for nothing of its own. -/
def cancelOne (s : Session) (t : TaskId) : Session :=
  if s.hasEnded t then s
  else
    let s := s.modifyTask t fun task => { task with cancelRequested := true }
    let s := s.record (some t) .cancelled
    match s.wait? t with
    | some (.answer _) | some (.shared _) | some .turn => s.wake t
    | _ => s

/-- Cancels a task. What it waits for as its own is cancelled with it, and it learns of that when
those have ended; what it shares with others is not. -/
def cancel (s : Session) (t : TaskId) : Session :=
  match s.wait? t with
  | some (.own task) => s.cancelOne task
  | some (.all tasks) => tasks.foldl cancelOne (s.cancelOne t)
  | _ => s.cancelOne t

/-! ## Holding answers -/

def hold (s : Session) (q : Question) : Session :=
  s.withHost { s.host with held := q :: s.host.held }

/-- Ends a hold and wakes those who waited for the answer, in the order in which they began to. -/
def release (s : Session) (q : Question) : Session :=
  let s := s.withHost { s.host with held := s.host.held.filter fun h => h != q }
  (s.waiting.filter fun w => w.2 == .answer q).foldl (fun s w => s.wake w.1) s

/-! ## Commands -/

/-- Reloads the rule source and tells the listeners. -/
def reload (s : Session) (snippets : Value) : Session × Option CommandError :=
  match s.reloadSource none snippets with
  | .error e => (s, some (.load e))
  | .ok (s, fault) => (s, fault.map .fault)

def act (s : Session) : Command → Session × Option CommandError
  | .spawn role due => ((s.spawn role due).1, none)
  | .cancel t => (s.cancel t, none)
  | .stop => (s.stop, none)
  | .reset =>
    let (s, f) := s.reset none
    (s, f.map .failure)
  | .emit =>
    let (s, f) := s.notify
    (s, f.map .fault)
  | .reload snippets => s.reload snippets
  | .arrange a => (s.withHost (s.host.arrange a), none)
  | .mutate =>
    let (s, f) := s.onPage none s.host.page.mutate
    (s, f.map .fault)
  | .hold q => (s.hold q, none)
  | .release q => (s.release q, none)

end Session

end Snippets
