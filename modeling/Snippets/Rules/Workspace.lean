import Snippets.Event
import Snippets.Rules.Source

/-!
A workspace: files, the rule source that was made last, and those who listen to it. Files may be
written and deleted at any time; a source changes only by its own reload, and a reload that could
not read its file leaves everything as it was.
-/

namespace Snippets

/-- A rule source together with the event that tells of its reloads. -/
structure LiveSource where
  source : RuleSource
  event : Event := {}
  /-- who was told of a reload, with the collection that the source held then -/
  found : List (Text × Value) := []

namespace LiveSource

/-- Tells the listeners; one of them may fail. They find the source as it is. -/
def emit (s : LiveSource) : LiveSource × Option Fault :=
  let (event, fault) := s.event.emit
  let calls := event.calls.drop s.event.calls.length
  ({ s with event, found := s.found ++ calls.map (·, s.source.snippets) }, fault)

/-- Reloads the source, and then tells the listeners. -/
def reload (s : LiveSource) (files : Tree) (snippets : Value) :
    Except MappingFile.LoadError (LiveSource × Option Fault) := do
  let source ← s.source.reload files snippets
  return { s with source }.emit

end LiveSource

/-- Files and the current source. -/
structure Workspace where
  files : Tree := {}
  current : Option LiveSource := none

namespace Workspace

/-- What can be done in a workspace. A new source starts with the event it is given. -/
inductive Action where
  | write (path : Path) (node : Node)
  | delete (path : Path)
  | create (snippets : Option Value) (whitelisted : Value) (event : Event)
  | openFile (path : Path) (event : Event)
  | reload (snippets : Value)

/-- Why an action failed. -/
inductive ActionError where
  | load (e : MappingFile.LoadError)
  | listener (fault : Fault)
  | noSource

/-- Carries out an action. A listener that fails does so after the reload took place. -/
def act (w : Workspace) : Action → Workspace × Option ActionError
  | .write path node => ({ w with files := w.files.write path node }, none)
  | .delete path => ({ w with files := w.files.delete path }, none)
  | .create snippets whitelisted event =>
    ({ w with current := some { source := RuleSource.new snippets whitelisted, event } }, none)
  | .openFile path event =>
    match RuleSource.ofFile w.files path with
    | .ok source => ({ w with current := some { source, event } }, none)
    | .error e => (w, some (.load e))
  | .reload snippets =>
    match w.current with
    | none => (w, some .noSource)
    | some s =>
      match s.reload w.files snippets with
      | .ok (s, fault) => ({ w with current := some s }, fault.map .listener)
      | .error e => (w, some (.load e))

/-- Carries out actions one after another. -/
def run (w : Workspace) (actions : List Action) : Workspace :=
  actions.foldl (fun w a => (w.act a).1) w

end Workspace

end Snippets
