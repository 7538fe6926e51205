import Snippets.Gate
import Snippets.Journal
import Snippets.Page.SkipMedia
import Snippets.Rules.Source

/-!
The collaborators of a session and how each of them behaves at the moment. The surroundings may
change any of it at any time, so a collaborator can answer anything.
-/

namespace Snippets

/-- The calls that can be kept waiting for their answer. -/
inductive Question where
  | whitelist
  | snippets
  | gate
  | fetch
  deriving DecidableEq, Repr

/-- How the feature gate answers. -/
inductive GateAnswer where
  | fixed (g : Gate)
  | value (v : Value)
  | fault (f : Fault)

/-- The answer about advertisements. -/
def GateAnswer.ads : GateAnswer → Except Fault Value
  | .fixed g => .ok (.bool (g.isOn .ads))
  | .value v => .ok v
  | .fault f => .error f

/-- How the network answers a request: not at all, or with a body whose status may be an error. -/
inductive Reply where
  | fault (f : Fault)
  | body (status : Option Fault) (content : Value)

/-- The source text in a reply. -/
def Reply.source : Reply → Except Fault Text
  | .fault f => .error f
  | .body (some f) _ => .error f
  | .body none content => .ok content.display

/-- What a local handler does: a scripted one may tell the listeners that rules were loaded, stop
the runner and fail, in this order; another reloads the rule source with the next of its
collections. -/
inductive Handler where
  | scripted (emissions : Nat) (stops : Bool) (fault : Option Fault)
  | reloading (collections : List Value)
  | skipMedia

/-- How many times a handler can still tell the listeners. -/
def Handler.emissions : Handler → Nat
  | .scripted n _ _ => n
  | .reloading collections => collections.length
  | .skipMedia => 0

structure Host where
  source : RuleSource := RuleSource.new none (.bool false)
  whitelistFault : Option Fault := none
  snippetsFault : Option Fault := none
  gate : GateAnswer := .fixed Gate.standard
  /-- the handlers that the registry refers to by number -/
  handlers : List Handler := []
  page : Page := {}
  replies : Supply Reply
  compiler : Compiler := .script {}
  bench : Bench := {}
  files : Tree := {}
  /-- the calls that wait for their answer -/
  held : List Question := []

namespace Host

/-- The rule source's answer to whether the page is exempt. -/
def whitelisted (h : Host) : Except Fault Value :=
  match h.whitelistFault with
  | some f => .error f
  | none => .ok h.source.whitelisted

/-- The rule source's answer to the question for its scripts. -/
def snippets (h : Host) : Except Fault Value :=
  match h.snippetsFault with
  | some f => .error f
  | none => .ok h.source.snippets

def isHeld (h : Host) (q : Question) : Bool := q ∈ h.held

end Host

end Snippets
