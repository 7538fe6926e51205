import Snippets.Assoc
import Snippets.Effect
import Snippets.Fault

/-!
The page's document: which nodes match an XPath expression or a CSS selector, and which questions
fail. A query asks the document once and goes through the nodes it got, whatever happens to the
document meanwhile.
-/

namespace Snippets

/-- Node lists by expression and by selector, and the questions that fail. -/
structure Document where
  xpath : List (Text × List Value) := []
  css : List (Text × List Value) := []
  faults : List (Text × Fault) := []

/-- What a selector asks for. -/
inductive Query where
  | xpath (expression : Text)
  | css (selector : Text)
  deriving DecidableEq, Repr

namespace Query

def opening : Text := text "xpath("
def closing : Text := text ")"

/-- Whether a selector is an XPath expression between `xpath(` and `)`. -/
def isXPath (selector : Text) : Bool :=
  opening.isPrefixOf selector && closing.isSuffixOf selector

def ofSelector (selector : Text) : Query :=
  if isXPath selector then
    .xpath ((selector.drop opening.length).take (selector.length - opening.length - closing.length))
  else .css selector

/-- The effect of asking. -/
def effect : Query → Effect
  | xpath e => .evaluate e
  | css s => .select s

/-- The key under which a fault may wait. -/
def key : Query → Text
  | xpath e => e
  | css s => s

end Query

namespace Document

def setXPath (d : Document) (key : Text) (nodes : List Value) : Document :=
  { d with xpath := Assoc.put key nodes d.xpath }

def setCss (d : Document) (key : Text) (nodes : List Value) : Document :=
  { d with css := Assoc.put key nodes d.css }

/-- Changes every node list. -/
def mapNodes (f : List Value → List Value) (d : Document) : Document :=
  { d with xpath := d.xpath.map fun p => (p.1, f p.2), css := d.css.map fun p => (p.1, f p.2) }

/-- The nodes that a query finds now, or the fault of asking. -/
def find (d : Document) (q : Query) : Except Fault (List Value) :=
  match d.faults.lookup q.key with
  | some f => .error f
  | none =>
    .ok (match q with
      | .xpath e => (d.xpath.lookup e).getD []
      | .css s => (d.css.lookup s).getD [])

/-- Whether observing the document fails. -/
def observeFault (d : Document) : Option Fault := d.faults.lookup (text "observe")

end Document

/-- What one run of a query did: the nodes that were visited, the document after it, the questions
asked and the fault that ended it. -/
structure Visit where
  seen : List Value
  document : Document
  effects : List Effect
  fault : Option Fault

namespace Query

/-- Applies a callback to nodes in order, up to the first at which it fails. What it may change is
the document, or more than that. -/
def visit {σ : Type} (callback : Value → σ → σ × Option Fault) :
    List Value → σ → List Value × σ × Option Fault
  | [], s => ([], s, none)
  | node :: rest, s =>
    match callback node s with
    | (s, some fault) => ([node], s, some fault)
    | (s, none) =>
      let (seen, s, fault) := visit callback rest s
      (node :: seen, s, fault)

/-- Runs a query. Without a callback nothing is asked. -/
def apply (q : Query) (callback : Option (Value → Document → Document × Option Fault))
    (d : Document) : Visit :=
  match callback with
  | none => ⟨[], d, [], none⟩
  | some callback =>
    match d.find q with
    | .error fault => ⟨[], d, [q.effect], some fault⟩
    | .ok nodes =>
      let (seen, d, fault) := visit callback nodes d
      ⟨seen, d, [q.effect], fault⟩

end Query

/-- A callback that can be written down: it may empty every node list, append a node to each, and
fail at the nodes equal to `failAt`. -/
structure Reaction where
  clear : Bool := false
  append : Option Value := none
  failAt : Value := .null
  fault : Value → Fault

def Reaction.callback (r : Reaction) (node : Value) (d : Document) : Document × Option Fault :=
  let d := if r.clear then d.mapNodes fun _ => [] else d
  let d := match r.append with
    | some v => d.mapNodes (· ++ [v])
    | none => d
  (d, if node.same r.failAt then some (r.fault node) else none)

end Snippets
