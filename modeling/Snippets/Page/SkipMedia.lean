import Snippets.Log
import Snippets.Page.Document

/-!
The built-in command `skip-current-media`. Each call of it is an activation, which watches the
document and skips what the player plays the first time a node matches its condition. A skip that
fails leaves the activation armed; one that succeeds ends it.
-/

namespace Snippets

/-- The player: the faults of its coming skips, and how many skips still change the document. -/
structure Player where
  faults : List (Option Fault) := []
  changes : Nat := 0

/-- One call of the command. -/
structure Activation where
  condition : Value
  skipped : Bool := false

/-- What an activation asks the document: the text of its condition, as an XPath expression. -/
def Activation.query (a : Activation) : Query :=
  Query.ofSelector (Query.opening ++ a.condition.display ++ Query.closing)

/-- What happens to an activation on a page. -/
inductive Deed where
  /-- it asks the document to be told of its changes -/
  | observe (i : Nat)
  /-- the document is going to tell it, and its first search begins -/
  | observed (i : Nat)
  /-- it is told of a change, and searches -/
  | notified (i : Nat)
  /-- it asks the document for nodes -/
  | ask (i : Nat) (q : Query)
  /-- it gets this many -/
  | found (i count : Nat)
  /-- it has the player skip -/
  | skip (i : Nat)
  /-- it sees a skip of its own return -/
  | skipped (i : Nat)
  deriving DecidableEq, Repr

/-- What the surroundings see of a deed. -/
def Deed.effect? : Deed → Option Effect
  | observe _ => some .observe
  | ask _ q => some q.effect
  | skip _ => some .skip
  | observed _ | notified _ | found _ _ | skipped _ => none

/-- A document and a player with the activations that watch them. -/
structure Page where
  document : Document := {}
  player : Player := {}
  activations : List Activation := []
  /-- the activations that the document notifies of changes -/
  observers : List Nat := []
  deeds : List Deed := []
  logs : List Log := []

namespace Page

/-- The name of the command. -/
def skipName : Text := text "skip-current-media"

/-- A page after a step, and the fault that ended the step. -/
abbrev Outcome := Page × Option Fault

def record (p : Page) (d : Deed) : Page := { p with deeds := p.deeds ++ [d] }

def note (p : Page) (l : Log) : Page := { p with logs := p.logs ++ [l] }

/-- Adds an armed activation. -/
def activate (p : Page) (condition : Value) : Page :=
  { p with activations := p.activations ++ [⟨condition, false⟩] }

/-- Whether an activation is finished. -/
def isSkipped (p : Page) (i : Nat) : Bool :=
  match p.activations[i]? with
  | some a => a.skipped
  | none => true

def markSkipped (p : Page) (i : Nat) : Page :=
  { p with activations := p.activations.modify i fun a => { a with skipped := true } }

/-- A node matches the condition of an activation, which has the player skip. -/
def onMatch (skip : Page → Outcome) (p : Page) (i : Nat) (condition : Value) : Outcome :=
  if p.isSkipped i then (p, none)
  else
    let p := p.note (.debug (text "Skipping media, matched " ++ condition.render))
    match skip (p.record (.skip i)) with
    | (p, some f) => (p, some f)
    | (p, none) => ((p.record (.skipped i)).markSkipped i, none)

/-- Goes through the nodes that were found. -/
def matchAll (skip : Page → Outcome) (i : Nat) (condition : Value) : List Value → Page → Outcome
  | [], p => (p, none)
  | _ :: rest, p =>
    match p.onMatch skip i condition with
    | (p, some f) => (p, some f)
    | (p, none) => matchAll skip i condition rest p

/-- Searches for an activation: an armed one asks the document for its own condition. -/
def search (skip : Page → Outcome) (p : Page) (i : Nat) : Outcome :=
  match p.activations[i]? with
  | none => (p, none)
  | some a =>
    if a.skipped then (p, none)
    else
      let p := p.record (.ask i a.query)
      match p.document.find a.query with
      | .error f => (p, some f)
      | .ok nodes => matchAll skip i a.condition nodes (p.record (.found i nodes.length))

/-- Tells an activation of a change. -/
def notify (skip : Page → Outcome) (p : Page) (i : Nat) : Outcome :=
  if i < p.activations.length then (p.record (.notified i)).search skip i else (p, none)

/-- Tells activations in order, up to the first whose search fails. -/
def notifyAll (skip : Page → Outcome) : List Nat → Page → Outcome
  | [], p => (p, none)
  | i :: rest, p =>
    match p.notify skip i with
    | (p, some f) => (p, some f)
    | (p, none) => notifyAll skip rest p

/-- Skips what is playing; `mutate` is what a change of the document sets off. -/
def skipPlaying (mutate : Page → Outcome) (p : Page) : Outcome :=
  let fault := (p.player.faults.head?).join
  let p := { p with player := { p.player with faults := p.player.faults.tail } }
  match fault with
  | some f => (p, some f)
  | none =>
    match p.player.changes with
    | 0 => (p, none)
    | n + 1 => mutate { p with player := { p.player with changes := n } }

/-- A change of the document, with changes nested at most `depth` deep. -/
def mutateWithin : (depth : Nat) → Page → Outcome
  | 0, p => (p, none)
  | depth + 1, p => notifyAll (skipPlaying (mutateWithin depth)) p.observers p

/-- A change of the document: every observer is told. Only the player nests changes, and it has
finitely many. -/
def mutate (p : Page) : Outcome := mutateWithin (p.player.changes + 1) p

/-- From now on the document tells an activation of its changes. -/
def watch (i : Nat) (p : Page) : Outcome :=
  match p.document.observeFault with
  | some f => (p, some f)
  | none => ({ p with observers := p.observers ++ [i] }, none)

/-- Why the command could not be carried out. -/
inductive CallError where
  | missingCondition
  | fault (f : Fault)
  deriving DecidableEq, Repr

def CallError.message : CallError → Text
  | .missingCondition =>
    text "SkipCurrentMedia.__call__() missing 1 required positional argument: 'xpath_condition'"
  | .fault f => f.message

/-- Carries out the command: the first argument is the condition, others are ignored. The
activation asks the document to be told of changes, and searches. -/
def carryOut (observe : Nat → Page → Outcome) (skip : Page → Outcome) (p : Page) :
    List Value → Page × Option CallError
  | [] => (p, some .missingCondition)
  | condition :: _ =>
    let i := p.activations.length
    match observe i ((p.activate condition).record (.observe i)) with
    | (p, some f) => (p, some (.fault f))
    | (p, none) =>
      let (p, fault) := (p.record (.observed i)).search skip i
      (p, fault.map .fault)

/-- Carries out the command with the document and the player of the page. -/
def call (p : Page) (args : List Value) : Page × Option CallError :=
  p.carryOut watch (skipPlaying mutate) args

/-- Takes the effects and notes made so far. -/
def flush (p : Page) : Page × List Effect × List Log :=
  ({ p with deeds := [], logs := [] }, p.deeds.filterMap Deed.effect?, p.logs)

end Page

end Snippets
