import Snippets.Fault
import Snippets.Total

/-!
An event without payload. Emitting it calls the listeners that are registered at that moment, in
order of registration; what they add or remove counts from the next emission on, and a listener
that fails ends the emission. Listeners are known by name, and what one does when it is called is
data, so that emissions may nest.
-/

namespace Snippets

/-- What a listener does when it is called: it removes listeners, adds listeners, emits the event
again as long as it has emissions left, and fails if it has a fault. -/
structure Listener where
  removes : List Text := []
  adds : List Text := []
  emissions : Nat := 0
  fault : Option Fault := none
  deriving DecidableEq, Repr

/-- An event with everything that its listeners may do, the calls made so far, and how often it was
emitted. -/
structure Event where
  listeners : List (Text × Listener) := []
  registered : List Text := []
  calls : List Text := []
  emitted : Nat := 0
  deriving DecidableEq, Repr

namespace Event

def listener (e : Event) (name : Text) : Listener := (e.listeners.lookup name).getD {}

def add (e : Event) (name : Text) : Event := { e with registered := e.registered ++ [name] }

/-- Removes the first registration of a listener, if there is one. -/
def remove (e : Event) (name : Text) : Event := { e with registered := e.registered.erase name }

def has (e : Event) (name : Text) : Bool := e.registered.contains name

/-- Takes one emission from a listener. -/
def spend (e : Event) (name : Text) : Event :=
  { e with listeners := e.listeners.map fun (n, l) =>
      if n = name then (n, { l with emissions := l.emissions - 1 }) else (n, l) }

/-- Calls one listener, with `emit` as the emission it may start. -/
def call (emit : Event → Event × Option Fault) (e : Event) (name : Text) : Event × Option Fault :=
  let l := e.listener name
  let e := { e with calls := e.calls ++ [name] }
  let e := l.adds.foldl add (l.removes.foldl remove e)
  let (e, fault) := if l.emissions = 0 then (e, none) else emit (e.spend name)
  (e, fault <|> l.fault)

/-- Calls listeners in order, up to the first that fails. -/
def deliver (emit : Event → Event × Option Fault) : List Text → Event → Event × Option Fault
  | [], e => (e, none)
  | name :: rest, e =>
    match e.call emit name with
    | (e, none) => deliver emit rest e
    | (e, some fault) => (e, some fault)

/-- Emits with emissions nested at most `depth` deep. -/
def emitWithin : (depth : Nat) → Event → Event × Option Fault
  | 0, e => (e, none)
  | depth + 1, e => deliver (emitWithin depth) e.registered { e with emitted := e.emitted + 1 }

/-- The emissions that listeners have left. -/
def budget (e : Event) : Nat := total (e.listeners.map fun l => l.2.emissions)

/-- Emits the event. Each nested emission is paid for, so the nesting is no deeper than the
budget. -/
def emit (e : Event) : Event × Option Fault := emitWithin (e.budget + 1) e

end Event

end Snippets
