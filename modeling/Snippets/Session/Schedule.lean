import Snippets.Session.Command

/-!
Schedules. `Step` lets the surroundings act and lets any ready job be done next, so what holds after
every sequence of steps holds whatever the order of the jobs is. Running jobs first in, first out is
one such sequence.
-/

namespace Snippets

/-- Whether the surroundings may make a call: loading is left to the gateway, and a cycle is a task
by itself. -/
def Call.isOpen : Call → Bool
  | .load | .cycle => false
  | _ => true

end Snippets

namespace Snippets.Session

/-- Whether the surroundings can give a command: they create cycles and tasks of open calls, and
they cancel tasks that exist, but have no hold on a task that loads the external runner. -/
def admits (s : Session) : Command → Bool
  | .spawn (.cycle false) due => due = [⟨.cycle, false⟩]
  | .spawn .other due => due.all fun d => d.call.isOpen
  | .spawn _ _ => false
  | .cancel t => (s.tasks[t]?).any fun task => task.role != .load
  | _ => true

/-- One step of a session: a command, or any one of the ready jobs. -/
inductive Step : Session → Session → Prop where
  | act (s : Session) (c : Command) (h : s.admits c) : Step s (s.act c).1
  | perform (s : Session) (before : List Job) (j : Job) (after : List Job)
      (h : s.ready = before ++ j :: after) :
      Step s ({ s with ready := before ++ after }.perform j)

/-- Any number of steps. -/
inductive Steps : Session → Session → Prop where
  | refl (s : Session) : Steps s s
  | tail {s t u : Session} (h : Steps s t) (step : Step t u) : Steps s u

theorem Steps.trans {s t u : Session} (h : Steps s t) (k : Steps t u) : Steps s u := by
  induction k with
  | refl => exact h
  | tail _ step ih => exact .tail ih step

theorem Steps.single {s t : Session} (step : Step s t) : Steps s t := .tail (.refl s) step

/-- The sessions that can come about: one in which nothing has happened yet, with any setup, any
host and any other listeners, and whatever follows. -/
inductive Reachable : Session → Prop where
  | new (setup : Setup) (host : Host) (event : Event) : Reachable { setup, host, event }
  | step {s t : Session} (h : Reachable s) (step : Step s t) : Reachable t

theorem Reachable.steps {s t : Session} (h : Reachable s) (k : Steps s t) : Reachable t := by
  induction k with
  | refl => exact h
  | tail _ step ih => exact .step ih step

/-- Doing jobs first in, first out is a schedule. -/
theorem steps_runWhile (go : Session → Bool) (fuel : Nat) (s : Session) :
    Steps s (runWhile go fuel s) := by
  induction fuel generalizing s with
  | zero => exact .refl s
  | succ fuel ih =>
    rw [runWhile]
    split
    · split
      · exact .refl s
      · next j ready h =>
        exact (Steps.single (.perform s [] j ready h)).trans (ih _)
    · exact .refl s

theorem steps_settle (s : Session) : Steps s s.settle := steps_runWhile _ _ s

end Snippets.Session
