import Snippets.Session.Cycle

/-!
Starting the snippet runner, and waiting for its cycles. A start begins to load the external
runner, asks whether the page is exempt and, if it is not, schedules the first cycle and listens
for notifications from then on.
-/

namespace Snippets.Session

/-- The page is exempt. -/
def suppress (s : Session) (t : TaskId) : Session × Progress :=
  let s := s.note (some t) (.debug (text "Page is whitelisted, snippets suppressed"))
  (s.withStage .suppressed, .ends (.ok .nothing))

/-- Schedules the first cycle and begins to listen. -/
def firstCycle (s : Session) : Session × Progress :=
  let (s, cycle) := s.schedule
  (s.withEvent (s.event.add listener), .waits (.firstCycle cycle) (.own cycle))

/-- Takes the answer to whether the page is exempt. -/
def takeEligibility (s : Session) (t : TaskId) : Session × Progress :=
  match s.host.whitelisted with
  | .ok v => if v.truthy then s.suppress t else s.firstCycle
  | .error f =>
    if (Failure.ofFault f).isContained then
      (s.note (some t) (.warning (text "Whitelist check failed, not running snippets"))).suppress t
    else (s, .ends (.error (.ofFault f)))

def start (s : Session) (t : TaskId) : Session × Progress :=
  if s.stage = .created then
    let (s, _) := (s.withStage .initializing).spawn .other [⟨.get, false⟩]
    let s := s.effect (some t) .askWhitelist
    if s.host.isHeld .whitelist then (s, .waits .eligibility (.answer .whitelist))
    else s.takeEligibility t
  else (s, .ends (.error .startedTwice))

/-- Waits as long as there are cycles that have not been settled. -/
def drain (s : Session) (t : TaskId) : Session × Progress :=
  if s.pending.isEmpty then (s, .ends (.ok .nothing))
  else
    (s.enqueueAll ((s.pending.filter s.hasEnded).map (.joined t)),
      .waits .draining (.all s.pending))

end Snippets.Session
