import Snippets.Session.Start

/-!
The blocks of work. A job lets one task do its next block, or delivers the end of a task to those
who wait for it. Jobs are done first in, first out, until none is left; nothing in a block depends
on that order.
-/

namespace Snippets.Session

/-! ## Calls -/

/-- The first block of a call. -/
def beginCall (s : Session) (t : TaskId) : Call → Session × Progress
  | .start => s.start t
  | .cycle => s.cycle t
  | .drain => s.drain t
  | .get => s.get t
  | .load => s.load t
  | .invoke world filters =>
    match s.invoke t world filters with
    | .error f => (s, .ends (.error f))
    | .ok (s, failure) => (s, .waits (.invoked failure) .turn)
  | .close => s.close t
  | .stop => (s.stop, .ends (.ok .nothing))
  | .fail f => (s, .ends (.error (.ofFault f)))

/-- The next block of a call that waited. -/
def continueCall (s : Session) (t : TaskId) : Phase → Session × Progress
  | .eligibility => s.takeEligibility t
  | .firstCycle cycle => (s, .ends (s.outcomeOf cycle))
  | .rules => s.takeRules t
  | .loading parsed load => s.takeLoading t parsed load
  | .gate parsed loadingError => s.takeGate t parsed loadingError
  | .dispatched r failure => s.reportBatch t r failure
  | .draining => s.drain t
  | .getting load => s.takeRunner t load
  | .invoked none => (s, .ends (.ok .nothing))
  | .invoked (some f) => (s, .ends (.error f))
  | .closing load => s.closeAfter t load
  | .fetching => s.takeReply t
  | .reading source => s.takeFile t source

/-- Gives up a call that waited. -/
def abandonCall (s : Session) (t : TaskId) : Phase → Session × Progress
  | .fetching =>
    (if s.setup.ownClient then s.effect (some t) .closeClient else s, .ends (.error .cancelled))
  | _ => (s, .ends (.error .cancelled))

/-! ## The end of a task -/

/-- The job that tells a waiting task that another has ended, if that is what it waits for. -/
def wakeUp? (ended : TaskId) : TaskId × Wait → Option Job
  | (t, .own task) => if task = ended then some (.resume t) else none
  | (t, .shared task) => if task = ended then some (.relay t) else none
  | (t, .all tasks) => if ended ∈ tasks then some (.joined t ended) else none
  | _ => none

/-- The report of a cycle, or its failure. -/
def reportOf : Outcome → Except Failure Report
  | .ok (.report r) => .ok r
  | .ok _ => .error .cancelled
  | .error f => .error f

/-- Ends a task. -/
def finish (s : Session) (t : TaskId) (o : Outcome) : Session :=
  let s :=
    match (s.tasks[t]?).map Task.role with
    | some (.cycle _) => s.record (some t) (.reported (reportOf o))
    | _ => s
  let s := s.modifyTask t fun task => { task with outcome := some o, due := [] }
  let s := s.enqueue (.settled t)
  let s := s.enqueueAll (s.waiting.filterMap (wakeUp? t))
  { s with waiting := s.waiting.filter fun w => w.2 != .own t }

/-- What a task amounts to when it has no calls left. -/
def outcomeOfVerdict : Verdict → Outcome
  | .ok r => .ok (r.getD .nothing)
  | .error f => .error f

/-- The verdict after one more call: the first result counts, and every failure. -/
def judge (verdict : Verdict) (o : Outcome) : Verdict :=
  match o, verdict with
  | .error f, _ => .error f
  | .ok r, .ok none => .ok (some r)
  | .ok _, v => v

/-- Lets a task wait. -/
def suspend (s : Session) (t : TaskId) (phase : Phase) (wait : Wait) (due : List Due)
    (verdict : Verdict) : Session :=
  let s := s.modifyTask t fun task => { task with phase := some phase, due, verdict }
  let s := { s with waiting := s.waiting ++ [(t, wait)] }
  if wait = .turn then s.enqueue (.relay t) else s

/-- Carries out the calls that are due, up to the first that waits. -/
def pursue (s : Session) (t : TaskId) (verdict : Verdict) : List Due → Session
  | [] => s.finish t (outcomeOfVerdict verdict)
  | d :: due =>
    match verdict, d.always with
    | .error f, false => s.pursue t (.error f) due
    | verdict, _ =>
      match s.beginCall t d.call with
      | (s, .waits phase wait) => s.suspend t phase wait due verdict
      | (s, .ends o) => s.pursue t (judge verdict o) due

/-- Goes on with a task after a block of its current call. -/
def proceed (s : Session) (t : TaskId) (task : Task) : Progress → Session
  | .waits phase wait => s.suspend t phase wait task.due task.verdict
  | .ends o => s.pursue t (judge task.verdict o) task.due

/-! ## Jobs -/

/-- Lets a task do its next block. A task that is cancelled before it has begun does nothing. -/
def resume (s : Session) (t : TaskId) : Session :=
  match s.tasks[t]? with
  | none => s
  | some task =>
    if task.outcome.isSome then s
    else
      let s' := s.modifyTask t fun task => { task with cancelRequested := false }
      match task.phase, task.cancelRequested with
      | none, true => s'.finish t (.error .cancelled)
      | none, false => s'.pursue t task.verdict task.due
      | some phase, true =>
        let (s, p) := s'.abandonCall t phase
        s.proceed t task p
      | some phase, false =>
        let (s, p) := s'.continueCall t phase
        s.proceed t task p

/-- Does what is to be done when a task has ended. -/
def settled (s : Session) (t : TaskId) : Session :=
  match s.tasks[t]? with
  | none => s
  | some task =>
    let failure := match task.outcome with
      | some (.error .cancelled) => none
      | some (.error f) => some f
      | _ => none
    match task.role, failure with
    | .load, some f => s.note (some t) (.error f.message)
    | .cycle true, none => { s with pending := s.pending.erase t }
    | .cycle true, some _ =>
      { s with pending := s.pending.erase t }.note (some t) (.error (text "Snippet cycle failed"))
    | _, _ => s

/-- Wakes a task that waits for its turn, or for a shared task that has ended. -/
def relay (s : Session) (t : TaskId) : Session :=
  match s.wait? t with
  | some .turn => s.wake t
  | some (.shared load) => if s.hasEnded load then s.wake t else s
  | _ => s

/-- Tells a task that one of the tasks it waits for has ended. -/
def joined (s : Session) (t ended : TaskId) : Session :=
  match s.wait? t with
  | some (.all tasks) =>
    if tasks.erase ended = [] then s.wake t
    else
      { s with waiting := s.waiting.map fun w =>
          if w.1 = t then (t, .all (tasks.erase ended)) else w }
  | _ => s

def perform (s : Session) : Job → Session
  | .resume t => s.resume t
  | .relay t => s.relay t
  | .joined t ended => s.joined t ended
  | .settled t => s.settled t

/-! ## Running -/

/-- Does at most `fuel` jobs, first in, first out, as long as `go` holds. -/
def runWhile (go : Session → Bool) : (fuel : Nat) → Session → Session
  | 0, s => s
  | fuel + 1, s =>
    if go s then
      match s.ready with
      | [] => s
      | j :: ready => runWhile go fuel ({ s with ready }.perform j)
    else s

/-- How often listeners can still be told that rules were loaded. -/
def emissions (s : Session) : Nat :=
  s.event.budget + total (s.host.handlers.map Handler.emissions)

/-- More jobs than a session can have before it comes to rest: every task, present or still to be
scheduled, has few blocks, and each of them is followed by few jobs. -/
def fuel (s : Session) : Nat :=
  let tasks := s.tasks.length + (s.event.registered.length + 1) * (s.emissions + 1)
  s.ready.length + 64 * (tasks + 1) * (tasks + 1)

/-- Runs until nothing can move. -/
def settle (s : Session) : Session := runWhile (fun _ => true) s.fuel s

/-- Runs until a task has ended. -/
def runUntil (s : Session) (t : TaskId) : Session := runWhile (fun s => !s.hasEnded t) s.fuel s

end Snippets.Session
