import Snippets.Session.Basic
import Snippets.Url

/-!
The gateway to the external runner. Loading is a task of its own, which everybody who needs the
runner shares, with its success or its failure, until the gateway is reset.
-/

namespace Snippets.Session

/-- Takes over what working on the bench did. -/
def worked {α : Type} (s : Session) (t : Option TaskId) (w : Worked α) : Session × α :=
  let s := s.withHost { s.host with bench := w.bench }
  (s.recordAll t (w.effects.map .effect ++ w.logs.map .log), w.result)

/-! ## Getting the runner -/

/-- The task that loads the runner, which is created if there is none. -/
def ensureLoading (s : Session) : Session × TaskId :=
  match s.loading with
  | some load => (s, load)
  | none =>
    let (s, load) := s.spawn .load [⟨.load, false⟩]
    ({ s with loading := some load }, load)

/-- Shares in the loading of the runner. -/
def attach (s : Session) (t : TaskId) : Session × TaskId :=
  let (s, load) := s.ensureLoading
  (s.record (some t) (.attached load), load)

/-- The outcome of a task that was waited for. -/
def outcomeOf (s : Session) (t : TaskId) : Outcome := (s.outcome? t).getD (.error .cancelled)

/-- Takes over how the loading has ended. -/
def receive (s : Session) (t load : TaskId) : Session × Outcome :=
  (s.record (some t) (.received load (s.outcomeOf load)), s.outcomeOf load)

def takeRunner (s : Session) (t load : TaskId) : Session × Progress :=
  let (s, o) := s.receive t load
  (s, .ends o)

def get (s : Session) (t : TaskId) : Session × Progress :=
  let (s, load) := s.attach t
  if s.hasEnded load then s.takeRunner t load else (s, .waits (.getting load) (.shared load))

/-! ## Loading -/

/-- A contained failure while loading is reported as a failure to load. -/
def loadingFailure (s : Session) (f : Failure) : Failure :=
  if f.isContained then .loading s.setup.url f.message else f

/-- Compiles the source of the runner. -/
def compileSource (s : Session) (t : TaskId) (source : Text) : Session × Progress :=
  let s := s.record (some t) (.compiling source)
  match s.worked (some t) (s.host.compiler.compile source s.host.bench) with
  | (s, .ok r) =>
    let s := { s with runner := some r }.record (some t) (.compiled r)
    (s.note (some t) (.info (text "External runner loaded from " ++ s.setup.url)),
      .ends (.ok (.runner r)))
  | (s, .error (.fault f)) => (s, .ends (.error (s.loadingFailure (.ofFault f))))
  | (s, .error e) => (s, .ends (.error (.loading s.setup.url e.message)))

/-- Takes the network's reply. A client that was opened for it is closed in any case. -/
def takeReply (s : Session) (t : TaskId) : Session × Progress :=
  let reply := s.host.replies.now
  let s := s.withHost { s.host with replies := s.host.replies.next }
  let s := if s.setup.ownClient then s.effect (some t) .closeClient else s
  match reply.source with
  | .ok source => s.compileSource t source
  | .error f => (s, .ends (.error (s.loadingFailure (.ofFault f))))

/-- Takes what was read from a file. -/
def takeFile (s : Session) (t : TaskId) : Except Tree.ReadError Text → Session × Progress
  | .ok source => s.compileSource t source
  | .error e => (s, .ends (.error (.loading s.setup.url e.message)))

def load (s : Session) (t : TaskId) : Session × Progress :=
  let s := s.record (some t) (.fetching s.setup.url)
  match Url.split s.setup.url with
  | .error e => (s, .ends (.error (.loading s.setup.url e.message)))
  | .ok url =>
    if url.isRemote then
      let s := if s.setup.ownClient then s.effect (some t) .openClient else s
      let s := s.effect (some t) (.fetch s.setup.url)
      if s.host.isHeld .fetch then (s, .waits .fetching (.answer .fetch)) else s.takeReply t
    else
      let path := Path.ofText (if url.isFile then url.path else s.setup.url)
      (s, .waits (.reading (s.host.files.readText path)) .turn)

/-! ## Running and closing -/

/-- Hands a batch to the runner, which runs it at once. Without a runner there is a failure and
nothing to wait for. -/
def invoke (s : Session) (t : TaskId) (world : World) (filters : List (List Text)) :
    Except Failure (Session × Option Failure) :=
  match s.runner with
  | none => .error .notLoaded
  | some r =>
    let s := s.note (some t) (.debug (text "Invoking external runner with " ++
      Text.ofNat filters.length ++ text " snippet(s) in " ++ world.label))
    .ok (s.worked (some t) (r.run world filters s.host.bench))

/-- Forgets the runner and how it was loaded. -/
def forget (s : Session) (t : Option TaskId) : Session :=
  { s with loading := none, runner := none }.record t .reset

/-- Closes the runner and forgets it. While it is being loaded this is refused, and a runner whose
closing fails stays. -/
def reset (s : Session) (t : Option TaskId) : Session × Option Failure :=
  if s.isLoading then (s, some .stillLoading)
  else
    match s.runner with
    | none => (s.forget t, none)
    | some r =>
      match s.worked t (r.close s.host.bench) with
      | (s, none) => ((if r.isClosable then s.record t (.closed r) else s).forget t, none)
      | (s, some f) => (s, some f)

def resetNow (s : Session) (t : TaskId) : Session × Progress :=
  match s.reset (some t) with
  | (s, none) => (s, .ends (.ok .nothing))
  | (s, some f) => (s, .ends (.error f))

def close (s : Session) (t : TaskId) : Session × Progress :=
  match s.loading with
  | some load =>
    if s.hasEnded load then s.resetNow t else (s, .waits (.closing load) (.shared load))
  | none => s.resetNow t

/-- Goes on with closing when the runner has been loaded, or has not: a failure to load is none to
close. -/
def closeAfter (s : Session) (t load : TaskId) : Session × Progress :=
  match s.outcomeOf load with
  | .error f => if f.isLoading then s.resetNow t else (s, .ends (.error f))
  | .ok _ => s.resetNow t

end Snippets.Session
