import Snippets.Session.Gateway

/-!
The cycle of the snippet runner: it fetches the rules, puts their snippets at the end of the queue,
waits for the external runner, asks the feature gate, and then dispatches the whole queue. Local
snippets are carried out one by one; the others go to the external runner in one batch.
-/

namespace Snippets.Session

/-- A cycle ends with a report. -/
def report (s : Session) (r : Report) : Session × Progress := (s, .ends (.ok (.report r)))

/-! ## Local snippets -/

/-- Takes over what happened on the page. -/
def onPage {α : Type} (s : Session) (t : Option TaskId) (r : Page × α) : Session × α :=
  let (page, effects, logs) := r.1.flush
  let s := s.withHost { s.host with page }
  (s.recordAll t (effects.map .effect ++ logs.map .log), r.2)

/-- Carries out a scripted handler. -/
def runScripted (s : Session) (number : Nat) (emissions : Nat) (stops : Bool)
    (fault : Option Fault) : Session × Option Failure :=
  let (s, failed) :=
    match emissions with
    | 0 => (s, none)
    | n + 1 =>
      (s.withHost { s.host with
        handlers := s.host.handlers.set number (.scripted n stops fault) }).notify
  match failed with
  | some f => (s, some (.ofFault f))
  | none => (if stops then s.stop else s, fault.map .ofFault)

/-- Carries out a handler that reloads the rule source, if it has a collection left to do so. -/
def runReloading (s : Session) (t : TaskId) (number : Nat) :
    List Value → Session × Option Failure
  | [] => (s, none)
  | snippets :: rest =>
    let s := s.withHost { s.host with handlers := s.host.handlers.set number (.reloading rest) }
    match s.reloadSource (some t) snippets with
    | .error e => (s, some (.fault ⟨text "LoadError", e.message, .contained⟩))
    | .ok (s, fault) => (s, fault.map .ofFault)

/-- Calls a handler. -/
def callHandler (s : Session) (t : TaskId) (number : Nat) (snippet : Snippet Text) :
    Session × Option (Failure × Text) :=
  let withMessage (r : Session × Option Failure) := (r.1, r.2.map fun f => (f, f.message))
  let s := s.record (some t) (.called number snippet)
  match s.host.handlers[number]? with
  | none => (s, none)
  | some (.scripted emissions stops fault) =>
    withMessage ((s.effect (some t) (.handle snippet.name snippet.args)).runScripted number
      emissions stops fault)
  | some (.reloading collections) =>
    withMessage ((s.effect (some t) (.handle snippet.name snippet.args)).runReloading t number
      collections)
  | some .skipMedia =>
    let (s, e) := s.onPage (some t) (s.host.page.call (snippet.args.map .text))
    (s, e.map fun e =>
      match e with
      | .fault f => (.ofFault f, e.message)
      | .missingCondition => (.fault ⟨text "TypeError", e.message, .contained⟩, e.message))

/-- Carries out local snippets in order and collects the messages of those that fail. Only a
failure that cannot be contained ends it early. -/
def runLocals (s : Session) (t : TaskId) (errors : List Text) :
    List (Snippet Text) → Session × Except Failure (List Text)
  | [] => (s, .ok errors)
  | snippet :: rest =>
    match s.setup.registry.resolve snippet.name with
    | none | some none => s.runLocals t errors rest
    | some (some number) =>
      match s.callHandler t number snippet with
      | (s, none) => s.runLocals t errors rest
      | (s, some (f, message)) =>
        if f.isContained then
          let s := s.note (some t)
            (.warning (text "Local snippet " ++ snippet.name.quoted ++ text " failed"))
          s.runLocals t (errors ++ [snippet.name ++ text ": " ++ message]) rest
        else (s, .error f)

/-! ## The external batch -/

/-- Takes the result of the batch into the report. -/
def reportBatch (s : Session) (t : TaskId) (r : Report) : Option Failure → Session × Progress
  | none => s.report { r with invoked := true }
  | some f =>
    if f.isContained then
      (s.note (some t) (.error (text "External runner failed"))).report
        { r with errors := r.errors ++ [text "external runner: " ++ f.message] }
    else (s, .ends (.error f))

/-- Hands the external part to the external runner. -/
def runBatch (s : Session) (t : TaskId) (r : Report) : Session × Progress :=
  let filters := r.externals.map Snippet.toFilter
  let s := s.record (some t) (.batched filters)
  match s.invoke t s.setup.world filters with
  | .error f => s.reportBatch t r (some f)
  | .ok (s, failure) => (s, .waits (.dispatched r failure) .turn)

/-! ## The stages of a cycle -/

/-- Dispatches the whole queue. -/
def dispatch (s : Session) (t : TaskId) (parsed : Nat) (loadingError : Option Text) :
    Session × Progress :=
  let s := s.withStage .ready
  let p := s.partition
  let r : Report :=
    { status := .completed, parsed, queued := s.queue.length, locals := p.locals
      externals := p.externals }
  match s.runLocals t [] p.locals with
  | (s, .error f) => (s, .ends (.error f))
  | (s, .ok errors) =>
    match loadingError with
    | some e => s.report { r with errors := errors ++ [e] }
    | none => s.runBatch t { r with errors }

/-- The gate is shut. -/
def skipDispatch (s : Session) (t : TaskId) (parsed : Nat) : Session × Progress :=
  let s := s.record (some t) (.gateKnown false)
  let s := s.note (some t) (.debug (text "Ad filtering disabled, skipping dispatch"))
  s.report { status := .disabled, parsed, queued := s.queue.length }

/-- Takes the answer of the feature gate. -/
def takeGate (s : Session) (t : TaskId) (parsed : Nat) (loadingError : Option Text) :
    Session × Progress :=
  match s.host.gate.ads with
  | .ok v =>
    if v.truthy then (s.record (some t) (.gateKnown true)).dispatch t parsed loadingError
    else s.skipDispatch t parsed
  | .error f =>
    if (Failure.ofFault f).isContained then
      (s.note (some t) (.debug (text "Feature gate check failed"))).skipDispatch t parsed
    else (s, .ends (.error (.ofFault f)))

def askGate (s : Session) (t : TaskId) (parsed : Nat) (loadingError : Option Text) :
    Session × Progress :=
  let s := s.record (some t) (.loadingKnown loadingError)
  let s := s.effect (some t) .askGate
  if s.host.isHeld .gate then (s, .waits (.gate parsed loadingError) (.answer .gate))
  else s.takeGate t parsed loadingError

/-- Takes the outcome of loading the external runner. -/
def takeLoading (s : Session) (t : TaskId) (parsed : Nat) (load : TaskId) : Session × Progress :=
  match s.receive t load with
  | (s, .ok _) => s.askGate t parsed none
  | (s, .error f) =>
    if f.isLoading then s.askGate t parsed (some f.message) else (s, .ends (.error f))

/-- A note for each rule that is no text. -/
def ruleNotes (rules : List Value) : List Log :=
  rules.filterMap fun r =>
    match r with
    | .text _ => none
    | r => some (.warning (text "Ignoring non-string snippet rule: " ++ r.render))

/-- Puts the snippets of rules at the end of the queue; what is no text is passed over. -/
def queueRules (s : Session) (t : TaskId) (rules : List Value) : Session :=
  let notes := ruleNotes rules ++ (rules.filterMap Value.toText?).flatMap Script.notes
  let s := s.recordAll (some t) (notes.map .log)
  { s.withStage .gated with queue := s.queue ++ Script.parseAll rules }.record (some t)
    (.queued rules)

/-- There are no rules to go by. -/
def reportNoRules (s : Session) (t : TaskId) (l : Log) : Session × Progress :=
  (s.note (some t) l).report { status := .noRules, queued := s.queue.length }

/-- Takes the answer of the rule source. -/
def takeRules (s : Session) (t : TaskId) : Session × Progress :=
  match s.host.snippets with
  | .error f =>
    if (Failure.ofFault f).isContained then
      s.reportNoRules t (.warning (text "Fetching snippet rules failed"))
    else (s, .ends (.error (.ofFault f)))
  | .ok v =>
    match v.items? with
    | none =>
      s.reportNoRules t (.debug (text "Rule source returned " ++ v.kind ++ text ", not a list"))
    | some rules =>
      let parsed := (Script.parseAll rules).length
      let (s, load) := (s.queueRules t rules).attach t
      if s.hasEnded load then s.takeLoading t parsed load
      else (s, .waits (.loading parsed load) (.shared load))

def cycle (s : Session) (t : TaskId) : Session × Progress :=
  if s.stage = .suppressed then s.report { status := .suppressed, queued := s.queue.length }
  else
    let s := s.effect (some t) .askSnippets
    if s.host.isHeld .snippets then (s, .waits .rules (.answer .snippets)) else s.takeRules t

end Snippets.Session
