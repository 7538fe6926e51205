import Snippets.Proofs.Session.Acts

/-!
# What a block of a cycle comes to

A cycle takes its answers one after another, and several of them in one block if nothing keeps it
waiting. For each answer there is a relation that lists what can come of taking it: `GateBlock`,
`LoadingBlock`, `RulesBlock` and `CycleBlock`, from the last answer to the first. A dispatch comes
to a report that is determined by the queue, by what the handlers of the local snippets raise and by
how the batch fails (`Completed`).
-/

namespace Snippets

/-- The rules that the rule source answers with, if it answers with a collection of them. -/
def Host.rules? (h : Host) : Option (List Value) :=
  match h.snippets with
  | .ok v => v.items?
  | .error _ => none

namespace Session

/-! ## Local snippets -/

/-- The note of a local snippet that failed. -/
def failedNote (snippet : Snippet Text) : Log :=
  .warning (text "Local snippet " ++ snippet.name.quoted ++ text " failed")

/-- Local snippets, each with the message of what its handler raises, if they are carried out one
after another and nothing that is raised breaks that off. -/
def handled (s : Session) (t : TaskId) : List (Snippet Text) → List (Snippet Text × Option Text)
  | [] => []
  | snippet :: rest =>
    match s.setup.registry.resolve snippet.name with
    | none | some none => (snippet, none) :: s.handled t rest
    | some (some number) =>
      match s.callHandler t number snippet with
      | (s, none) => (snippet, none) :: s.handled t rest
      | (s, some (_, message)) =>
        (snippet, some message) :: (s.note (some t) (failedNote snippet)).handled t rest

/-- What is said of a local snippet whose handler raised something. -/
def complaint? : Snippet Text × Option Text → Option Text
  | (_, none) => none
  | (snippet, some message) => some (snippet.name ++ text ": " ++ message)

/-- The errors of the local snippets of the queue, in queue order. -/
def raised (s : Session) (t : TaskId) : List Text :=
  (s.handled t s.partition.locals).filterMap complaint?

section Locals

variable {s s' : Session} {t : TaskId} {a : Option TaskId} {k : Kind}

theorem map_fst_handled (snippets : List (Snippet Text)) :
    (s.handled t snippets).map Prod.fst = snippets := by
  induction snippets generalizing s with
  | nil => rfl
  | cons snippet rest ih =>
    unfold handled
    split
    · rw [List.map_cons, ih]
    · rw [List.map_cons, ih]
    · split <;> rw [List.map_cons, ih]

/-- The messages that are collected are those of the handlers that raised something; only what
cannot be contained breaks off the dispatch. -/
theorem runLocals_handled (errors : List Text) (snippets : List (Snippet Text)) :
    (∀ errors', (s.runLocals t errors snippets).2 = .ok errors' →
      errors' = errors ++ (s.handled t snippets).filterMap complaint?) ∧
    ∀ f, (s.runLocals t errors snippets).2 = .error f → f.isContained = false := by
  induction snippets generalizing s errors with
  | nil =>
    constructor
    · rintro errors' ⟨⟩
      exact (List.append_nil errors).symm
    · rintro f ⟨⟩
  | cons snippet rest ih =>
    unfold runLocals handled
    cases s.setup.registry.resolve snippet.name with
    | none => exact ih errors
    | some entry =>
      cases entry with
      | none => exact ih errors
      | some number =>
        dsimp only
        generalize s.callHandler t number snippet = q
        obtain ⟨s', _ | ⟨f, message⟩⟩ := q
        · exact ih errors
        · dsimp only
          split_ifs with hf
          · obtain ⟨hok, herror⟩ := ih (s := s'.note (some t) (failedNote snippet))
              (errors ++ [snippet.name ++ text ": " ++ message])
            exact ⟨fun errors' h => (hok errors' h).trans (List.append_assoc ..), herror⟩
          · constructor
            · rintro errors' ⟨⟩
            · rintro f' ⟨⟩
              simpa using hf

/-- Only cycles change the queue, and only starts and cycles the stage. -/
theorem Move.queue_stage (m : Move k a s s') (hk : k ≠ .cycle) :
    s'.queue = s.queue ∧ (k ≠ .start → s'.stage = s.stage) := by
  cases m with
  | stage x h => exact ⟨rfl, fun hk' => by cases x <;> simp_all [Stage.leads]⟩
  | listen h => exact ⟨rfl, fun hk' => absurd h hk'⟩
  | queue _ h => exact absurd h hk
  | attach =>
    have hfields : s.ensureLoading.1.queue = s.queue ∧ s.ensureLoading.1.stage = s.stage := by
      unfold ensureLoading
      split <;> exact ⟨rfl, rfl⟩
    exact ⟨hfields.1, fun _ => hfields.2⟩
  | reset =>
    obtain ⟨-, -, -, -, hq, hs, -⟩ := reset_fields s a
    exact ⟨hq, fun _ => hs⟩
  | notify =>
    have hfields : s.notify.1.queue = s.queue ∧ s.notify.1.stage = s.stage :=
      notify_keeps (P := fun s' => s'.queue = s.queue ∧ s'.stage = s.stage) ⟨rfl, rfl⟩
        (fun _ _ h => h) fun _ h => h
    exact ⟨hfields.1, fun _ => hfields.2⟩
  | mark | host | stop | want | join | receive | compiled => exact ⟨rfl, fun _ => rfl⟩

theorem Moves.queue_stage (m : Moves k a s s') (hk : k ≠ .cycle) :
    s'.queue = s.queue ∧ (k ≠ .start → s'.stage = s.stage) := by
  induction m with
  | refl => exact ⟨rfl, fun _ => rfl⟩
  | tail _ m ih =>
    obtain ⟨hq, hs⟩ := m.queue_stage hk
    exact ⟨hq.trans ih.1, fun hk' => (hs hk').trans (ih.2 hk')⟩

theorem runLocals_fields (errors : List Text) (snippets : List (Snippet Text)) :
    (s.runLocals t errors snippets).1.queue = s.queue ∧
      (s.runLocals t errors snippets).1.stage = s.stage := by
  induction snippets generalizing s errors with
  | nil => exact ⟨rfl, rfl⟩
  | cons snippet rest ih =>
    unfold runLocals
    split
    · exact ih errors
    · exact ih errors
    · next number _ =>
      obtain ⟨hq, hs⟩ := (moves_callHandler (k := .plain) (s := s) (t := t) number
        snippet).queue_stage (by decide)
      have hs := hs (by decide)
      have hrecord : (s.record (some t) (.called number snippet)).queue = s.queue ∧
          (s.record (some t) (.called number snippet)).stage = s.stage := ⟨rfl, rfl⟩
      rw [hrecord.1] at hq
      rw [hrecord.2] at hs
      generalize s.callHandler t number snippet = q at hq hs ⊢
      obtain ⟨s', _ | ⟨f, message⟩⟩ := q
      · rw [← hq, ← hs]
        exact ih errors
      · dsimp only
        split
        · rw [← hq, ← hs]
          exact ih _
        · exact ⟨hq, hs⟩

end Locals

/-! ## The account of a dispatch -/

/-- How a batch fails, if it does: there is no runner, or the runner fails. -/
def batchFailure (s : Session) (filters : List (List Text)) : Option Failure :=
  match s.runner with
  | none => some .notLoaded
  | some r => (r.run s.setup.world filters s.host.bench).result

/-- How the batch of the queue fails when the local snippets have been carried out. -/
def dispatchFailure (s : Session) (t : TaskId) : Option Failure :=
  (s.runLocals t [] s.partition.locals).1.batchFailure s.partition.filters

/-- The report of a dispatch before anything is known of the external runner. -/
def draft (s : Session) (t : TaskId) (parsed : Nat) : Report :=
  { status := .completed, parsed, queued := s.queue.length, locals := s.partition.locals
    externals := s.partition.externals, errors := s.raised t }

/-- What is said at the end of the errors: why the external runner was not loaded, or else how the
batch failed. -/
def closingErrors : Option Text → Option Failure → List Text
  | some e, _ => [e]
  | none, none => []
  | none, some f => [text "external runner: " ++ f.message]

/-- The report of a dispatch that begins in `s` and is not broken off. -/
def account (s : Session) (t : TaskId) (parsed : Nat) (e : Option Text) : Report :=
  { s.draft t parsed with
    invoked := e.isNone && (s.dispatchFailure t).isNone
    errors := s.raised t ++ closingErrors e (s.dispatchFailure t) }

/-- In the middle of a turn that began in `m`: the collaborators and the runner are as they were
then, and no task has ended. -/
structure Scene (m d : Session) : Prop where
  setup : d.setup = m.setup
  host : d.host = m.host
  event : d.event = m.event
  runner : d.runner = m.runner
  outcomes : ∀ u, d.outcome? u = m.outcome? u

/-- What ends a cycle without a report in a turn that began in `m`: it was told to give up, or a
collaborator raised it. -/
inductive Raises (t : TaskId) (m : Session) : Failure → Prop where
  | told {task : Task} (ht : m.tasks[t]? = some task) (hc : task.cancelRequested) :
      Raises t m .cancelled
  | rules {fault : Fault} (h : m.host.snippets = .error fault) : Raises t m (.ofFault fault)
  | loading {load : TaskId} {f : Failure} (h : m.outcome? load = some (.error f)) : Raises t m f
  | gate {fault : Fault} (h : m.host.gate.ads = .error fault) : Raises t m (.ofFault fault)
  | locals {d : Session} {f : Failure} (hd : Scene m d)
      (h : (d.runLocals t [] d.partition.locals).2 = .error f) : Raises t m f
  | batch {d : Session} {f : Failure} (hd : Scene m d) (h : d.dispatchFailure t = some f) :
      Raises t m f

/-! ## The answer of the gate -/

/-- What can come of taking the gate's answer in a turn that began in `m`, with `queue` queued. -/
inductive GateBlock (t : TaskId) (m : Session) (queue : List (Snippet Text)) (parsed : Nat)
    (e : Option Text) : Session × Progress → Prop where
  | broken {s : Session} {f : Failure} (hf : f.isContained = false) (h : Raises t m f) :
      GateBlock t m queue parsed e (s, .ends (.error f))
  | shut {s : Session} (hgate : m.host.gate.opens = false) (hqueue : s.queue = queue)
      (hstage : s.stage = .gated) : GateBlock t m queue parsed e
        (s, .ends (.ok (.report { status := .disabled, parsed, queued := queue.length })))
  | hands {s d : Session} (hgate : m.host.gate.opens) (he : e = none) (hd : Scene m d)
      (hd' : d.queue = queue) (hqueue : s.queue = queue) (hstage : s.stage = .ready) :
      GateBlock t m queue parsed e
        (s, .waits (.dispatched (d.draft t parsed) (d.dispatchFailure t)) .turn)
  | done {s d : Session} (hgate : m.host.gate.opens) (hd : Scene m d) (hd' : d.queue = queue)
      (hqueue : s.queue = queue) (hstage : s.stage = .ready) :
      GateBlock t m queue parsed e (s, .ends (.ok (.report (d.account t parsed e))))

section Gate

variable {s m d : Session} {t : TaskId} {parsed : Nat} {e : Option Text}

theorem Scene.refl (m : Session) : Scene m m := ⟨rfl, rfl, rfl, rfl, fun _ => rfl⟩

theorem Scene.record (h : Scene m s) (a : Option TaskId) (w : Happening) :
    Scene m (s.record a w) := ⟨h.setup, h.host, h.event, h.runner, h.outcomes⟩

theorem Scene.withStage (h : Scene m s) (x : Stage) : Scene m (s.withStage x) :=
  ⟨h.setup, h.host, h.event, h.runner, h.outcomes⟩

/-- The end of a batch completes the account. -/
theorem reportBatch_account (s d : Session) (t : TaskId) (parsed : Nat) :
    (∃ s', s.reportBatch t (d.draft t parsed) (d.dispatchFailure t) =
        (s', .ends (.ok (.report (d.account t parsed none)))) ∧
      s'.queue = s.queue ∧ s'.stage = s.stage) ∨
    ∃ f, f.isContained = false ∧ d.dispatchFailure t = some f ∧
      s.reportBatch t (d.draft t parsed) (d.dispatchFailure t) = (s, .ends (.error f)) := by
  cases hfail : d.dispatchFailure t with
  | none =>
    refine .inl ⟨s, ?_, rfl, rfl⟩
    simp only [reportBatch, report, account, draft, hfail, closingErrors, List.append_nil]
    rfl
  | some f =>
    by_cases hf : f.isContained
    · refine .inl ⟨s.note (some t) (.error (text "External runner failed")), ?_, rfl, rfl⟩
      simp only [reportBatch, report, if_pos hf, account, draft, hfail, closingErrors]
      rfl
    · refine .inr ⟨f, by simpa using hf, rfl, ?_⟩
      simp only [reportBatch, if_neg hf]

theorem batchFailure_of_error {filters : List (List Text)} {f : Failure}
    (h : s.invoke t s.setup.world filters = .error f) : s.batchFailure filters = some f := by
  unfold invoke at h
  unfold batchFailure
  cases hr : s.runner with
  | none =>
    rw [hr] at h
    exact congrArg some (Except.error.inj h)
  | some r =>
    rw [hr] at h
    exact absurd h (by simp)

theorem batchFailure_of_ok {filters : List (List Text)} {s' : Session} {o : Option Failure}
    (h : s.invoke t s.setup.world filters = .ok (s', o)) : s.batchFailure filters = o := by
  unfold invoke at h
  unfold batchFailure
  cases hr : s.runner with
  | none =>
    rw [hr] at h
    exact absurd h (by simp)
  | some r =>
    rw [hr] at h
    exact congrArg Prod.snd (Except.ok.inj h)

/-- Without a runner the batch fails at once; else it runs, and the cycle waits for its turn. -/
theorem runBatch_cases (hfail : s.batchFailure d.partition.filters = d.dispatchFailure t)
    (parsed : Nat) :
    ∃ s' : Session, s'.queue = s.queue ∧ s'.stage = s.stage ∧
      (s.runBatch t (d.draft t parsed) =
          s'.reportBatch t (d.draft t parsed) (d.dispatchFailure t) ∨
        s.runBatch t (d.draft t parsed) =
          (s', .waits (.dispatched (d.draft t parsed) (d.dispatchFailure t)) .turn)) := by
  have hfilters : (d.draft t parsed).externals.map Snippet.toFilter = d.partition.filters := rfl
  obtain ⟨s₁, hs₁⟩ : ∃ s₁, s.record (some t) (.batched d.partition.filters) = s₁ := ⟨_, rfl⟩
  have hfail₁ : s₁.batchFailure d.partition.filters = d.dispatchFailure t := by
    rw [← hfail, ← hs₁]
    rfl
  have hfields : s₁.queue = s.queue ∧ s₁.stage = s.stage := by
    rw [← hs₁]
    exact ⟨rfl, rfl⟩
  unfold runBatch
  dsimp only
  rw [hfilters, hs₁]
  cases hi : s₁.invoke t s₁.setup.world d.partition.filters with
  | error f =>
    refine ⟨s₁, hfields.1, hfields.2, .inl ?_⟩
    rw [← hfail₁, batchFailure_of_error hi]
  | ok q =>
    obtain ⟨s', o⟩ := q
    obtain ⟨hq, hs⟩ := (moves_invoke (k := .plain) hi).queue_stage (by decide)
    refine ⟨s', hq.trans hfields.1, (hs (by decide)).trans hfields.2, .inr ?_⟩
    rw [← hfail₁, batchFailure_of_ok hi]

theorem gateBlock_dispatch (hm : Scene m s) (hgate : m.host.gate.opens) :
    GateBlock t m s.queue parsed e (s.dispatch t parsed e) := by
  obtain ⟨d, hd⟩ : ∃ d, s.withStage .ready = d := ⟨_, rfl⟩
  have hscene : Scene m d := hd ▸ hm.withStage .ready
  have hdq : d.queue = s.queue := by rw [← hd]; rfl
  have hds : d.stage = .ready := by rw [← hd]; rfl
  obtain ⟨hok, herror⟩ := runLocals_handled (s := d) (t := t) [] d.partition.locals
  obtain ⟨hq, hs⟩ := runLocals_fields (s := d) (t := t) [] d.partition.locals
  have hfail : (d.runLocals t [] d.partition.locals).1.batchFailure d.partition.filters =
    d.dispatchFailure t := rfl
  unfold dispatch
  dsimp only
  rw [hd]
  have hraises : ∀ f, (d.runLocals t [] d.partition.locals).2 = .error f → Raises t m f :=
    fun f hf => .locals hscene hf
  generalize d.runLocals t [] d.partition.locals = q at hok herror hq hs hfail hraises ⊢
  obtain ⟨s', f | errors⟩ := q
  · exact .broken (herror f rfl) (hraises f rfl)
  · have herrors : errors = d.raised t := hok errors rfl
    subst herrors
    rw [hdq] at hq
    rw [hds] at hs
    cases e with
    | some e => exact .done hgate hscene hdq hq hs
    | none =>
      obtain ⟨s₁, hq₁, hs₁, hbatch⟩ := runBatch_cases hfail parsed
      show GateBlock t m s.queue parsed none (s'.runBatch t (d.draft t parsed))
      rcases hbatch with hbatch | hbatch
      · rw [hbatch]
        rcases reportBatch_account s₁ d t parsed with
          ⟨s₂, hreport, hq₂, hs₂⟩ | ⟨f, hf, hraised, hreport⟩
        · rw [hreport]
          exact .done hgate hscene hdq (hq₂.trans (hq₁.trans hq)) (hs₂.trans (hs₁.trans hs))
        · rw [hreport]
          exact .broken hf (.batch hscene hraised)
      · rw [hbatch]
        exact .hands hgate rfl hscene hdq (hq₁.trans hq) (hs₁.trans hs)

theorem gateBlock_skipDispatch (hgate : m.host.gate.opens = false) (hs : s.stage = .gated) :
    GateBlock t m s.queue parsed e (s.skipDispatch t parsed) :=
  .shut hgate rfl hs

theorem gateBlock_takeGate (hm : Scene m s) (hs : s.stage = .gated) (parsed : Nat)
    (e : Option Text) : GateBlock t m s.queue parsed e (s.takeGate t parsed e) := by
  have hopens : m.host.gate.opens = s.host.gate.opens := by rw [hm.host]
  unfold takeGate
  cases hg : s.host.gate.ads with
  | ok v =>
    have hv : m.host.gate.opens = v.truthy := by rw [hopens, GateAnswer.opens, hg]
    dsimp only
    split
    · next ht => exact gateBlock_dispatch (hm.record (some t) (.gateKnown true)) (hv.trans ht)
    · next ht => exact gateBlock_skipDispatch (hv.trans (by simpa using ht)) hs
  | error f =>
    have hf : m.host.gate.opens = false := by rw [hopens, GateAnswer.opens, hg]
    dsimp only
    split
    · exact gateBlock_skipDispatch (s := s.note (some t) _) hf hs
    · next hc =>
      rw [hm.host] at hg
      exact .broken (by simpa using hc) (.gate hg)

end Gate

/-! ## The outcome of the loading -/

/-- What can come of taking the outcome of a loading in a turn that began in `m`. -/
inductive LoadingBlock (t : TaskId) (m : Session) (queue : List (Snippet Text)) (parsed : Nat)
    (load : TaskId) : Session × Progress → Prop where
  | broken {s : Session} {f : Failure} (hf : f.isContained = false) (h : Raises t m f) :
      LoadingBlock t m queue parsed load (s, .ends (.error f))
  | asks {s : Session} {e : Option Text} (he : Tells (m.outcomeOf load) e)
      (hqueue : s.queue = queue) (hstage : s.stage = .gated) :
      LoadingBlock t m queue parsed load (s, .waits (.gate parsed e) (.answer .gate))
  | goes {r : Session × Progress} {e : Option Text} (he : Tells (m.outcomeOf load) e)
      (h : GateBlock t m queue parsed e r) : LoadingBlock t m queue parsed load r

section Loading

variable {s m : Session} {t : TaskId}

theorem loadingBlock_askGate (hm : Scene m s) (hs : s.stage = .gated) (parsed : Nat)
    {load : TaskId} {e : Option Text} (he : Tells (m.outcomeOf load) e) :
    LoadingBlock t m s.queue parsed load (s.askGate t parsed e) := by
  unfold askGate
  dsimp only
  split
  · exact .asks he rfl hs
  · exact .goes he
      (gateBlock_takeGate ((hm.record (some t) (.loadingKnown e)).record _ _) hs parsed e)

/-- Whatever a loading came to in `m`, it did not fail with something that can be contained and is
no failure to load. -/
def LoadsOrBreaks (m : Session) (load : TaskId) : Prop :=
  ∀ f, m.outcome? load = some (.error f) → f.isContained → f.isLoading

theorem loadingBlock_takeLoading (hm : Scene m s) (hs : s.stage = .gated) (parsed : Nat)
    {load : TaskId} (hended : m.hasEnded load) (hload : m.LoadsOrBreaks load) :
    LoadingBlock t m s.queue parsed load (s.takeLoading t parsed load) := by
  have houtcome : s.outcomeOf load = m.outcomeOf load := by
    rw [outcomeOf, outcomeOf, hm.outcomes]
  have hknown : m.outcome? load = some (m.outcomeOf load) := by
    obtain ⟨o, ho⟩ := Option.isSome_iff_exists.1 hended
    rw [outcomeOf, ho]
    rfl
  have hm' := hm.record (some t) (.received load (m.outcomeOf load))
  unfold takeLoading receive
  rw [houtcome]
  cases ho : m.outcomeOf load with
  | ok result =>
    rw [ho] at hm'
    exact loadingBlock_askGate hm' hs parsed (ho ▸ rfl)
  | error f =>
    rw [ho] at hm'
    dsimp only
    split
    · next hf => exact loadingBlock_askGate hm' hs parsed (ho ▸ ⟨hf, rfl⟩)
    · next hf =>
      rw [ho] at hknown
      refine .broken ?_ (.loading hknown)
      by_contra hc
      exact hf (hload f hknown (by simpa using hc))

end Loading

/-! ## The answer of the rule source -/

/-- The loading that somebody shares in who asks for the runner now. -/
def shares (s : Session) : TaskId := s.loading.getD s.tasks.length

/-- What can come of taking the rules in a turn that began in `m`. -/
inductive RulesBlock (t : TaskId) (m : Session) : Session × Progress → Prop where
  | broken {s : Session} {f : Failure} (hf : f.isContained = false) (h : Raises t m f) :
      RulesBlock t m (s, .ends (.error f))
  | none {s : Session} (hrules : m.host.rules? = none) (hqueue : s.queue = m.queue)
      (hstage : s.stage = m.stage) : RulesBlock t m
        (s, .ends (.ok (.report { status := .noRules, queued := m.queue.length })))
  | awaits {s : Session} {rules : List Value} (hrules : m.host.rules? = some rules)
      (hqueue : s.queue = m.queue ++ Script.parseAll rules) (hstage : s.stage = .gated) :
      RulesBlock t m
        (s, .waits (.loading (Script.parseAll rules).length m.shares) (.shared m.shares))
  | goes {r : Session × Progress} {rules : List Value} (hrules : m.host.rules? = some rules)
      (h : LoadingBlock t m (m.queue ++ Script.parseAll rules) (Script.parseAll rules).length
        m.shares r) : RulesBlock t m r

/-- What can come of the first block of a cycle that is not suppressed. -/
inductive CycleBlock (t : TaskId) (m : Session) : Session × Progress → Prop where
  | asks {s : Session} (hqueue : s.queue = m.queue) (hstage : s.stage = m.stage) :
      CycleBlock t m (s, .waits .rules (.answer .snippets))
  | goes {r : Session × Progress} (h : RulesBlock t m r) : CycleBlock t m r

section Rules

variable {s m : Session} {t : TaskId}

theorem Scene.recordAll (h : Scene m s) (a : Option TaskId) (whats : List Happening) :
    Scene m (s.recordAll a whats) := by
  induction whats generalizing s with
  | nil => exact h
  | cons w whats ih => exact ih (h.record a w)

theorem Scene.attach (h : Scene m s) (ht : s.tasks.length = m.tasks.length)
    (hl : s.loading = m.loading) : Scene m (s.attach t).1 ∧ (s.attach t).2 = m.shares ∧
      (s.attach t).1.queue = s.queue ∧ (s.attach t).1.stage = s.stage := by
  unfold Session.attach ensureLoading shares
  rw [hl]
  cases hload : m.loading with
  | some load => exact ⟨h.record _ _, rfl, rfl, rfl⟩
  | none =>
    refine ⟨?_, ht, rfl, rfl⟩
    refine ⟨h.setup, h.host, h.event, h.runner, fun u => ?_⟩
    exact (outcome?_spawn s .load [⟨.load, false⟩] u).trans (h.outcomes u)

theorem scene_queueRules (h : Scene m s) (rules : List Value) :
    Scene m (s.queueRules t rules) ∧ (s.queueRules t rules).tasks = s.tasks ∧
      (s.queueRules t rules).loading = s.loading ∧
      (s.queueRules t rules).queue = s.queue ++ Script.parseAll rules ∧
      (s.queueRules t rules).stage = .gated := by
  have hall : ∀ (whats : List Happening) (s : Session),
      (s.recordAll (some t) whats).tasks = s.tasks ∧
        (s.recordAll (some t) whats).loading = s.loading ∧
        (s.recordAll (some t) whats).queue = s.queue := by
    intro whats
    induction whats with
    | nil => exact fun s => ⟨rfl, rfl, rfl⟩
    | cons w whats ih => exact fun s => ih (s.record (some t) w)
  unfold queueRules
  dsimp only
  generalize ruleNotes rules ++ (rules.filterMap Value.toText?).flatMap Script.notes = notes
  obtain ⟨ht, hl, hq⟩ := hall (notes.map .log) s
  have hs := h.recordAll (some t) (notes.map .log)
  refine ⟨⟨hs.setup, hs.host, hs.event, hs.runner, hs.outcomes⟩, ht, hl, ?_, rfl⟩
  exact congrArg (· ++ Script.parseAll rules) hq

theorem rulesBlock_takeRules (hm : Scene m s) (ht : s.tasks.length = m.tasks.length)
    (hl : s.loading = m.loading) (hq : s.queue = m.queue) (hs : s.stage = m.stage)
    (hload : m.LoadsOrBreaks m.shares) : RulesBlock t m (s.takeRules t) := by
  have hrules : m.host.rules? = s.host.rules? := by rw [hm.host]
  unfold takeRules
  cases ha : s.host.snippets with
  | error f =>
    have hnone : m.host.rules? = none := by rw [hrules, Host.rules?, ha]
    dsimp only
    split
    · rw [reportNoRules, report, hq]
      exact .none hnone hq hs
    · next hc =>
      rw [hm.host] at ha
      exact .broken (by simpa using hc) (.rules ha)
  | ok v =>
    have hitems : m.host.rules? = v.items? := by rw [hrules, Host.rules?, ha]
    dsimp only
    cases hv : v.items? with
    | none =>
      rw [hv] at hitems
      dsimp only
      rw [reportNoRules, report, hq]
      exact .none hitems hq hs
    | some rules =>
      rw [hv] at hitems
      obtain ⟨hm₁, ht₁, hl₁, hq₁, hs₁⟩ := scene_queueRules (t := t) hm rules
      obtain ⟨hm₂, hshares, hq₂, hs₂⟩ :=
        hm₁.attach (t := t) (by rw [ht₁, ht]) (hl₁.trans hl)
      have hqueue := hq₂.trans hq₁
      have hstage := hs₂.trans hs₁
      rw [hq] at hqueue
      dsimp only
      generalize (s.queueRules t rules).attach t = r at hm₂ hshares hqueue hstage ⊢
      obtain ⟨s₂, load⟩ := r
      obtain rfl : load = m.shares := hshares
      dsimp only
      split
      · next he =>
        have hended : m.hasEnded m.shares := by
          rw [hasEnded, ← hm₂.outcomes]
          exact he
        have h := loadingBlock_takeLoading (t := t) hm₂ hstage (Script.parseAll rules).length
          hended hload
        rw [hqueue] at h
        exact .goes hitems h
      · exact .awaits hitems hqueue hstage

theorem cycleBlock_cycle (hm : Scene m s) (ht : s.tasks.length = m.tasks.length)
    (hl : s.loading = m.loading) (hq : s.queue = m.queue) (hs : s.stage = m.stage)
    (hstage : m.stage ≠ .suppressed)
    (hload : m.LoadsOrBreaks m.shares) : CycleBlock t m (s.cycle t) := by
  unfold cycle
  rw [if_neg (by rw [hs]; exact hstage)]
  dsimp only
  split
  · exact .asks hq hs
  · exact .goes (rulesBlock_takeRules (hm.record _ _) ht hl hq hs hload)

end Rules

end Session

end Snippets
