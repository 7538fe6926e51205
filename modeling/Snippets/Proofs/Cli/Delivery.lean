import Snippets.Proofs.Cli.Fetching
import Snippets.Proofs.Cli.Telling
import Snippets.Proofs.File.Loading

/-!
# What a run delivers

The command that runs a rules file starts one cycle, waits for it and closes everything. Its jobs
are done first in, first out, so its run is a sequence of known sessions: the loading is launched,
it ends, the cycle learns of that and dispatches its queue, it reports, and the command closes the
gateway. If there is a script at the address, one child process gets the batch on its input and the
script is removed in the end; if there is none, no process is started, and the report says why
(`run_delivers`). What the printed report and the input of the process tell is spelled out as values
of JSON.
-/

namespace Snippets

namespace Cli

open Session (listener Runs)

/-- What a run comes to if its task ends within few jobs. -/
theorem runOnce_of_runs {s s' : Session} {n : Nat} {o : Outcome}
    (h : Runs (s.spawn .other runDue).2 n (s.spawn .other runDue).1 s') (hn : n ≤ 64)
    (ho : s'.outcome? (s.spawn .other runDue).2 = some o) : runOnce s = (s', o) := by
  have hfuel := (s.spawn .other runDue).1.le_fuel
  have huntil := h.runUntil (by rw [Session.hasEnded, ho]; rfl) (by omega)
  unfold runOnce
  dsimp only
  rw [huntil, Session.outcomeOf, ho]
  rfl

/-! ## The sessions of a run -/

namespace Errand

variable (e : Errand)

def source : RuleSource := ⟨.list e.items, .bool false, some e.rules⟩

/-- The session before the run. -/
def idle : Session := runSession e.around e.config e.source e.url

/-- The session when the command's own task is ready. -/
def begun : Session := (e.idle.spawn .other runDue).1

/-- The command's task while it waits for the cycle. -/
def command : Task where
  phase := some (.firstCycle 2)
  due := [⟨.drain, false⟩, ⟨.stop, true⟩, ⟨.close, true⟩]

/-- The cycle while it waits for the loading. -/
def waitingCycle : Task where
  role := .cycle true
  phase := some (.loading (Script.parseAll e.items).length 3)
  due := []

/-- The cycle has queued its snippets and waits for the loading, which has not begun. -/
def launched (journal : Journal) : Session :=
  { e.idle with
    event := { registered := [listener] }
    stage := .gated
    queue := Script.parseAll e.items
    pending := [2]
    loading := some 3
    tasks := [command, { phase := some (.getting 3), due := [] }, e.waitingCycle,
      { role := .load, due := [⟨.load, false⟩] }]
    waiting := [(0, .own 2), (1, .shared 3), (2, .shared 3)]
    ready := [.resume 3]
    journal }

/-! ## Until the loading -/

/-- The start has scheduled the cycle and waits for it. -/
def started (journal : Journal) : Session :=
  { e.idle with
    event := { registered := [listener] }
    stage := .initializing
    pending := [2]
    tasks := [command, { due := [⟨.get, false⟩] },
      { role := .cycle true, due := [⟨.cycle, false⟩] }]
    waiting := [(0, .own 2)]
    ready := [.resume 1, .resume 2]
    journal }

/-- The task that the start has left asks for the runner. -/
def asked (journal : Journal) : Session :=
  { e.started journal with
    loading := some 3
    tasks := [command, { phase := some (.getting 3), due := [] },
      { role := .cycle true, due := [⟨.cycle, false⟩] }, { role := .load, due := [⟨.load, false⟩] }]
    waiting := [(0, .own 2), (1, .shared 3)]
    ready := [.resume 2, .resume 3] }

theorem runs_launched : ∃ j, Runs 0 3 e.begun (e.launched j) ∧
    j.effects = [.askWhitelist, .askSnippets] := by
  obtain ⟨j₁, h₁, he₁⟩ : ∃ j, ({ e.begun with ready := [] } : Session).perform (.resume 0) =
    e.started j ∧ j.effects = [.askWhitelist] := ⟨_, rfl, rfl⟩
  obtain ⟨j₂, h₂, he₂⟩ : ∃ j, ({ e.started j₁ with ready := [.resume 2] } : Session).perform
    (.resume 1) = e.asked j ∧ j.effects = j₁.effects :=
    ⟨_, rfl, Journal.effects_snoc rfl _⟩
  have hstage : (({ e.asked j₂ with ready := [.resume 3] } : Session).heed 2).stage ≠
    .suppressed := nofun
  obtain ⟨j₃, hcycle, he₃⟩ := Session.cycle_launches 2 hstage rfl rfl rfl rfl
  have h₃ : ({ e.asked j₂ with ready := [.resume 3] } : Session).perform (.resume 2) =
      e.launched j₃ :=
    (Session.perform_begin (c := .cycle) rfl hcycle).trans rfl
  refine ⟨j₃, .job rfl rfl h₁ (.job rfl rfl h₂ (.one rfl rfl h₃)), ?_⟩
  rw [he₃]
  show Journal.effects j₂ ++ _ = _
  rw [he₂, he₁]
  rfl

/-! ## Until the loading has ended -/

/-- The loading when it has ended. -/
def loadTask (phase : Option Phase) : Task where
  role := .load
  phase
  due := []
  outcome := some e.ended

/-- The task that asked for the runner, when it has learned how the loading ended. -/
def getTask : Task where
  phase := some (.getting 3)
  due := []
  outcome := some e.ended

/-- The loading has ended, and those who share in it are to be told. -/
def arrived (scratch : Scratch) (replies : Supply Reply) (phase : Option Phase)
    (journal : Journal) : Session :=
  { e.launched journal with
    host := { e.idle.host with replies, bench := { e.idle.host.bench with scratch } }
    runner := runnerOf e.settings e.script
    tasks := [command, { phase := some (.getting 3), due := [] }, e.waitingCycle, e.loadTask phase]
    ready := [.settled 3, .relay 1, .relay 2] }

theorem fresh_launched (j : Journal) :
    e.Fresh (({ e.launched j with ready := [] } : Session).heed 3) :=
  ⟨⟨rfl, rfl, rfl, rfl, rfl⟩, rfl, rfl, rfl, rfl⟩

/-- The loading while it has its turn after it has read a file. -/
def readingTurn (u : Url) (journal : Journal) : Session :=
  { e.launched journal with
    tasks := [command, { phase := some (.getting 3), due := [] }, e.waitingCycle,
      { role := .load, phase := some (.reading (e.reading u)), due := [] }]
    ready := [] }

theorem perform_readingTurn {u : Url} (hu : Url.split e.url = .ok u)
    (hremote : u.isRemote = false) (j : Journal) :
    ∃ scratch replies j', (∀ bytes, e.script = .ok bytes → scratch.files = [(0, bytes)]) ∧
      j'.effects = j.effects ∧
      (e.readingTurn u j).perform (.resume 3) =
        e.arrived scratch replies (some (.reading (e.reading u))) j' := by
  have hbare : e.Bare ((e.readingTurn u j).heed 3) := ⟨rfl, rfl, rfl, rfl, rfl⟩
  obtain ⟨scratch, replies, j', hfiles, heffects, hfile⟩ := hbare.takeFile (t := 3) hu hremote
  refine ⟨scratch, replies, j', hfiles, heffects.trans (List.append_nil _), ?_⟩
  exact (Session.perform_continue (p := .reading (e.reading u)) rfl hfile).trans rfl

/-- The loading ends within three jobs. -/
theorem runs_arrived (hfetch : ∀ f, e.around.replies.now.source = .error f → f.reach = .contained)
    (j : Journal) :
    ∃ n scratch replies phase j', n ≤ 3 ∧
      Runs 0 n (e.launched j) (e.arrived scratch replies phase j') ∧
      (∀ bytes, e.script = .ok bytes → scratch.files = [(0, bytes)]) ∧
      j'.effects = j.effects ++ requests e.url := by
  obtain ⟨scratch, replies, j', hfiles, heffects, hload⟩ | ⟨u, j₁, hu, hremote, hj₁, hload⟩ :=
    (e.fresh_launched j).load hfetch
  · have hturn : Session.perform { e.launched j with ready := [] } (.resume 3) =
        e.arrived scratch replies none j' :=
      (Session.perform_begin (c := .load) rfl hload).trans rfl
    exact ⟨1, scratch, replies, none, j', by decide, .one rfl rfl hturn, hfiles, heffects⟩
  · have hturn : Session.perform { e.launched j with ready := [] } (.resume 3) = _ :=
      Session.perform_begin (c := .load) rfl hload
    obtain ⟨scratch, replies, j', hfiles, heffects, hread⟩ := e.perform_readingTurn hu hremote j₁
    exact ⟨3, scratch, replies, _, j', by decide,
      .job rfl rfl hturn (.job rfl rfl rfl (.one rfl rfl hread)), hfiles, heffects.trans hj₁⟩

/-! ## Until the dispatch -/

/-- Everybody knows how the loading has ended, and the cycle has its turn. -/
def informed (scratch : Scratch) (replies : Supply Reply) (phase : Option Phase)
    (journal : Journal) : Session :=
  { e.arrived scratch replies phase journal with
    tasks := [command, e.getTask, e.waitingCycle, e.loadTask phase]
    waiting := [(0, .own 2)]
    ready := [.resume 2, .settled 1] }

theorem settled_arrived (scratch : Scratch) (replies : Supply Reply) (phase : Option Phase)
    (j : Journal) :
    ∃ j', j'.effects = j.effects ∧
      Session.settled { e.arrived scratch replies phase j with ready := [.relay 1, .relay 2] } 3 =
        { e.arrived scratch replies phase j' with ready := [.relay 1, .relay 2] } := by
  unfold Session.settled arrived loadTask ended
  cases e.script with
  | ok bytes => exact ⟨j, rfl, rfl⟩
  | error reason =>
    exact ⟨_, Journal.effects_snoc rfl _, rfl⟩

theorem runs_informed (scratch : Scratch) (replies : Supply Reply) (phase : Option Phase)
    (j : Journal) :
    ∃ j', j'.effects = j.effects ∧
      Runs 0 4 (e.arrived scratch replies phase j) (e.informed scratch replies phase j') := by
  obtain ⟨j₁, hj₁, hsettled⟩ := e.settled_arrived scratch replies phase j
  have hturn : Session.perform { e.arrived scratch replies phase j₁ with
      waiting := [(0, .own 2)], ready := [.resume 2] } (.resume 1) =
      e.informed scratch replies phase
        (j₁ ++ [⟨some 1, .received 3 e.ended⟩]) := by
    refine (Session.perform_continue (k := .other) (p := .getting 3) ?_ rfl).trans ?_ <;> rfl
  refine ⟨_, ?_, .job rfl rfl hsettled (.job rfl rfl rfl (.job rfl rfl rfl (.one rfl rfl hturn)))⟩
  exact (Journal.effects_snoc rfl _).trans hj₁

/-- The error that the cycle learns of, if the loading has failed. -/
def loadingError : Option Text :=
  match e.script with
  | .ok _ => none
  | .error reason => some (Failure.loading e.url reason).message

theorem takeLoading_informed (scratch : Scratch) (replies : Supply Reply) (phase : Option Phase)
    (j : Journal) (parsed : Nat) :
    ∃ j', j'.effects = j.effects ++ [.askGate] ∧
      ({ e.informed scratch replies phase j with ready := [.settled 1] } : Session).takeLoading 2
          parsed 3 =
        ({ e.informed scratch replies phase j' with ready := [.settled 1] } : Session).dispatch 2
          parsed e.loadingError := by
  have houtcome : Session.outcomeOf { e.informed scratch replies phase j with
      ready := [.settled 1] } 3 = loadingOf e.settings e.url e.script := rfl
  refine ⟨j ++ [⟨some 2, .received 3 (loadingOf e.settings e.url e.script)⟩] ++
    [⟨some 2, .loadingKnown e.loadingError⟩] ++ [⟨some 2, .effect .askGate⟩] ++
    [⟨some 2, .gateKnown true⟩], ?_, ?_⟩
  · simp [Journal.effects]
  · unfold Session.takeLoading Session.receive
    rw [houtcome]
    unfold loadingError
    cases hscript : e.script with
    | ok bytes => rfl
    | error reason => rfl

/-! ## Until the report -/

/-- The report before anything is known of the runner. -/
def draft : Report where
  status := .completed
  parsed := (Script.parseAll e.items).length
  queued := (Script.parseAll e.items).length
  externals := Script.parseAll e.items

/-- How the child process fails, if it does. -/
def processFailure : Option Failure :=
  (ScriptRunner.conclude ⟨0, e.settings⟩ e.around.processes.now).2

/-- The report of a batch that has run. -/
def afterBatch : Option Failure → Report
  | none => { e.draft with invoked := true }
  | some f => { e.draft with errors := [text "external runner: " ++ f.message] }

/-- The report of the run. -/
def report : Report :=
  match e.script with
  | .ok _ => e.afterBatch e.processFailure
  | .error reason => { e.draft with errors := [(Failure.loading e.url reason).message] }

theorem report_eq : ∃ invoked errors, e.report = { e.draft with invoked, errors } := by
  unfold report
  cases e.script with
  | ok bytes => cases h : e.processFailure <;> exact ⟨_, _, rfl⟩
  | error reason => exact ⟨_, _, rfl⟩

/-- The process call raises nothing exactly if the process comes to an exit. -/
theorem processFailure_eq_none :
    e.processFailure = none ↔ ∃ code errors, e.around.processes.now = .exit code errors := by
  unfold processFailure
  cases e.around.processes.now <;> simp [ScriptRunner.conclude]

/-- The child processes of the run. -/
def processes : List Effect :=
  match e.script with
  | .ok _ => [ScriptRunner.effect ⟨0, e.settings⟩ e.config.world.context
      ((Script.parseAll e.items).map Snippet.toFilter)]
  | .error _ => []

/-- The cycle has reported, and the command goes on. -/
def reported (scratch : Scratch) (replies : Supply Reply) (ends : Supply ProcessEnd)
    (phase phase' : Option Phase) (journal : Journal) : Session :=
  { e.informed scratch replies phase journal with
    host := { e.idle.host with
      replies, bench := { e.idle.host.bench with scratch, processes := ends } }
    stage := .ready
    pending := []
    tasks := [command, e.getTask,
      { role := .cycle true, phase := phase', due := [], outcome := some (.ok (.report e.report)) },
      e.loadTask phase]
    waiting := []
    ready := [.resume 0] }

/-- The cycle when it has dispatched, and its batch has run. -/
def dispatched (scratch : Scratch) (replies : Supply Reply) (ends : Supply ProcessEnd)
    (phase : Option Phase) (failure : Option Failure) (journal : Journal) : Session :=
  { e.informed scratch replies phase journal with
    host := { e.idle.host with
      replies, bench := { e.idle.host.bench with scratch, processes := ends } }
    stage := .ready
    tasks := [command, e.getTask,
      { role := .cycle true, phase := some (.dispatched e.draft failure), due := [] },
      e.loadTask phase]
    ready := [] }

/-- The cycle's turn when it knows how the loading has ended. -/
theorem perform_informed (scratch : Scratch) (replies : Supply Reply) (phase : Option Phase)
    (j : Journal) :
    ∃ j', j'.effects = j.effects ++ [.askGate] ∧
      Session.perform { e.informed scratch replies phase j with ready := [.settled 1] }
          (.resume 2) =
        (({ e.informed scratch replies phase j' with ready := [.settled 1] } : Session).dispatch 2
          e.draft.parsed e.loadingError).1.conclude 2
        (({ e.informed scratch replies phase j' with ready := [.settled 1] } : Session).dispatch 2
          e.draft.parsed e.loadingError).2 := by
  obtain ⟨j', hj', hloading⟩ := e.takeLoading_informed scratch replies phase j e.draft.parsed
  exact ⟨j', hj', Session.perform_continue (k := .cycle true)
    (p := .loading e.draft.parsed 3) rfl hloading⟩

/-- A cycle whose loading has failed reports at once. -/
theorem runs_failed {reason : Text} (hscript : e.script = .error reason) (scratch : Scratch)
    (replies : Supply Reply) (phase : Option Phase) (j : Journal) :
    ∃ j', j'.effects = j.effects ++ [.askGate] ∧
      Runs 0 3 (e.informed scratch replies phase j) (e.reported scratch replies
        e.around.processes phase (some (.loading e.draft.parsed 3)) j') := by
  obtain ⟨j₁, hj₁, hturn⟩ := e.perform_informed scratch replies phase j
  rw [Session.dispatch_external rfl, loadingError, hscript] at hturn
  have hreport : e.report =
      { e.draft with errors := [(Failure.loading e.url reason).message] } := by
    rw [report, hscript]
  refine ⟨j₁ ++ [⟨some 2, .reported (.ok e.report)⟩], ?_,
    .job rfl rfl hturn (.job rfl rfl rfl (.one rfl rfl ?_))⟩
  · exact (Journal.effects_snoc rfl _).trans hj₁
  · rw [reported, hreport]
    rfl

/-- The end of the batch completes the report. -/
theorem perform_dispatched {bytes : List UInt8} (hscript : e.script = .ok bytes)
    {failure : Option Failure} (hf : e.processFailure = failure)
    (hcontained : ∀ f, failure = some f → f.isContained) (scratch : Scratch)
    (replies : Supply Reply) (ends : Supply ProcessEnd) (phase : Option Phase) (j : Journal) :
    ∃ j', j'.effects = j.effects ∧
      (e.dispatched scratch replies ends phase failure j).perform (.resume 2) =
        { e.reported scratch replies ends phase (some (.dispatched e.draft failure)) j' with
          pending := [2], ready := [.settled 2, .resume 0] } := by
  have hturn : (e.dispatched scratch replies ends phase failure j).perform (.resume 2) = _ :=
    Session.perform_continue (k := .cycle true) (p := .dispatched e.draft failure) rfl rfl
  have hreport : e.report = e.afterBatch failure := by
    rw [report, hscript, ← hf]
  unfold reported
  rw [hturn, hreport]
  dsimp only [Session.continueCall]
  cases failure with
  | none =>
    refine ⟨_, ?_, rfl⟩
    exact Journal.effects_snoc rfl _
  | some f =>
    rw [Session.reportBatch, if_pos (hcontained f rfl)]
    refine ⟨j ++ [⟨some 2, .log (.error (text "External runner failed"))⟩] ++
      [⟨some 2, .reported (.ok (e.afterBatch (some f)))⟩], ?_, rfl⟩
    simp [Journal.effects]

/-- A cycle whose runner is there hands it the batch, and reports in its next turn. -/
theorem runs_loaded {bytes : List UInt8} (hscript : e.script = .ok bytes)
    (hprocess : ∀ f, e.processFailure = some f → f.isContained) (scratch : Scratch)
    (replies : Supply Reply) (phase : Option Phase) (j : Journal) :
    ∃ j', j'.effects = j.effects ++ [.askGate] ++ e.processes ∧
      Runs 0 5 (e.informed scratch replies phase j) (e.reported scratch replies
        e.around.processes.next phase (some (.dispatched e.draft e.processFailure)) j') := by
  obtain ⟨j₁, hj₁, hturn⟩ := e.perform_informed scratch replies phase j
  have hrunner : ({ e.informed scratch replies phase j₁ with
      ready := [.settled 1], stage := .ready } : Session).runner =
      some (.script ⟨0, e.settings⟩) := by
    show runnerOf e.settings e.script = _
    rw [hscript]
    rfl
  obtain ⟨j₂, hj₂, hbatch⟩ := Session.runBatch_script hrunner 2 e.draft
  obtain ⟨j₃, hj₃, hreport⟩ := e.perform_dispatched hscript rfl hprocess scratch replies
    e.around.processes.next phase j₂
  have hfirst : Session.perform { e.informed scratch replies phase j with ready := [.settled 1] }
      (.resume 2) =
      { e.dispatched scratch replies e.around.processes.next phase e.processFailure j₂ with
        waiting := [(0, .own 2), (2, .turn)], ready := [.settled 1, .relay 2] } := by
    rw [hturn, Session.dispatch_external rfl, loadingError, hscript]
    refine (congrArg (fun r : Session × Progress => r.1.conclude 2 r.2) hbatch).trans ?_
    rfl
  refine ⟨j₃, ?_, .job rfl rfl hfirst (.job rfl rfl rfl (.job rfl rfl rfl
    (.job rfl rfl hreport (.one rfl rfl rfl))))⟩
  rw [hj₃, hj₂, processes, hscript]
  exact congrArg (· ++ _) hj₁

/-! ## Until the end -/

/-- The command has ended, and the gateway is closed. -/
def closed (scratch : Scratch) (replies : Supply Reply) (ends : Supply ProcessEnd)
    (phase phase' : Option Phase) (journal : Journal) : Session :=
  { e.reported scratch replies ends phase phase' journal with
    event := { registered := [] }
    loading := none
    runner := none
    tasks := { command with due := [], outcome := some (.ok (.report e.report)) } ::
      (e.reported scratch replies ends phase phase' journal).tasks.tail
    ready := [.settled 0] }

/-- The command stops listening and closes the gateway, which removes the script. -/
theorem perform_reported (scratch : Scratch) (replies : Supply Reply) (ends : Supply ProcessEnd)
    (phase phase' : Option Phase) (j : Journal) :
    ∃ j', j'.effects = j.effects ∧
      Session.perform { e.reported scratch replies ends phase phase' j with ready := [] }
        (.resume 0) = e.closed (match e.script with
          | .ok _ => scratch.remove 0
          | .error _ => scratch) replies ends phase phase' j' := by
  unfold closed reported informed arrived getTask loadTask ended
  cases e.script with
  | ok bytes =>
    refine ⟨j ++ [⟨some 0, .closed (.script ⟨0, e.settings⟩)⟩] ++ [⟨some 0, .reset⟩], ?_, rfl⟩
    simp [Journal.effects]
  | error reason =>
    refine ⟨j ++ [⟨some 0, .reset⟩], ?_, rfl⟩
    simp [Journal.effects]

/-- What the faults are that the run can meet: none of them passes through. -/
structure Contained : Prop where
  fetch : ∀ f, e.around.replies.now.source = .error f → f.reach = .contained
  process : ∀ f, e.around.processes.now = .fault f → f.reach = .contained

variable {e}

theorem Contained.processFailure (h : e.Contained) :
    ∀ f, e.processFailure = some f → f.isContained := by
  intro f hf
  unfold Errand.processFailure ScriptRunner.conclude at hf
  cases hend : e.around.processes.now with
  | exit code errors =>
    rw [hend] at hf
    cases hf
  | timeout =>
    rw [hend] at hf
    cases hf
    rfl
  | fault x =>
    rw [hend] at hf
    cases hf
    have hreach := h.process x hend
    have hfault : Failure.ofFault x = .fault x := by rw [Failure.ofFault, hreach]
    rw [hfault, Failure.isContained, hreach]
    rfl

theorem Contained.runs (h : e.Contained) :
    ∃ n scratch replies ends phase phase' j, n ≤ 16 ∧
      Runs 0 n e.begun (e.closed scratch replies ends phase phase' j) ∧
      (∀ bytes, e.script = .ok bytes → scratch.files = []) ∧
      j.effects = [.askWhitelist, .askSnippets] ++ requests e.url ++ [.askGate] ++ e.processes := by
  obtain ⟨j₁, hlaunched, hj₁⟩ := e.runs_launched
  obtain ⟨n, scratch, replies, phase, j₂, hn, harrived, hfiles, hj₂⟩ := e.runs_arrived h.fetch j₁
  obtain ⟨j₃, hj₃, hinformed⟩ := e.runs_informed scratch replies phase j₂
  obtain ⟨k, ends, phase', j₄, hk, hj₄, hreported⟩ : ∃ k ends phase' j', k ≤ 5 ∧
      j'.effects = j₃.effects ++ [.askGate] ++ e.processes ∧
      Runs 0 k (e.informed scratch replies phase j₃)
        (e.reported scratch replies ends phase phase' j') := by
    cases hscript : e.script with
    | ok bytes =>
      obtain ⟨j', hj', hruns⟩ := e.runs_loaded hscript h.processFailure scratch replies phase j₃
      exact ⟨5, _, _, j', Nat.le_refl 5, hj', hruns⟩
    | error reason =>
      obtain ⟨j', hj', hruns⟩ := e.runs_failed hscript scratch replies phase j₃
      refine ⟨3, _, _, j', by decide, ?_, hruns⟩
      rw [hj', processes, hscript, List.append_nil]
  obtain ⟨j₅, hj₅, hturn⟩ := e.perform_reported scratch replies ends phase phase' j₄
  have hruns := (hlaunched.trans harrived).trans (hinformed.trans hreported)
  refine ⟨_, _, replies, ends, phase, phase', j₅, ?_, hruns.trans (.one rfl rfl hturn), ?_, ?_⟩
  · omega
  · intro bytes hscript
    rw [hscript]
    simp [Scratch.remove, hfiles bytes hscript]
  · rw [hj₅, hj₄, hj₃, hj₂, hj₁]

/-- The run ends with the report, and the script is gone. -/
theorem Contained.runOnce (h : e.Contained) :
    ∃ s, runOnce e.idle = (s, .ok (.report e.report)) ∧
      s.journal.effects =
        [.askWhitelist, .askSnippets] ++ requests e.url ++ [.askGate] ++ e.processes ∧
      ∀ bytes, e.script = .ok bytes → s.host.bench.scratch.files = [] := by
  obtain ⟨n, scratch, replies, ends, phase, phase', j, hn, hruns, hfiles, hj⟩ := h.runs
  exact ⟨e.closed scratch replies ends phase phase' j, runOnce_of_runs hruns (by omega) rfl, hj,
    hfiles⟩

end Errand

/-! ## The command -/

theorem ofFile_of_items {files : Tree} {rules : Path} {entries : List (Value × Value)}
    {items : List Value} (hload : MappingFile.load files .rules rules = .ok entries)
    (hopen : RuleSource.whitelistedIn entries = false)
    (hitems : Value.lookup (text "snippets") entries = some (.list items)) :
    RuleSource.ofFile files rules = .ok ⟨.list items, .bool false, some rules⟩ := by
  unfold RuleSource.ofFile
  rw [hload]
  show Except.ok { RuleSource.new (some (RuleSource.snippetsIn entries))
    (.bool (RuleSource.whitelistedIn entries)) with path := some rules } = _
  rw [hopen, RuleSource.snippetsIn, hitems]
  rfl

/-- Whatever a value holds, its JSON text can be printed. -/
theorem print_indented (v : Value) :
    Answer.print (Json.indented v ++ text "\n") = { output := Json.indented v ++ text "\n" } := by
  have hlines : (Json.indented v ++ text "\n").isLines := by
    rw [Text.isLines_append, Json.isLines_indented]
    rfl
  unfold Answer.print
  rw [Utf8.encode_of_forall (Text.not_isSurrogate_of_isLines hlines)]

/-- What a run answers, given how its session ended. -/
def shown (x : Session × Outcome) : Answer :=
  { (match x.2 with
      | .ok r => Answer.print (Json.indented (resultValue r) ++ text "\n")
      | .error f => .escape (.failure f)) with
    effects := x.1.journal.effects }

theorem run_eq_shown {w : Surroundings} {config : Config} {source : RuleSource} {rules : Path}
    {configPath : Option Path} {given : Option Text} {url : Text}
    (hconfig : Config.load w.files configPath w.environmentUrl = .ok config)
    (hsource : RuleSource.ofFile w.files rules = .ok source)
    (hurl : chooseUrl given config.runnerUrl = some url) :
    run w rules configPath given = shown (runOnce (runSession w config source url)) := by
  unfold shown
  rcases hrun : runOnce (runSession w config source url) with ⟨s, f | r⟩ <;>
    simp only [run, hconfig, hsource, hurl, hrun]

theorem shown_report (s : Session) (r : Report) : shown (s, .ok (.report r)) =
    { output := Json.indented r.toValue ++ text "\n", effects := s.journal.effects } := by
  unfold shown
  dsimp only [resultValue]
  rw [print_indented]

/-- The errors of a batch, by how its process ends. -/
theorem Errand.Contained.afterBatch_errors {e : Errand} (h : e.Contained) :
    (e.afterBatch e.processFailure).errors = match e.around.processes.now with
      | .exit _ _ => []
      | .timeout => [text "external runner: " ++ (Failure.timedOut
          (e.config.interpreter ++ [Scratch.path e.around.folder 0]) e.config.timeout).message]
      | .fault f => [text "external runner: " ++ f.message] := by
  unfold Errand.processFailure ScriptRunner.conclude
  cases hend : e.around.processes.now with
  | exit code errors => rfl
  | timeout => rfl
  | fault f =>
    have hfault : Failure.ofFault f = .fault f := by rw [Failure.ofFault, h.process f hend]
    dsimp only
    rw [hfault]
    rfl

/-- What the report of a run says of its calls, whatever comes of the runner. -/
theorem Errand.report_fields (e : Errand) :
    e.report.status = .completed ∧ e.report.locals = [] ∧ e.report.externals = callsIn e.items ∧
      e.report.parsed = e.report.externals.length ∧
      e.report.queued = e.report.externals.length := by
  obtain ⟨invoked, errors, hreport⟩ := e.report_eq
  rw [hreport, ← parseAll_eq_callsIn]
  exact ⟨rfl, rfl, rfl, rfl, rfl⟩

/-- The command runs the snippets of a rules file. What it prints is a JSON text that tells that the
cycle has completed, and lists all of them, in file order, as external. If the runner's source can
be fetched and compiled, one child process gets all of them on its input, together with the
configured world, and the script is gone in the end; if not, no process is started and the report
says why. -/
theorem run_delivers {w : Surroundings} {config : Config} {entries : List (Value × Value)}
    {items : List Value} {rules : Path} {configPath : Option Path} {given : Option Text}
    {url : Text}
    (hconfig : Config.load w.files configPath w.environmentUrl = .ok config)
    (hrules : MappingFile.load w.files .rules rules = .ok entries)
    (hopen : RuleSource.whitelistedIn entries = false)
    (hitems : Value.lookup (text "snippets") entries = some (.list items))
    (hurl : chooseUrl given config.runnerUrl = some url)
    (hfetch : ∀ f, w.replies.now.source = .error f → f.reach = .contained)
    (hprocess : ∀ f, w.processes.now = .fault f → f.reach = .contained) :
    ∃ (source : RuleSource) (s : Session) (r : Report) (filters : List (List Text)),
      RuleSource.ofFile w.files rules = .ok source ∧
      runOnce (runSession w config source url) = (s, .ok (.report r)) ∧
      run w rules configPath given =
        { output := Json.indented r.toValue ++ text "\n", effects := s.journal.effects } ∧
      (∀ v, Json.Document v (Json.indented r.toValue ++ text "\n") ↔
        v = told (ScriptRunner.pairedFilters filters) r.invoked (r.errors.map Text.joinPairs)) ∧
      filters = (callsIn items).map (fun call => call.name :: call.args) ∧
      r.status = .completed ∧ r.locals = [] ∧ r.externals = callsIn items ∧
      r.parsed = r.externals.length ∧ r.queued = r.externals.length ∧
      match w.scriptAt url with
      | .ok _ =>
        (∃ input,
          s.journal.effects = [.askWhitelist, .askSnippets] ++ requests url ++
            [.askGate, .exec (config.interpreter ++ [Scratch.path w.folder 0]) input
              config.timeout] ∧
          input = ScriptRunner.payload config.world.context filters ∧
          ∀ v, Json.Document v input ↔
            v = handed config.world (ScriptRunner.pairedFilters filters)) ∧
        (r.invoked ↔ ∃ code errors, w.processes.now = .exit code errors) ∧
        (r.errors = match w.processes.now with
          | .exit _ _ => []
          | .timeout => [text "external runner: " ++ (Failure.timedOut
              (config.interpreter ++ [Scratch.path w.folder 0]) config.timeout).message]
          | .fault f => [text "external runner: " ++ f.message]) ∧
        s.host.bench.scratch.files = []
      | .error reason =>
        s.journal.effects = [.askWhitelist, .askSnippets] ++ requests url ++ [.askGate] ∧
        r.invoked = false ∧
        r.errors = [text "Failed to load external runner from " ++ url ++ text ": " ++ reason] := by
  have hsource := ofFile_of_items hrules hopen hitems
  obtain ⟨e, he⟩ : ∃ e : Errand, e = ⟨w, config, rules, items, url⟩ := ⟨_, rfl⟩
  have hcontained : e.Contained := by
    subst he
    exact ⟨hfetch, hprocess⟩
  have hscript : w.scriptAt url = e.script := by rw [he]; rfl
  have hidle : runSession w config ⟨.list items, .bool false, some rules⟩ url = e.idle := by
    rw [he]
    rfl
  obtain ⟨s, hrun, heffects, hfiles⟩ := hcontained.runOnce
  rw [← hidle] at hrun
  obtain ⟨hstatus, hlocals, hexternals, hparsed, hqueued⟩ := e.report_fields
  have hsame : e.items = items := by rw [he]
  rw [hsame] at hexternals
  refine ⟨_, s, e.report, _, hsource, hrun, ?_, fun v => ?_, rfl, hstatus, hlocals, hexternals,
    hparsed, hqueued, ?_⟩
  · rw [run_eq_shown hconfig hsource hurl, hrun, shown_report]
  · rw [← hexternals]
    exact document_report_iff hstatus hlocals hparsed hqueued
  · rw [hscript]
    cases hcase : e.script with
    | ok bytes =>
      have hbatch : e.report = e.afterBatch e.processFailure := by rw [Errand.report, hcase]
      refine ⟨⟨_, ?_, rfl, fun v => document_input_iff⟩, ?_, ?_, hfiles bytes hcase⟩
      · rw [heffects, Errand.processes, hcase, parseAll_eq_callsIn, he, List.append_assoc]
        rfl
      · have hinvoked : e.report.invoked = e.processFailure.isNone := by
          rw [hbatch]
          cases e.processFailure <;> rfl
        rw [hinvoked, Option.isNone_iff_eq_none, e.processFailure_eq_none, he]
      · rw [hbatch, hcontained.afterBatch_errors, he]
    | error reason =>
      have hreason : e.report =
          { e.draft with errors := [(Failure.loading e.url reason).message] } := by
        rw [Errand.report, hcase]
      refine ⟨?_, ?_, ?_⟩
      · rw [heffects, Errand.processes, hcase, he, List.append_nil]
      · rw [hreason]
        rfl
      · rw [hreason, he]
        rfl

/-- A rules file with one script, and a runner next to it. -/
def sampleSurroundings : Surroundings where
  files :=
    { nodes :=
        [([text "rules.yaml"], .file ((text "snippets: [a b]").flatMap Utf8.encodePoint)),
          ([text "runner.js"], .file ((text "1").flatMap Utf8.encodePoint))] }
  replies := ⟨.body none .null, []⟩
  processes := ⟨.exit 0 [], []⟩

/-- A list that holds one text. -/
def isListOf (t : Text) : Option Value → Bool
  | some (.list [.text u]) => u = t
  | _ => false

theorem eq_of_isListOf {t : Text} {v : Option Value} (h : isListOf t v) :
    v = some (.list [.text t]) := by
  unfold isListOf at h
  split at h
  · rw [of_decide_eq_true h]
  · cases h

/-- The rules file holds the script `a b` and says nothing of an exemption. -/
theorem load_sampleSurroundings :
    ∃ entries, MappingFile.load sampleSurroundings.files .rules ⟨[], [text "rules.yaml"]⟩ =
        .ok entries ∧ RuleSource.whitelistedIn entries = false ∧
      Value.lookup (text "snippets") entries = some (.list [.text (text "a b")]) := by
  have hany : (MappingFile.load sampleSurroundings.files .rules
      ⟨[], [text "rules.yaml"]⟩).toOption.any fun entries =>
        !RuleSource.whitelistedIn entries &&
          isListOf (text "a b") (Value.lookup (text "snippets") entries) := by decide +kernel
  obtain ⟨entries, hload, hp⟩ := exists_of_any hany
  obtain ⟨hopen, hitems⟩ := Bool.and_eq_true_iff.1 hp
  exact ⟨entries, hload, by simpa using hopen, eq_of_isListOf hitems⟩

theorem run_delivers_sampleSurroundings :
    ∃ (s : Session) (output input : Text),
      run sampleSurroundings ⟨[], [text "rules.yaml"]⟩ none (some (text "runner.js")) =
        { output, effects := s.journal.effects } ∧
      (∀ v, Json.Document v output ↔ v = told [[text "a", text "b"]] true []) ∧
      s.journal.effects = [.askWhitelist, .askSnippets, .askGate,
        .exec [text "node", text "<script>"] input 30] ∧
      (∀ v, Json.Document v input ↔ v = handed .isolated [[text "a", text "b"]]) ∧
      s.host.bench.scratch.files = [] := by
  have hany : (Config.load sampleSurroundings.files none
    sampleSurroundings.environmentUrl).toOption.any fun c => c.interpreter = [text "node"] ∧
      c.timeout = 30 ∧ c.world = .isolated := by decide +kernel
  obtain ⟨config, hconfig, hsettings⟩ := exists_of_any hany
  obtain ⟨hinterpreter, htimeout, hworld⟩ := of_decide_eq_true hsettings
  obtain ⟨entries, hrules, hopen, hitems⟩ := load_sampleSurroundings
  have hurl : chooseUrl (some (text "runner.js")) config.runnerUrl = some (text "runner.js") := rfl
  obtain ⟨source, s, r, filters, -, -, hrun, htold, hfilters, -, -, -, -, -, hscript⟩ :=
    run_delivers hconfig hrules hopen hitems hurl nofun nofun
  rw [show sampleSurroundings.scriptAt (text "runner.js") = .ok [0x31] by decide +kernel] at hscript
  obtain ⟨⟨input, heffects, -, hinput⟩, hinvoked, herrors, hfiles⟩ := hscript
  have hinvoked : r.invoked = true := hinvoked.2 ⟨0, [], rfl⟩
  have hcalls : filters = [[text "a", text "b"]] := by
    rw [hfilters]
    decide +kernel
  have hpaired : ScriptRunner.pairedFilters filters = [[text "a", text "b"]] := by
    rw [hcalls]
    decide +kernel
  rw [hpaired, hinvoked, herrors] at htold
  rw [hpaired, hworld] at hinput
  rw [hinterpreter, htimeout, show requests (text "runner.js") = [] by decide +kernel] at heffects
  exact ⟨s, _, input, hrun, htold, heffects, hinput, hfiles⟩

end Cli

end Snippets
