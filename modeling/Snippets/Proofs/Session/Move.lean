import Mathlib.Logic.Relation
import Mathlib.Tactic.SplitIfs
import Snippets.Session.Schedule

/-!
# What a block of work can do

Every block of a task is a sequence of moves, each of which changes one thing about the session:
it leaves a mark in the journal, changes a collaborator, tells of loaded rules, begins or stops to
listen, queues rules, shares in the loading of the external runner, learns how it ended, takes over
a compiled runner or resets the gateway. `Move` lists them, with the kind of task that can make
each; `Block` says of a block that it is made of such moves, and how it may end up waiting.

An invariant that every move keeps is kept by every block, so nothing after this module looks into
the blocks for what they leave alone.
-/

namespace Snippets

/-! ## Kinds of tasks, calls and phases -/

/-- What a block is about, and so what it may touch: the loading of the external runner, the cycle
of the snippet runner, its start, getting and closing the external runner, or none of these. -/
inductive Kind where
  | load
  | cycle
  | start
  | get
  | close
  | plain
  deriving DecidableEq

def Role.allows : Role → Kind → Bool
  | .load, k => k = .load
  | .cycle _, k => k = .cycle
  | .other, k => k ≠ .load ∧ k ≠ .cycle

theorem Role.ne_load_of_allows {r : Role} {k : Kind} (hr : r ≠ .load) (h : r.allows k) :
    k ≠ .load := by
  rintro rfl
  cases r <;> simp_all [allows]

theorem Role.ne_cycle_of_allows {r : Role} {k : Kind} (hr : ∀ scheduled, r ≠ .cycle scheduled)
    (h : r.allows k) : k ≠ .cycle := by
  rintro rfl
  cases r <;> simp_all [allows]

theorem Role.kind_of_allows {scheduled : Bool} {k : Kind} (h : (Role.cycle scheduled).allows k) :
    k = .cycle := by
  simpa [allows] using h

def Call.kind : Call → Kind
  | .load => .load
  | .cycle => .cycle
  | .start => .start
  | .get => .get
  | .close => .close
  | _ => .plain

def Phase.kind : Phase → Kind
  | .fetching | .reading _ => .load
  | .rules | .loading _ _ | .gate _ _ | .dispatched _ _ => .cycle
  | .eligibility | .firstCycle _ => .start
  | .getting _ => .get
  | .closing _ => .close
  | _ => .plain

theorem Call.isOpen_iff (c : Call) : c.isOpen ↔ Role.other.allows c.kind := by
  cases c <;> simp [isOpen, kind, Role.allows]

/-- The loading that a task in this phase waits for. -/
def Phase.load? : Phase → Option TaskId
  | .loading _ load | .getting load | .closing load => some load
  | _ => none

/-- Whether a task in this phase can wait in this way. -/
def Phase.isWait : Phase → Wait → Bool
  | .eligibility, w => w = .answer .whitelist
  | .firstCycle c, w => w = .own c
  | .rules, w => w = .answer .snippets
  | .gate _ _, w => w = .answer .gate
  | .fetching, w => w = .answer .fetch
  | .loading _ load, w | .getting load, w | .closing load, w => w = .shared load
  | .dispatched _ _, w | .invoked _, w | .reading _, w => w = .turn
  | .draining, .all _ => true
  | .draining, _ => false

theorem Phase.load?_of_isWait {p : Phase} {load : TaskId} (h : p.isWait (.shared load)) :
    p.load? = some load := by
  cases p <;> simp_all [isWait, load?]

theorem Phase.eq_firstCycle_of_isWait {p : Phase} {c : TaskId} (h : p.isWait (.own c)) :
    p = .firstCycle c := by
  cases p <;> simp_all [isWait]

/-- The questions that the snippet runner asks. -/
def Effect.isQuestion : Effect → Bool
  | .askWhitelist | .askSnippets | .askGate => true
  | _ => false

/-- Whether a task of a kind may have this effect: a start asks whether the page is exempt, and a
cycle asks for the rules and for the feature gate. -/
def Effect.isBy (k : Kind) : Effect → Bool
  | .askWhitelist => k = .start
  | .askSnippets | .askGate => k = .cycle
  | _ => true

theorem Effect.isBy_of_isQuestion {k : Kind} {e : Effect} (h : e.isQuestion = false) :
    e.isBy k := by
  cases e <;> simp_all [isQuestion, isBy]

/-- What a task of a kind may note in the journal without anything else changing. -/
def Happening.isMark (k : Kind) : Happening → Bool
  | .effect e => e.isBy k
  | .log _ => true
  | .loadingKnown _ | .gateKnown _ | .called _ _ | .batched _ => k = .cycle
  | .fetching _ | .compiling _ => k = .load
  | _ => false

/-- The changes of stage that a task of a kind may make: a start begins once, and may find the page
exempt; a cycle has queued, and then dispatches. -/
def Stage.leads (k : Kind) (old : Stage) : Stage → Bool
  | .created => false
  | .initializing => k = .start ∧ old = .created
  | .suppressed => k = .start
  | .gated | .ready => k = .cycle

/-- Numbers that were given out on a bench are not given out again. -/
structure Bench.Precedes (b b' : Bench) : Prop where
  made : b.made ≤ b'.made
  next : b.scratch.next ≤ b'.scratch.next

@[refl] theorem Bench.Precedes.refl (b : Bench) : b.Precedes b := ⟨Nat.le_refl _, Nat.le_refl _⟩

/-- A reload concerns the scripts only. -/
theorem RuleSource.whitelisted_reload {r r' : RuleSource} {files : Tree} {v : Value}
    (h : r.reload files v = .ok r') : r'.whitelisted = r.whitelisted := by
  unfold RuleSource.reload at h
  split at h
  · next path _ =>
    cases hload : MappingFile.load files .rules path with
    | error e =>
      rw [hload] at h
      cases h
    | ok entries =>
      rw [hload] at h
      cases h
      rfl
  · cases h
    rfl
  · cases h
    rfl

namespace Session

/-- The role of a task that exists. -/
def role? (s : Session) (t : TaskId) : Option Role := (s.tasks[t]?).map Task.role

/-! ## Moves -/

/-- One change to a session, made by a task of kind `k` or, without a task, by the surroundings. -/
inductive Move (k : Kind) (a : Option TaskId) : Session → Session → Prop where
  | mark (s : Session) (what : Happening) (h : what.isMark k) : Move k a s (s.record a what)
  /-- no task has a say in whether the page is exempt -/
  | host (s : Session) (h : Host) (le : s.host.bench.Precedes h.bench)
      (answer : a = none ∨ h.whitelisted = s.host.whitelisted) : Move k a s (s.withHost h)
  | notify (s : Session) : Move k a s s.notify.1
  | stop (s : Session) : Move k a s s.stop
  | stage (s : Session) (x : Stage) (h : s.stage.leads k x) : Move k a s (s.withStage x)
  /-- a start schedules the first cycle and listens from then on -/
  | listen (s : Session) (hk : k = .start) : Move k a s s.firstCycle.1
  /-- a start has the external runner loaded -/
  | want (s : Session) : Move k a s (s.spawn .other [⟨.get, false⟩]).1
  | join (s : Session) (t : TaskId) (cs : List TaskId) :
      Move k a s (s.enqueueAll (cs.map (.joined t)))
  | queue (s : Session) (rules : List Value) (hk : k = .cycle) :
      Move k a s ({ s with queue := s.queue ++ Script.parseAll rules }.record a (.queued rules))
  | attach (s : Session) (t : TaskId) (ha : a = some t) (hk : k = .cycle ∨ k = .get) :
      Move k a s (s.attach t).1
  | receive (s : Session) (t load : TaskId) (ha : a = some t) (hk : k = .cycle ∨ k = .get)
      (h : s.hasEnded load) : Move k a s (s.receive t load).1
  | compiled (s : Session) (r : CompiledRunner) (hk : k = .load) :
      Move k a s ({ s with runner := some r }.record a (.compiled r))
  | reset (s : Session) (hk : k = .close) : Move k a s (s.reset a).1

/-- Any number of moves. -/
abbrev Moves (k : Kind) (a : Option TaskId) : Session → Session → Prop :=
  Relation.ReflTransGen (Move k a)

/-- What every change of the event and every cycle that is scheduled keep, a notification keeps. -/
theorem notify_keeps {P : Session → Prop} {s : Session} (h : P s)
    (hevent : ∀ s e, P s → P (s.withEvent e)) (hschedule : ∀ s, P s → P s.schedule.1) :
    P s.notify.1 := by
  have htimes : ∀ n s, P s → P (scheduleTimes n s) := by
    intro n
    induction n with
    | zero => exact fun _ hs => hs
    | succ n ih => exact fun s hs => ih _ (hschedule s hs)
  exact htimes _ _ (hevent s _ h)

theorem Moves.keep {k : Kind} {a : Option TaskId} {P : Session → Prop} {s s' : Session}
    (h : Moves k a s s') (step : ∀ s s', Move k a s s' → P s → P s') (hs : P s) : P s' := by
  induction h with
  | refl => exact hs
  | tail _ m ih => exact step _ _ m ih

section Moves

variable {k : Kind} {a : Option TaskId} {s : Session}

theorem moves_record (what : Happening) (h : what.isMark k) : Moves k a s (s.record a what) :=
  .single (.mark s what h)

theorem moves_effect {e : Effect} (h : e.isQuestion = false) : Moves k a s (s.effect a e) :=
  moves_record (.effect e) (Effect.isBy_of_isQuestion h)

theorem moves_effectIf (c : Bool) {e : Effect} (h : e.isQuestion = false) :
    Moves k a s (if c then s.effect a e else s) := by
  split
  · exact moves_effect h
  · exact .refl

theorem moves_note (l : Log) : Moves k a s (s.note a l) := moves_record (.log l) rfl

theorem moves_recordAll (whats : List Happening) (h : ∀ w ∈ whats, w.isMark k) :
    Moves k a s (s.recordAll a whats) := by
  induction whats generalizing s with
  | nil => exact .refl
  | cons w whats ih =>
    exact (moves_record w (h w (by simp))).trans (ih fun w hw => h w (by simp [hw]))

theorem isMark_effects_logs {effects : List Effect} (h : ∀ e ∈ effects, e.isQuestion = false)
    (logs : List Log) :
    ∀ w ∈ effects.map Happening.effect ++ logs.map Happening.log, w.isMark k := by
  intro w hw
  simp only [List.mem_append, List.mem_map] at hw
  rcases hw with ⟨e, he, rfl⟩ | ⟨l, _, rfl⟩
  · exact Effect.isBy_of_isQuestion (h e he)
  · rfl

theorem moves_worked {α : Type} (w : Worked α) (h : s.host.bench.Precedes w.bench)
    (he : ∀ e ∈ w.effects, e.isQuestion = false) : Moves k a s (s.worked a w).1 :=
  (Relation.ReflTransGen.single (.host s { s.host with bench := w.bench } h (.inr rfl))).trans
    (moves_recordAll _ (isMark_effects_logs he _))

/-- A page asks for nodes only. -/
theorem isQuestion_deeds (deeds : List Deed) :
    ∀ e ∈ deeds.filterMap Deed.effect?, e.isQuestion = false := by
  intro e he
  obtain ⟨d, -, hd⟩ := List.mem_filterMap.1 he
  cases d with
  | ask i q => cases q <;> cases hd <;> rfl
  | observe | skip =>
    cases hd
    rfl
  | observed | notified | found | skipped => cases hd

theorem moves_onPage {α : Type} (r : Page × α) : Moves k a s (s.onPage a r).1 :=
  (Relation.ReflTransGen.single (.host s { s.host with page := r.1.flush.1 } (.refl _)
    (.inr rfl))).trans
    (moves_recordAll _ (isMark_effects_logs (isQuestion_deeds _) _))

theorem moves_notify : Moves k a s s.notify.1 := .single (.notify s)

theorem moves_stop : Moves k a s s.stop := .single (.stop s)

theorem moves_reloadSource {b : Option TaskId} {v : Value} {r : Session × Option Fault}
    (h : s.reloadSource b v = .ok r) (hb : b = a) : Moves k a s r.1 := by
  subst hb
  unfold reloadSource at h
  split at h
  · cases h
  · next source hs =>
    cases h
    have hanswer : ({ s.host with source } : Host).whitelisted = s.host.whitelisted := by
      unfold Host.whitelisted
      rw [RuleSource.whitelisted_reload hs]
    exact ((Relation.ReflTransGen.single (.host s { s.host with source } (.refl _)
      (.inr hanswer))).trans (moves_note _)).trans moves_notify

end Moves

/-! ## The bench -/

theorem next_le_compile (settings : ScriptSettings) (source : Text) (scratch : Scratch) :
    scratch.next ≤ (settings.compile source scratch).1.next := by
  unfold ScriptSettings.compile
  split_ifs
  · exact Nat.le_refl _
  · dsimp only [Scratch.create]
    split <;> exact Nat.le_succ _

theorem precedes_compile (c : Compiler) (source : Text) (b : Bench) :
    b.Precedes (c.compile source b).bench := by
  unfold Compiler.compile
  split
  · next settings =>
    split
    · exact .refl b
    · have h := next_le_compile settings source b.scratch
      split <;> next e => rw [e] at h; exact ⟨Nat.le_refl _, h⟩
  · split
    · exact .refl b
    · exact ⟨Nat.le_succ _, Nat.le_refl _⟩

theorem precedes_run (r : CompiledRunner) (world : World) (filters : List (List Text)) (b : Bench) :
    b.Precedes (r.run world filters b).bench := by
  cases r <;> exact ⟨Nat.le_refl _, Nat.le_refl _⟩

theorem precedes_close (r : CompiledRunner) (b : Bench) : b.Precedes (r.close b).bench := by
  unfold CompiledRunner.close
  split
  · exact ⟨Nat.le_refl _, Nat.le_refl _⟩
  · split <;> exact .refl b

theorem isQuestion_compile (c : Compiler) (source : Text) (b : Bench) :
    ∀ e ∈ (c.compile source b).effects, e.isQuestion = false := by
  unfold Compiler.compile
  split
  · split
    · simp
    · split <;> simp
  · split <;> simp [Effect.isQuestion]

theorem isQuestion_run (r : CompiledRunner) (world : World) (filters : List (List Text))
    (b : Bench) : ∀ e ∈ (r.run world filters b).effects, e.isQuestion = false := by
  cases r <;> simp [CompiledRunner.run, ScriptRunner.run, ScriptRunner.effect, Effect.isQuestion]

theorem isQuestion_close (r : CompiledRunner) (b : Bench) :
    ∀ e ∈ (r.close b).effects, e.isQuestion = false := by
  unfold CompiledRunner.close
  split
  · simp
  · split <;> simp [Effect.isQuestion]

/-! ## Blocks -/

/-- How a block leaves its task waiting: in a way that suits its phase, for a loading only if that
is the current one and has not ended, and for all tasks only if these are the pending cycles. -/
structure Awaits (s : Session) (p : Phase) (w : Wait) : Prop where
  isWait : p.isWait w
  load : ∀ load, p.load? = some load → s.loading = some load ∧ s.hasEnded load = false
  cycle : ∀ c, p = .firstCycle c → s.role? c = some (.cycle true)
  all : ∀ cs, w = .all cs → cs = s.pending

/-- A block of a call of kind `k`: moves, after which the call has ended or waits. -/
structure Block (k : Kind) (t : TaskId) (s : Session) (r : Session × Progress) : Prop where
  moves : Moves k (some t) s r.1
  waits : ∀ p w, r.2 = .waits p w → p.kind = k ∧ r.1.Awaits p w

section Block

variable {k : Kind} {t : TaskId} {s s' : Session}

theorem Block.after {r : Session × Progress} (h : Block k t s' r) (m : Moves k (some t) s s') :
    Block k t s r := ⟨m.trans h.moves, h.waits⟩

theorem block_ends (m : Moves k (some t) s s') (o : Outcome) : Block k t s (s', .ends o) :=
  ⟨m, by rintro p w ⟨⟩⟩

theorem block_waits (m : Moves k (some t) s s') {p : Phase} {w : Wait} (hk : p.kind = k)
    (h : s'.Awaits p w) : Block k t s (s', .waits p w) :=
  ⟨m, by rintro p w ⟨⟩; exact ⟨hk, h⟩⟩

/-- A wait for an answer or for the task's turn. -/
theorem awaits_simple {p : Phase} {w : Wait} (hw : p.isWait w) (hl : p.load? = none)
    (hc : ∀ c, p ≠ .firstCycle c) (ha : ∀ cs, w ≠ .all cs) : s.Awaits p w :=
  ⟨hw, by simp [hl], fun c h => absurd h (hc c), fun cs h => absurd h (ha cs)⟩

/-- A wait for the loading. -/
theorem awaits_load {p : Phase} {load : TaskId} (hp : p.isWait (.shared load))
    (hl : p.load? = some load) (hc : ∀ c, p ≠ .firstCycle c) (h : s.loading = some load)
    (he : s.hasEnded load = false) : s.Awaits p (.shared load) :=
  ⟨hp, fun l h' => by rw [hl] at h'; cases h'; exact ⟨h, he⟩, fun c h => absurd h (hc c), by simp⟩

/-! ### The gateway -/

@[simp] theorem attach_loading (s : Session) (t : TaskId) :
    (s.attach t).1.loading = some (s.attach t).2 := by
  unfold attach ensureLoading
  cases h : s.loading <;> simp [record, h]

theorem block_takeRunner {load : TaskId} (h : s.hasEnded load) :
    Block .get t s (s.takeRunner t load) :=
  block_ends (.single (.receive s t load rfl (.inr rfl) h)) _

theorem block_get : Block .get t s (s.get t) := by
  have m : Moves .get (some t) s (s.attach t).1 := .single (.attach s t rfl (.inr rfl))
  have hl := attach_loading s t
  unfold get
  generalize s.attach t = a at m hl ⊢
  obtain ⟨s', load⟩ := a
  dsimp only at m hl ⊢
  split_ifs with he
  · exact (block_takeRunner he).after m
  · exact block_waits m rfl
      (awaits_load (by simp [Phase.isWait]) rfl (by simp) hl (by simpa using he))

theorem block_compileSource (source : Text) : Block .load t s (s.compileSource t source) := by
  have m : Moves .load (some t) s (s.record (some t) (.compiling source)) := moves_record _ rfl
  unfold compileSource
  refine Block.after ?_ m
  generalize s.record (some t) (.compiling source) = s
  have m := moves_worked (k := .load) (a := some t) (s := s)
    (s.host.compiler.compile source s.host.bench) (precedes_compile _ _ _)
    (isQuestion_compile _ _ _)
  dsimp only
  generalize s.worked (some t) (s.host.compiler.compile source s.host.bench) = w at m ⊢
  obtain ⟨s', e | r⟩ := w
  · cases e <;> exact block_ends m _
  · exact block_ends ((m.trans (.single (.compiled s' r rfl))).trans (moves_note _)) _

theorem block_takeReply : Block .load t s (s.takeReply t) := by
  unfold takeReply
  dsimp only
  refine Block.after ?_ (.single (.host s { s.host with replies := s.host.replies.next } (.refl _)
    (.inr rfl)))
  generalize s.withHost { s.host with replies := s.host.replies.next } = s'
  split
  · exact (block_compileSource _).after (moves_effectIf _ rfl)
  · exact block_ends (moves_effectIf _ rfl) _

theorem block_takeFile (source : Except Tree.ReadError Text) :
    Block .load t s (s.takeFile t source) := by
  cases source with
  | ok source => exact block_compileSource source
  | error e => exact block_ends .refl _

theorem block_load : Block .load t s (s.load t) := by
  unfold load
  dsimp only
  refine Block.after ?_ (moves_record (.fetching s.setup.url) rfl)
  generalize s.record (some t) (.fetching s.setup.url) = s
  split
  · exact block_ends .refl _
  · split
    · have m := moves_effectIf (k := .load) (a := some t) (s := s) s.setup.ownClient
        (e := .openClient) rfl
      refine Block.after ?_ m
      generalize (if s.setup.ownClient then s.effect (some t) .openClient else s) = s'
      split
      · exact block_waits (moves_effect rfl) rfl (awaits_simple rfl rfl nofun nofun)
      · exact block_takeReply.after (moves_effect rfl)
    · exact block_waits .refl rfl (awaits_simple rfl rfl nofun nofun)

theorem moves_invoke {world : World} {filters : List (List Text)} {o : Option Failure}
    (h : s.invoke t world filters = .ok (s', o)) : Moves k (some t) s s' := by
  unfold invoke at h
  split at h
  · cases h
  · next r _ =>
    cases h
    exact (moves_note _).trans (moves_worked _ (precedes_run r _ _ _)
      (isQuestion_run r _ _ _))

theorem block_resetNow : Block .close t s (s.resetNow t) := by
  have m : Moves .close (some t) s (s.reset (some t)).1 := .single (.reset s rfl)
  unfold resetNow
  generalize s.reset (some t) = r at m ⊢
  obtain ⟨s', _ | f⟩ := r <;> exact block_ends m _

theorem block_close : Block .close t s (s.close t) := by
  unfold close
  split
  · next load h =>
    split_ifs with he
    · exact block_resetNow
    · exact block_waits .refl rfl
        (awaits_load (by simp [Phase.isWait]) rfl (by simp) h (by simpa using he))
  · exact block_resetNow

theorem block_closeAfter (load : TaskId) : Block .close t s (s.closeAfter t load) := by
  unfold closeAfter
  split
  · split_ifs
    · exact block_resetNow
    · exact block_ends .refl _
  · exact block_resetNow

/-! ### Cycles -/

theorem moves_runScripted {a : Option TaskId} (number emissions : Nat) (stops : Bool)
    (fault : Option Fault) : Moves k a s (s.runScripted number emissions stops fault).1 := by
  unfold runScripted
  have stop : ∀ s : Session, Moves k a s (if stops then s.stop else s) := by
    intro s
    split
    · exact moves_stop
    · exact .refl
  cases emissions with
  | zero => exact stop s
  | succ n =>
    have m := (Relation.ReflTransGen.single (.host s { s.host with
      handlers := s.host.handlers.set number (.scripted n stops fault) } (.refl _)
      (.inr rfl))).trans (moves_notify (k := k) (a := a))
    dsimp only
    generalize (s.withHost { s.host with
      handlers := s.host.handlers.set number (.scripted n stops fault) }).notify = r at m ⊢
    obtain ⟨s', _ | f⟩ := r
    · exact m.trans (stop s')
    · exact m

theorem moves_runReloading (number : Nat) (collections : List Value) :
    Moves k (some t) s (s.runReloading t number collections).1 := by
  unfold runReloading
  split
  · exact .refl
  · next v rest =>
    have m : Moves k (some t) s (s.withHost { s.host with
      handlers := s.host.handlers.set number (.reloading rest) }) :=
      .single (.host s _ (.refl _) (.inr rfl))
    dsimp only
    split
    · exact m
    · next h => exact m.trans (moves_reloadSource h rfl)

/-- What follows when a handler is called. -/
theorem moves_callHandler (number : Nat) (snippet : Snippet Text) :
    Moves k (some t) (s.record (some t) (.called number snippet))
      (s.callHandler t number snippet).1 := by
  unfold callHandler
  dsimp only
  generalize s.record (some t) (.called number snippet) = s'
  split
  · exact .refl
  · exact (moves_effect rfl).trans (moves_runScripted _ _ _ _)
  · exact (moves_effect rfl).trans (moves_runReloading _ _)
  · exact moves_onPage _

theorem moves_runLocals (errors : List Text) (snippets : List (Snippet Text)) :
    Moves .cycle (some t) s (s.runLocals t errors snippets).1 := by
  induction snippets generalizing s errors with
  | nil => exact .refl
  | cons snippet rest ih =>
    unfold runLocals
    split
    · exact ih errors
    · exact ih errors
    · next number _ =>
      have m : Moves .cycle (some t) s (s.callHandler t number snippet).1 :=
        (moves_record (.called number snippet) rfl).trans (moves_callHandler number snippet)
      generalize s.callHandler t number snippet = r at m ⊢
      obtain ⟨s', _ | ⟨f, message⟩⟩ := r
      · exact m.trans (ih errors)
      · dsimp only
        split
        · exact (m.trans (moves_note _)).trans (ih _)
        · exact m

theorem block_reportBatch (r : Report) (failure : Option Failure) :
    Block .cycle t s (s.reportBatch t r failure) := by
  cases failure with
  | none => exact block_ends .refl _
  | some f =>
    unfold reportBatch
    dsimp only
    split
    · exact block_ends (moves_note _) _
    · exact block_ends .refl _

theorem block_runBatch (r : Report) : Block .cycle t s (s.runBatch t r) := by
  have m : Moves .cycle (some t) s
      (s.record (some t) (.batched (r.externals.map Snippet.toFilter))) := moves_record _ rfl
  unfold runBatch
  dsimp only
  generalize s.record (some t) (.batched (r.externals.map Snippet.toFilter)) = s' at m ⊢
  split
  · exact (block_reportBatch r _).after m
  · next h => exact block_waits (m.trans (moves_invoke h)) rfl (awaits_simple rfl rfl nofun nofun)

theorem block_dispatch (parsed : Nat) (loadingError : Option Text) :
    Block .cycle t s (s.dispatch t parsed loadingError) := by
  unfold dispatch
  dsimp only
  refine Block.after ?_ (.single (.stage s .ready rfl))
  generalize s.withStage .ready = s
  have m := moves_runLocals (t := t) (s := s) [] s.partition.locals
  generalize s.runLocals t [] s.partition.locals = r at m ⊢
  obtain ⟨s', f | errors⟩ := r
  · exact block_ends m _
  · cases loadingError with
    | some e => exact block_ends m _
    | none => exact (block_runBatch _).after m

theorem block_skipDispatch (parsed : Nat) : Block .cycle t s (s.skipDispatch t parsed) :=
  block_ends ((moves_record (.gateKnown false) rfl).trans (moves_note _)) _

theorem block_takeGate (parsed : Nat) (loadingError : Option Text) :
    Block .cycle t s (s.takeGate t parsed loadingError) := by
  unfold takeGate
  split
  · split
    · exact (block_dispatch _ _).after (moves_record (.gateKnown true) rfl)
    · exact block_skipDispatch parsed
  · split
    · exact (block_skipDispatch parsed).after (moves_note _)
    · exact block_ends .refl _

theorem block_askGate (parsed : Nat) (loadingError : Option Text) :
    Block .cycle t s (s.askGate t parsed loadingError) := by
  unfold askGate
  dsimp only
  refine Block.after ?_ ((moves_record (.loadingKnown loadingError) rfl).trans
    (moves_record (.effect .askGate) rfl))
  split
  · exact block_waits .refl rfl (awaits_simple rfl rfl nofun nofun)
  · exact block_takeGate _ _

theorem block_takeLoading (parsed : Nat) {load : TaskId} (h : s.hasEnded load) :
    Block .cycle t s (s.takeLoading t parsed load) := by
  have m : Moves .cycle (some t) s (s.receive t load).1 :=
    .single (.receive s t load rfl (.inl rfl) h)
  unfold takeLoading
  generalize s.receive t load = r at m ⊢
  obtain ⟨s', f | _⟩ := r
  · dsimp only
    split
    · exact (block_askGate _ _).after m
    · exact block_ends m _
  · exact (block_askGate _ _).after m

theorem moves_queueRules (rules : List Value) :
    Moves .cycle (some t) s (s.queueRules t rules) := by
  unfold queueRules
  extract_lets notes s'
  have m : Moves .cycle (some t) s s' := moves_recordAll _ (by simp [Happening.isMark])
  exact (m.trans (.single (.stage s' .gated rfl))).trans (.single (.queue _ rules rfl))

/-- What follows when the rules are known: they are queued, and the loading is shared. -/
theorem block_queueRules (rules : List Value) :
    Block .cycle t (s.queueRules t rules)
      (if ((s.queueRules t rules).attach t).1.hasEnded ((s.queueRules t rules).attach t).2 then
        ((s.queueRules t rules).attach t).1.takeLoading t (Script.parseAll rules).length
          ((s.queueRules t rules).attach t).2
      else (((s.queueRules t rules).attach t).1, .waits (.loading (Script.parseAll rules).length
        ((s.queueRules t rules).attach t).2) (.shared ((s.queueRules t rules).attach t).2))) := by
  generalize s.queueRules t rules = s'
  have ma : Moves .cycle (some t) s' (s'.attach t).1 := .single (.attach s' t rfl (.inl rfl))
  have hl := attach_loading s' t
  generalize s'.attach t = r at ma hl ⊢
  obtain ⟨s'', load⟩ := r
  dsimp only at ma hl ⊢
  split_ifs with he
  · exact (block_takeLoading _ he).after ma
  · exact block_waits ma rfl
      (awaits_load (by simp [Phase.isWait]) rfl nofun hl (by simpa using he))

theorem block_takeRules : Block .cycle t s (s.takeRules t) := by
  unfold takeRules
  split
  · split
    · exact block_ends (moves_note _) _
    · exact block_ends .refl _
  · split
    · exact block_ends (moves_note _) _
    · next rules _ => exact (block_queueRules rules).after (moves_queueRules rules)

theorem moves_queued {v : Value} {rules : List Value} (hv : s.host.snippets = .ok v)
    (hrules : v.items? = some rules) :
    Moves .cycle (some t) (s.queueRules t rules) (s.takeRules t).1 := by
  have m := (block_queueRules (t := t) (s := s) rules).moves
  unfold takeRules
  simp only [hv, hrules]
  exact m

theorem block_cycle : Block .cycle t s (s.cycle t) := by
  unfold cycle
  split_ifs
  · exact block_ends .refl _
  · dsimp only
    refine Block.after ?_ (moves_record (.effect .askSnippets) rfl)
    split
    · exact block_waits .refl rfl (awaits_simple rfl rfl nofun nofun)
    · exact block_takeRules

/-! ### Starting and draining -/

theorem block_suppress : Block .start t s (s.suppress t) :=
  block_ends ((moves_note _).trans (.single (.stage _ .suppressed rfl))) _

@[simp] theorem schedule_role? (s : Session) :
    s.schedule.1.role? s.schedule.2 = some (.cycle true) := by
  simp [schedule, spawn, role?, record, enqueue]

theorem block_firstCycle : Block .start t s s.firstCycle := by
  refine block_waits (.single (.listen s rfl)) rfl ⟨by simp [Phase.isWait], nofun, ?_, nofun⟩
  rintro c ⟨⟩
  exact schedule_role? s

theorem block_takeEligibility : Block .start t s (s.takeEligibility t) := by
  unfold takeEligibility
  split
  · split
    · exact block_suppress
    · exact block_firstCycle
  · split
    · exact block_suppress.after (moves_note _)
    · exact block_ends .refl _

theorem block_start : Block .start t s (s.start t) := by
  unfold start
  split_ifs with hs
  · have hlead : s.stage.leads .start .initializing := by simp [Stage.leads, hs]
    dsimp only
    refine Block.after ?_ (((Relation.ReflTransGen.single (.stage s .initializing hlead)).trans
      (.single (.want _))).trans (moves_record (.effect .askWhitelist) rfl))
    split
    · exact block_waits .refl rfl (awaits_simple rfl rfl nofun nofun)
    · exact block_takeEligibility
  · exact block_ends .refl _

theorem block_drain : Block .plain t s (s.drain t) := by
  unfold drain
  split_ifs
  · exact block_ends .refl _
  · exact block_waits (.single (.join s t _)) rfl
      ⟨rfl, nofun, nofun, by rintro cs ⟨⟩; rfl⟩

/-! ### Calls -/

theorem block_beginCall (c : Call) : Block c.kind t s (s.beginCall t c) := by
  cases c with
  | start => exact block_start
  | cycle => exact block_cycle
  | drain => exact block_drain
  | get => exact block_get
  | load => exact block_load
  | close => exact block_close
  | stop => exact block_ends moves_stop _
  | fail f => exact block_ends .refl _
  | invoke world filters =>
    unfold beginCall
    dsimp only
    split
    · exact block_ends .refl _
    · next h => exact block_waits (moves_invoke h) rfl (awaits_simple rfl rfl nofun nofun)

/-- A call goes on after its wait is over. -/
theorem block_continueCall (p : Phase) (h : ∀ load, p.load? = some load → s.hasEnded load) :
    Block p.kind t s (s.continueCall t p) := by
  cases p with
  | eligibility => exact block_takeEligibility
  | firstCycle c => exact block_ends .refl _
  | rules => exact block_takeRules
  | loading parsed load => exact block_takeLoading parsed (h load rfl)
  | gate parsed e => exact block_takeGate parsed e
  | dispatched r failure => exact block_reportBatch r failure
  | draining => exact block_drain
  | getting load => exact block_takeRunner (h load rfl)
  | invoked failure => cases failure <;> exact block_ends .refl _
  | closing load => exact block_closeAfter load
  | fetching => exact block_takeReply
  | reading source => exact block_takeFile source

theorem block_abandonCall (p : Phase) : Block p.kind t s (s.abandonCall t p) := by
  cases p
  case fetching => exact block_ends (moves_effectIf _ rfl) _
  all_goals exact block_ends .refl _

end Block

end Session

end Snippets
