import Snippets.Proofs.Session.Sharing

/-!
# Suppression

A start that finds the page exempt suppresses the runner. A cycle looks at the stage once, when it
begins: one that begins later ends at once and reports that the runner is suppressed, but one that
waits for its rules, for the external runner or for the feature gate at that moment goes on as if
nothing had happened, and takes the runner out of its suppression (`not_suppressed_forever`).

If there is none of these, the runner stays suppressed for good (`suppressed_forever`): whatever the
order of the jobs and whatever the surroundings do, it asks for no rules, queues nothing, calls no
handler and hands no batch to the gateway, and every later cycle reports the suppression. `Still`
says what every block keeps that is not a block of a cycle, and `Hushed` what is known of every task
since the suppression.
-/

namespace Snippets

/-- What only a cycle does: it asks for rules, queues, calls a handler or hands over a batch. -/
def Happening.isWork : Happening → Bool
  | .effect e => e = .askSnippets
  | .queued _ | .called _ _ | .batched _ => true
  | _ => false

/-- A cycle that has begun and has yet to dispatch. -/
def Phase.isUnderWay : Phase → Bool
  | .rules | .loading _ _ | .gate _ _ => true
  | _ => false

theorem Phase.kind_of_isUnderWay {p : Phase} (h : p.isUnderWay) : p.kind = .cycle := by
  cases p <;> simp_all [isUnderWay, kind]

/-- Only a cycle leads away from a suppression. -/
theorem Stage.eq_suppressed_of_leads {k : Kind} {x : Stage} (hk : k ≠ .cycle)
    (h : Stage.suppressed.leads k x) : x = .suppressed := by
  cases x <;> simp_all [leads]

namespace Session

/-- Whether no cycle is under way. -/
def isIdle (s : Session) : Bool :=
  s.tasks.all fun task => task.outcome.isSome || !task.phase.any Phase.isUnderWay

/-- Whether a task has done its first block. -/
def hasBegun (s : Session) (t : TaskId) : Bool :=
  (s.tasks[t]?).any fun task => task.phase.isSome || task.outcome.isSome

/-! ## Blocks that are none of a cycle -/

/-- From `s` to `s'` nothing was done that is the work of a cycle, and a suppression was not
ended. -/
structure Still (s s' : Session) : Prop where
  stage : s.stage = .suppressed → s'.stage = .suppressed
  queue : s'.queue = s.queue
  growth : Extends (fun e => e.what.isWork = false) s s'

section Still

variable {s s' s'' : Session} {k : Kind} {a : Option TaskId} {t : TaskId}

theorem Still.refl (s : Session) : Still s s := ⟨id, rfl, .refl s⟩

theorem Still.trans (h : Still s s') (h' : Still s' s'') : Still s s'' :=
  ⟨fun hs => h'.stage (h.stage hs), h'.queue.trans h.queue, h.growth.trans h'.growth⟩

theorem still_of_eq (hs : s'.stage = s.stage) (hq : s'.queue = s.queue)
    (hx : Extends (fun e => e.what.isWork = false) s s') : Still s s' :=
  ⟨fun h => hs.trans h, hq, hx⟩

theorem not_isWork_of_isOf {w : Happening} (hk : k ≠ .cycle) (h : w.isOf k) :
    w.isWork = false := by
  cases w with
  | effect e => cases e <;> simp_all [Happening.isOf, Happening.isWork, Effect.isBy]
  | _ => simp_all [Happening.isOf, Happening.isWork]

theorem Move.still (m : Move k a s s') (hk : k ≠ .cycle) : Still s s' := by
  have hx : Extends (fun e => e.what.isWork = false) s s' :=
    m.extends.mono fun e he => not_isWork_of_isOf hk he.isOf
  cases m with
  | stage x h =>
    refine ⟨fun hs => ?_, rfl, hx⟩
    rw [hs] at h
    exact Stage.eq_suppressed_of_leads hk h
  | queue rules hc => exact absurd hc hk
  | attach t ha hc =>
    have hfields : s.ensureLoading.1.stage = s.stage ∧ s.ensureLoading.1.queue = s.queue := by
      unfold ensureLoading
      split <;> exact ⟨rfl, rfl⟩
    exact still_of_eq hfields.1 hfields.2 hx
  | reset hc =>
    obtain ⟨-, -, -, -, hqueue, hstage, -⟩ := reset_fields s a
    exact still_of_eq hstage hqueue hx
  | notify =>
    have hfields : s.notify.1.stage = s.stage ∧ s.notify.1.queue = s.queue :=
      notify_keeps (P := fun s' => s'.stage = s.stage ∧ s'.queue = s.queue) ⟨rfl, rfl⟩
        (fun _ _ h => h) fun _ h => h
    exact still_of_eq hfields.1 hfields.2 hx
  | mark | host | stop | listen | want | join | receive | compiled =>
    exact still_of_eq rfl rfl hx

theorem Moves.still (m : Moves k a s s') (hk : k ≠ .cycle) : Still s s' := by
  induction m with
  | refl => exact .refl s
  | tail _ m ih => exact ih.trans (m.still hk)

theorem Aside.still (m : Aside s s') : Still s s' := by
  cases m with
  | move m => exact m.still (by decide)
  | spawn | turns => exact still_of_eq rfl rfl (.of_eq rfl rfl)
  | tell | note => exact still_of_eq rfl rfl (.of_concat rfl rfl rfl)

theorem still_suspend (p : Phase) (w : Wait) (due : List Due) (verdict : Verdict) :
    Still s (s.suspend t p w due verdict) := by
  obtain ⟨ready, he⟩ := suspend_eq s t p w due verdict
  refine still_of_eq ?_ ?_ (extends_suspend.mono fun _ => False.elim) <;> rw [he] <;> rfl

theorem still_finish (o : Outcome) : Still s (s.finish t o) := by
  refine still_of_eq ?_ ?_ (extends_finish.mono ?_)
  · rw [finish_eq]
    rfl
  · rw [finish_eq]
    rfl
  · rintro e ⟨x, rfl⟩
    rfl

end Still

/-! ## Turns -/

section Turn

variable {s : Session} {t : TaskId} {task : Task} {scheduled : Bool}

theorem Turn.still_other (turn : Turn s t task) (hr : ∀ scheduled, task.role ≠ .cycle scheduled) :
    Still s (s.resume t) := by
  refine resume_of_moves (P := Still s) turn (still_of_eq rfl rfl (.of_eq rfl rfl)) ?_ ?_ ?_
  · exact fun k s₁ s₂ hk m _ h => h.trans (m.still (Role.ne_cycle_of_allows hr hk))
  · exact fun s₁ p w due verdict _ h => h.trans (still_suspend p w due verdict)
  · exact fun s₁ o _ h => h.trans (still_finish o)

theorem cycle_of_suppressed (hs : s.stage = .suppressed) :
    s.cycle t = (s, .ends (.ok (.report { status := .suppressed, queued := s.queue.length }))) := by
  rw [cycle, if_pos hs]
  rfl

theorem moves_reportBatch (r : Report) (failure : Option Failure) :
    ∃ o, (s.reportBatch t r failure).2 = .ends o ∧
      Moves .plain (some t) s (s.reportBatch t r failure).1 := by
  cases failure with
  | none => exact ⟨_, rfl, .refl⟩
  | some f =>
    unfold reportBatch
    dsimp only
    split
    · exact ⟨_, rfl, moves_note _⟩
    · exact ⟨_, rfl, .refl⟩

/-- In a suppressed session the turn of a cycle that is not under way ends it without any work. If
it had not begun, it reports the suppression or gives up as it was told. -/
theorem Turn.cycle_ends (turn : Turn s t task) (hr : task.role = .cycle scheduled)
    (hs : s.stage = .suppressed) (hp : ∀ p, task.phase = some p → p.isUnderWay = false) :
    ∃ s₁ o, s.resume t = s₁.finish t o ∧ Moves .plain (some t) (s.heed t) s₁ ∧
      s₁.tasks[t]? = some { task with cancelRequested := false } ∧
      (task.phase = none → o = if task.cancelRequested then .error .cancelled
        else .ok (.report { status := .suppressed, queued := s.queue.length })) := by
  have hkind : ∀ p, task.phase = some p → p.kind = .cycle :=
    fun p hp => Role.kind_of_allows (hr ▸ turn.fits.phase p hp)
  have hblock : Block .cycle t (s.heed t) ((s.heed t).blockOf t task .cycle) :=
    block_blockOf (c := .cycle) hkind fun p load => turn.loaded_heed
  have htask := hblock.moves.task (task_heed turn.known)
  rw [resume_single turn (c := .cycle) (by rw [hr]; rfl)]
  cases hc : task.cancelRequested with
  | true =>
    rw [blockOf_cancelled hc hkind] at htask ⊢
    exact ⟨_, _, rfl, .refl, htask, fun _ => by simp⟩
  | false =>
    obtain hphase | ⟨p, hphase⟩ := Option.eq_none_or_eq_some task.phase
    · have he : (s.heed t).blockOf t task .cycle = (s.heed t).cycle t := by
        simp [blockOf, hphase, hc, beginCall]
      rw [he, cycle_of_suppressed (s := s.heed t) hs] at htask ⊢
      exact ⟨_, _, rfl, .refl, htask, fun _ => by simp [heed, modifyTask]⟩
    · have hway := hp p hphase
      have hcycle := hkind p hphase
      cases p with
      | dispatched r failure =>
        have he : (s.heed t).blockOf t task .cycle = (s.heed t).reportBatch t r failure := by
          simp [blockOf, hphase, hc, continueCall]
        rw [he] at htask ⊢
        obtain ⟨o, ho, hmoves⟩ := moves_reportBatch (s := s.heed t) (t := t) r failure
        rw [ho]
        exact ⟨_, o, rfl, hmoves, htask, fun hn => by simp [hphase] at hn⟩
      | rules | loading | gate => cases hway
      | _ => cases hcycle

end Turn

/-! ## Since the suppression -/

/-- How a cycle ends that begins while the runner is suppressed: it reports that, unless it was
told to give up before it began. -/
def Dismissed (s : Session) (t : TaskId) (queued : Nat) (o : Outcome) : Prop :=
  o = .ok (.report { status := .suppressed, queued }) ∨
    o = .error .cancelled ∧ ⟨some t, .cancelled⟩ ∈ s.journal

/-- What is known of a task since `s₀`: it is no cycle under way, and a cycle that had not begun
then has not begun or was dismissed. -/
structure Inert (s₀ s : Session) (t : TaskId) (task : Task) : Prop where
  idle : task.outcome = none → ∀ p, task.phase = some p → p.isUnderWay = false
  late : ∀ scheduled, task.role = .cycle scheduled → s₀.hasBegun t = false →
    (task.outcome = none → task.phase = none) ∧
      ∀ o, task.outcome = some o → s.Dismissed t s₀.queue.length o

/-- The runner has been suppressed since `s₀`, and nothing has been done that is work. -/
structure Hushed (s₀ s : Session) : Prop where
  stage : s.stage = .suppressed
  still : Still s₀ s
  tasks : ∀ (t : TaskId) (task : Task), s.tasks[t]? = some task → Inert s₀ s t task

section Hushed

variable {s₀ s s' : Session} {t : TaskId} {task : Task} {scheduled : Bool}

theorem hushed_of_isIdle (hs : s.stage = .suppressed) (hi : s.isIdle) : Hushed s s := by
  refine ⟨hs, .refl s, fun t task ht => ⟨fun ho p hp => ?_, fun scheduled _ hb => ?_⟩⟩
  · have h := List.all_eq_true.1 hi task (List.mem_of_getElem? ht)
    simpa [ho, hp] using h
  · have hnot : task.phase = none ∧ task.outcome = none := by simpa [hasBegun, ht] using hb
    refine ⟨fun _ => hnot.1, fun o ho => ?_⟩
    rw [hnot.2] at ho
    cases ho

theorem Dismissed.mem {queued : Nat} {o : Outcome} (h : s.Dismissed t queued o)
    (hj : ∀ e ∈ s.journal, e ∈ s'.journal) : s'.Dismissed t queued o :=
  h.imp_right (And.imp_right (hj _))

theorem Inert.mem (h : Inert s₀ s t task) (hj : ∀ e ∈ s.journal, e ∈ s'.journal) :
    Inert s₀ s' t task :=
  ⟨h.idle, fun scheduled hr hb =>
    ⟨(h.late scheduled hr hb).1, fun o ho => ((h.late scheduled hr hb).2 o ho).mem hj⟩⟩

/-- The tasks that do not go on stay as they are, and new ones have not begun. -/
theorem Hushed.spares {who : Option TaskId} (h : Hushed s₀ s) (hstill : Still s s')
    (hx : Spares who s s') (hwho : ∀ (t : TaskId) (task : Task), who = some t →
      s'.tasks[t]? = some task → Inert s₀ s' t task) : Hushed s₀ s' := by
  refine ⟨hstill.stage h.stage, h.still.trans hstill, fun u task hu => ?_⟩
  by_cases hw : who = some u
  · exact hwho u task hw hu
  · rcases hx.cases hw hu with hs | ⟨-, role, due, rfl⟩
    · exact (h.tasks u task hs).mem hx.mem
    · exact ⟨by simp, fun _ _ _ => ⟨fun _ => rfl, by simp⟩⟩

theorem Hushed.aside (h : Hushed s₀ s) (m : Aside s s') : Hushed s₀ s' := by
  have hstill := m.still
  rcases m.spares with ⟨t, role, hr, -, rfl⟩ | hx
  · have hx := spares_tell (lt_of_role? hr)
    refine h.spares hstill hx ?_
    rintro u new ⟨⟩ hu
    rcases modifyTask_cases hu with ⟨-, old, hold, rfl⟩ | ⟨hne, -⟩
    · have hinert := (h.tasks t old hold).mem hx.mem
      exact ⟨hinert.idle, hinert.late⟩
    · exact absurd rfl hne
  · exact h.spares hstill hx fun t task hn => absurd hn (by simp)

/-- The turn of a task that is no cycle. -/
theorem Hushed.resume_other (h : Hushed s₀ s) (turn : Turn s t task)
    (hr : ∀ scheduled, task.role ≠ .cycle scheduled) : Hushed s₀ (s.resume t) := by
  refine h.spares (turn.still_other hr) turn.spares ?_
  rintro u new ⟨⟩ hu
  have hrole : new.role = task.role := role_eq hu turn.role?_resume
  refine ⟨fun ho p hp => ?_, fun scheduled hs => absurd (hrole ▸ hs) (hr scheduled)⟩
  have hk := (turn.tidy_resume.fits t new hu ho).phase p hp
  by_contra hway
  exact Role.ne_cycle_of_allows (hrole ▸ hr) hk (Phase.kind_of_isUnderWay (by simpa using hway))

/-- The turn of a cycle. -/
theorem Hushed.resume_cycle (h : Hushed s₀ s) (howing : Owing s) (turn : Turn s t task)
    (hr : task.role = .cycle scheduled) : Hushed s₀ (s.resume t) := by
  have hinert := h.tasks t task turn.known
  obtain ⟨s₁, o, he, m, htask, ho⟩ := turn.cycle_ends hr h.stage (hinert.idle turn.live)
  have hheed : Still s (s.heed t) := still_of_eq rfl rfl (.of_eq rfl rfl)
  have hstill : Still s s₁ := hheed.trans (m.still (by decide))
  refine h.spares (he ▸ hstill.trans (still_finish o)) turn.spares ?_
  rintro u new ⟨⟩ hu
  have hout : new.outcome = some o := by
    have h' := outcome?_finish (u := t) (o := o) htask
    rw [← he, if_pos rfl] at h'
    simpa [outcome?, hu] using h'
  refine ⟨fun hn => ?_, fun scheduled' _ hb => ⟨fun hn => ?_, fun o' ho' => ?_⟩⟩
  · rw [hout] at hn
    cases hn
  · rw [hout] at hn
    cases hn
  · rw [hout] at ho'
    cases ho'
    rw [ho ((hinert.late scheduled hr hb).1 turn.live), h.still.queue]
    split_ifs with hc
    · exact .inr ⟨rfl, turn.spares.mem _ ((howing t task turn.known).told hc)⟩
    · exact .inl rfl

theorem Hushed.resume (h : Hushed s₀ s) (howing : Owing s) (turn : Turn s t task) :
    Hushed s₀ (s.resume t) := by
  cases hr : task.role with
  | cycle scheduled => exact h.resume_cycle howing turn hr
  | load | other => exact h.resume_other turn (by simp [hr])

theorem Hushed.step (h : Hushed s₀ s) (hreach : Reachable s) (step : Step s s') :
    Hushed s₀ s' := by
  have hall : Recorded none s' ∧ Owing s' ∧ Hushed s₀ s' := by
    refine step.keeps (P := fun s => Recorded none s ∧ Owing s ∧ Hushed s₀ s)
      (fun s s' m h => ⟨h.1.aside m, h.2.1.aside h.1 m, h.2.2.aside m⟩)
      (fun s t task turn h =>
        ⟨h.1.resume turn, h.2.1.resume h.1 turn, h.2.2.resume h.2.1 turn⟩)
      (tidy_of_reachable hreach) ⟨recorded_of_reachable hreach, owing_of_reachable hreach, h⟩
  exact hall.2.2

theorem Hushed.steps (h : Hushed s₀ s) (hreach : Reachable s) (steps : Steps s s') :
    Hushed s₀ s' := by
  induction steps with
  | refl => exact h
  | tail k step ih => exact ih.step (hreach.steps k) step

/-- A cycle that has not begun is ready to. -/
theorem Tidy.resume_mem_ready (h : Tidy none s) (ht : s.tasks[t]? = some task)
    (ho : task.outcome = none) (hp : task.phase = none) : .resume t ∈ s.ready := by
  have hturn : t ∈ s.turns := by
    refine List.count_pos_iff.1 ?_
    rw [h.turns t, if_pos ⟨isLive_iff.2 ⟨task, ht, ho⟩, by simp⟩]
    exact Nat.one_pos
  rcases List.mem_append.1 hturn with hw | hj
  · obtain ⟨⟨u, w⟩, hmem, rfl⟩ := List.mem_map.1 hw
    obtain ⟨task', p, ht', hp', -⟩ := h.waits u w hmem
    rw [ht] at ht'
    cases ht'
    rw [hp] at hp'
    cases hp'
  · obtain ⟨j, hj, hju⟩ := List.mem_filterMap.1 hj
    cases j <;> cases hju
    exact hj

/-- The turn of a cycle ends it. -/
theorem Hushed.hasEnded_resume (h : Hushed s₀ s) (turn : Turn s t task)
    (hr : task.role = .cycle scheduled) : (s.resume t).hasEnded t := by
  obtain ⟨s₁, o, he, -, htask, -⟩ :=
    turn.cycle_ends hr h.stage ((h.tasks t task turn.known).idle turn.live)
  rw [he, hasEnded, outcome?_finish htask, if_pos rfl]
  rfl

end Hushed

/-- If no cycle is under way when the runner is suppressed, it is so for good. Whatever follows, it
asks for no rules, queues nothing, calls no local handler and hands no batch to the gateway. Every
cycle that had not begun by then reports the suppression, unless it is told to give up before it
begins: if it has not ended yet, it is ready, and its turn ends it. -/
theorem suppressed_forever {s s' : Session} (h : Reachable s) (hs : s.stage = .suppressed)
    (hi : s.isIdle) (steps : Steps s s') :
    s'.stage = .suppressed ∧ s'.queue = s.queue ∧
    (∃ new, s'.journal = s.journal ++ new ∧ ∀ e ∈ new, e.what.isWork = false) ∧
    ∀ t scheduled, s'.role? t = some (.cycle scheduled) → s.hasBegun t = false →
      (∀ o, s'.outcome? t = some o → s'.Dismissed t s.queue.length o) ∧
      (s'.hasEnded t = false → .resume t ∈ s'.ready ∧
        ∀ before after, s'.ready = before ++ .resume t :: after →
          ({ s' with ready := before ++ after }.perform (.resume t)).hasEnded t) := by
  have hush := (hushed_of_isIdle hs hi).steps h steps
  have htidy := tidy_of_reachable (h.steps steps)
  refine ⟨hush.stage, hush.still.queue, hush.still.growth.journal, fun t scheduled hr hb => ?_⟩
  obtain ⟨task, ht, hrole⟩ := Option.map_eq_some_iff.1 hr
  have hlate := (hush.tasks t task ht).late scheduled hrole hb
  refine ⟨fun o ho => hlate.2 o (by simpa [outcome?, ht] using ho), fun he => ?_⟩
  have hlive : task.outcome = none := by simpa [hasEnded, outcome?, ht] using he
  refine ⟨htidy.resume_mem_ready ht hlive (hlate.1 hlive), fun before after hready => ?_⟩
  obtain ⟨task', turn⟩ := htidy.turn hready
  have hsame : task' = task := Option.some.inj (turn.known.symm.trans ht)
  have hush' : Hushed s { s' with ready := before ++ after } :=
    hush.aside (.turns s' s'.waiting (before ++ after) s'.pending)
  exact hush'.hasEnded_resume turn (hsame ▸ hrole)

/-! ## An exempt page -/

/-- Commands, one after the other. -/
def acts (s : Session) (cs : List Command) : Session := cs.foldl (fun s c => (s.act c).1) s

theorem steps_acts {cs : List Command} (h : ∀ c ∈ cs, ∀ s : Session, s.admits c) (s : Session) :
    Steps s (s.acts cs) := by
  induction cs generalizing s with
  | nil => exact .refl s
  | cons c cs ih =>
    exact (Steps.single (.act s c (h c List.mem_cons_self s))).trans
      (ih (fun d hd => h d (List.mem_cons_of_mem _ hd)) _)

theorem steps_settled_acts {cs : List Command} (h : ∀ c ∈ cs, ∀ s : Session, s.admits c)
    (s : Session) : Steps s (s.settle.acts cs) := (steps_settle s).trans (steps_acts h _)

/-- The small session on an exempt page, with a start and a cycle side by side. That the page is
exempt becomes known when the cycle has come as far as it can while an answer is held. -/
def sampleExempt (held : Question) : Session :=
  ((sample.acts [.arrange (.whitelisted (.bool true)), .hold .whitelist, .hold held,
    .spawn .other [⟨.start, false⟩], .spawn (.cycle false) [⟨.cycle, false⟩]]).settle.acts
    [.release .whitelist]).settle

theorem reachable_sampleExempt (held : Question) : Reachable (sampleExempt held) := by
  have hnew : Reachable sample := .new sample.setup sample.host {}
  refine Reachable.steps ?_ (steps_settle _)
  refine Reachable.steps ?_ (steps_acts (by simp [admits]) _)
  refine Reachable.steps ?_ (steps_settle _)
  exact hnew.steps (steps_acts (by simp [admits, Call.isOpen]) _)

/-- The session in which the cycle has ended before the suppression, after one more cycle. -/
def sampleDismissed : Session :=
  ((sampleExempt .whitelist).acts [.emit, .spawn (.cycle false) [⟨.cycle, false⟩]]).settle

theorem suppressed_forever_sampleExempt :
    (sampleExempt .whitelist).stage = .suppressed ∧ (sampleExempt .whitelist).isIdle ∧
      (sampleExempt .whitelist).queue.length = 2 ∧ sampleDismissed.stage = .suppressed ∧
      sampleDismissed.queue.length = 2 ∧
      sampleDismissed.outcome? 4 = some (.ok (.report { status := .suppressed, queued := 2 })) := by
  have hs : (sampleExempt .whitelist).stage = .suppressed := by decide +kernel
  have hi : (sampleExempt .whitelist).isIdle := by decide +kernel
  have hq : (sampleExempt .whitelist).queue.length = 2 := by decide +kernel
  have steps : Steps (sampleExempt .whitelist) sampleDismissed :=
    (steps_acts (by simp [admits]) _).trans (steps_settle _)
  obtain ⟨hstage, hqueue, -, hcycles⟩ :=
    suppressed_forever (reachable_sampleExempt .whitelist) hs hi steps
  have hrole : sampleDismissed.role? 4 = some (.cycle false) := by decide +kernel
  have hbegun : (sampleExempt .whitelist).hasBegun 4 = false := by decide +kernel
  have hends : (sampleDismissed.outcome? 4).any Except.isOk := by decide +kernel
  obtain ⟨o, ho, hok⟩ := (Option.any_eq_true _ _).1 hends
  have hlate := (hcycles 4 false hrole hbegun).1 o ho
  rw [hq] at hlate
  rw [hqueue, hq, ho]
  refine ⟨hs, hi, rfl, hstage, rfl, ?_⟩
  rcases hlate with rfl | ⟨rfl, -⟩
  · rfl
  · cases hok

/-- A cycle that waits for its rules while the page is found exempt ends the suppression: it queues
what it gets, calls the local handler and dispatches. -/
theorem not_suppressed_forever :
    ¬ ∀ s s' : Session, Reachable s → s.stage = .suppressed → Steps s s' →
      s'.stage = .suppressed := by
  intro h
  have steps : Steps (sampleExempt .snippets)
      ((sampleExempt .snippets).acts [.release .snippets]).settle :=
    (steps_acts (by simp [admits]) _).trans (steps_settle _)
  have hend := h _ _ (reachable_sampleExempt .snippets) (by decide +kernel) steps
  exact absurd hend (by decide +kernel)

end Session

end Snippets
