import Snippets.Proofs.Session.Askers

/-!
# No update of the rules is lost

From its start on, as long as it is not stopped, the runner schedules a cycle for every
notification, which has not begun when the notification is over (`Started.newcomers`). While the
rule source answers with the same list, a cycle that has not got its rules yet will queue that list
(`Fed`). So when all cycles have ended, the rules were asked for once at first and once for each
notification, and what the last notification told of is in the queue (`no_update_lost`).
-/

namespace Snippets.Session

/-! ## Every cycle gets the rules that are served -/

/-- Any number of steps, after each of which the rule source answers `v`. -/
def Serving (v : Value) : Session → Session → Prop :=
  Relation.ReflTransGen fun s s' => Step s s' ∧ s'.host.snippets = .ok v

/-- A scheduled cycle has queued `rules`, was told to give up, or has still to take the answer of
the rule source. -/
def Fed (rules : List Value) (t : TaskId) (s : Session) : Prop :=
  ⟨some t, .queued rules⟩ ∈ s.journal ∨ ⟨some t, .cancelled⟩ ∈ s.journal ∨
    ∃ task : Task, s.tasks[t]? = some task ∧ task.role = .cycle true ∧ task.outcome = none ∧
      (task.phase = none ∨ task.phase = some .rules)

section Fed

variable {s s' : Session} {t : TaskId} {task : Task} {rules : List Value} {v : Value}

theorem Serving.steps (h : Serving v s s') : Steps s s' := by
  induction h with
  | refl => exact .refl s
  | tail _ step ih => exact .tail ih step.1

theorem mem_queued_takeRules (hv : s.host.snippets = .ok v) (hrules : v.items? = some rules) :
    ⟨some t, .queued rules⟩ ∈ (s.takeRules t).1.journal := by
  have hqueued : ⟨some t, .queued rules⟩ ∈ (s.queueRules t rules).journal :=
    List.mem_append_right _ List.mem_cons_self
  exact (moves_queued hv hrules).extends.mem hqueued

/-- The first block of a cycle queues the rules, or waits for them. -/
theorem cycle_cases (hs : s.stage ≠ .suppressed) (hv : s.host.snippets = .ok v)
    (hrules : v.items? = some rules) : ⟨some t, .queued rules⟩ ∈ (s.cycle t).1.journal ∨
      (s.cycle t).2 = .waits .rules (.answer .snippets) := by
  unfold cycle
  rw [if_neg hs]
  dsimp only
  split_ifs
  · exact .inr rfl
  · exact .inl (mem_queued_takeRules (s := s.effect (some t) .askSnippets) hv hrules)

theorem Fed.spares {who : Option TaskId} (h : Fed rules t s) (hx : Spares who s s')
    (hwho : who = some t → Fed rules t s') : Fed rules t s' := by
  by_cases hw : who = some t
  · exact hwho hw
  · rcases h with h | h | ⟨task, ht, h⟩
    · exact .inl (hx.mem _ h)
    · exact .inr (.inl (hx.mem _ h))
    · exact .inr (.inr ⟨task, hx.tasks t task hw ht, h⟩)

theorem Fed.aside (h : Fed rules t s) (m : Aside s s') : Fed rules t s' := by
  rcases m.spares with ⟨u, role, hr, -, rfl⟩ | hx
  · refine h.spares (spares_tell (lt_of_role? hr)) ?_
    rintro ⟨⟩
    exact .inr (.inl (List.mem_append_right _ List.mem_cons_self))
  · exact h.spares hx fun hn => by cases hn

/-- In its turn a cycle that has not taken the answer queues it, or goes on waiting. -/
theorem Turn.fed (turn : Turn s t task) (hr : task.role = .cycle true)
    (hp : task.phase = none ∨ task.phase = some .rules) (hpays : s.Pays t task)
    (hs : s.stage ≠ .suppressed) (hv : s.host.snippets = .ok v) (hrules : v.items? = some rules) :
    Fed rules t (s.resume t) := by
  cases hc : task.cancelRequested with
  | true => exact .inr (.inl (turn.spares.mem _ (hpays.told hc)))
  | false =>
    have hkind : ∀ p, task.phase = some p → p.kind = .cycle :=
      fun p hp => Role.kind_of_allows (hr ▸ turn.fits.phase p hp)
    have hblock : Block .cycle t (s.heed t) ((s.heed t).blockOf t task .cycle) :=
      block_blockOf (c := .cycle) hkind fun p load => turn.loaded_heed
    have htask := hblock.moves.task (task_heed turn.known)
    have hcases : ⟨some t, .queued rules⟩ ∈ ((s.heed t).blockOf t task .cycle).1.journal ∨
        ((s.heed t).blockOf t task .cycle).2 = .waits .rules (.answer .snippets) := by
      unfold blockOf
      rw [hc]
      rcases hp with hp | hp
      · rw [hp]
        exact cycle_cases (s := s.heed t) hs hv hrules
      · rw [hp]
        exact .inl (mem_queued_takeRules (s := s.heed t) hv hrules)
    rw [resume_single turn (c := .cycle) (by rw [hr]; rfl)]
    generalize (s.heed t).blockOf t task .cycle = r at htask hcases ⊢
    rcases hcases with hmem | hwaits
    · exact .inl ((extends_conclude _).mem hmem)
    · rw [hwaits]
      exact .inr (.inr ⟨_, task_suspend htask, hr, turn.live, .inr rfl⟩)

theorem Fed.step (h : Fed rules t s) (hl : Launched s) (hreach : Reachable s)
    (hv : s.host.snippets = .ok v) (hrules : v.items? = some rules) (step : Step s s') :
    Fed rules t s' := by
  rcases step.inv (tidy_of_reachable hreach) with m | ⟨ready, u, task, turn, rfl⟩
  · clear step
    induction m with
    | refl => exact h
    | tail _ m ih => exact ih.aside m
  · have hready : Aside s { s with ready } := .turns s s.waiting ready s.pending
    refine (h.aside hready).spares turn.spares ?_
    rintro ⟨⟩
    rcases h.aside hready with h | h | ⟨task', ht, hr, -, hp⟩
    · exact .inl (turn.spares.mem _ h)
    · exact .inr (.inl (turn.spares.mem _ h))
    · rw [turn.known] at ht
      cases ht
      have hpays := (owing_of_reachable hreach).aside (recorded_of_reachable hreach) hready t task
        turn.known
      exact turn.fed hr hp hpays (Stage.ne_suppressed_of_isUp hl.up) hv hrules

theorem Fed.serving (h : Fed rules t s) (hl : Launched s) (hreach : Reachable s)
    (hv : s.host.snippets = .ok v) (hrules : v.items? = some rules) (serving : Serving v s s') :
    Fed rules t s' := by
  have hboth : Fed rules t s' ∧ s'.host.snippets = .ok v := by
    induction serving with
    | refl => exact ⟨h, hv⟩
    | tail k step ih =>
      have hsteps : Steps s _ := Serving.steps k
      exact ⟨ih.1.step (hl.steps hreach hsteps).1 (hreach.steps hsteps) ih.2 hrules step.1, step.2⟩
  exact hboth.1

end Fed

/-! ## While the runner listens -/

section Listening

variable {u u₁ u₂ s₀ s : Session}

/-- Until the runner is stopped it is registered once. -/
theorem Started.registered_once (h : Started s₀) (hreach : Reachable s₀) (k : Steps s₀ u)
    (k' : Steps u s) (hlistening : s.isListening) : u.event.Undisturbed listener ∧
      u.event.registered.count listener = 1 := by
  obtain ⟨hl, hsteady⟩ := h.launched.steps hreach k
  have htally := hsteady.tally h.undisturbed
  have htally' := ((hl.steps (hreach.steps k) k').2).tally htally.undisturbed
  have hpos := isListening_iff.1 hlistening
  have hle := htally.listens
  have hle' := htally'.listens
  rw [h.registered] at hle
  exact ⟨htally.undisturbed, by omega⟩

/-- A scheduled cycle that has not begun. -/
def IsNewCycle (s : Session) (t : TaskId) : Prop :=
  ∃ task : Task, s.tasks[t]? = some task ∧ task.role = .cycle true ∧ task.IsNew

theorem IsNewCycle.role? {t : TaskId} (h : s.IsNewCycle t) : s.role? t = some (.cycle true) := by
  obtain ⟨task, ht, hr, -⟩ := h
  simp [Session.role?, ht, hr]

theorem IsNewCycle.acts {t : TaskId} (h : s.IsNewCycle t) (hreach : Reachable s) :
    s.journal.acts t = [] := by
  obtain ⟨task, ht, hr, hphase, ho⟩ := h
  have hroute := (ordered_of_reachable hreach t task ht).live true hr ho
  rw [hphase] at hroute
  exact hroute

/-- In a step as many cycles are scheduled as the event is emitted, and none of them has begun. -/
theorem Started.newcomers (h : Started s₀) (hreach₀ : Reachable s₀) (k : Steps s₀ u₁)
    (step : Step u₁ u₂) (k' : Steps u₂ s) (hlistening : s.isListening) :
    ∃ cs : List TaskId, cs.Nodup ∧ cs.length + u₁.event.emitted = u₂.event.emitted ∧
      ∀ c ∈ cs, u₁.tasks.length ≤ c ∧ u₂.IsNewCycle c := by
  obtain ⟨hu, h₁⟩ := h.registered_once hreach₀ k ((Steps.single step).trans k') hlistening
  obtain ⟨-, h₂⟩ := h.registered_once hreach₀ (.tail k step) k' hlistening
  have hreach := hreach₀.steps k
  have hreach₂ : Reachable u₂ := .step hreach step
  obtain ⟨-, new, hj, -⟩ := Steps.extends hreach (.single step)
  have hscheduled : u₂.journal.scheduled = u₁.journal.scheduled ++ new.scheduled := by
    rw [hj, Journal.scheduled_append]
  have hlisted := enlisted_of_reachable hreach₂
  have hnodup := hlisted.nodup
  rw [hscheduled, List.nodup_append] at hnodup
  obtain ⟨-, hnew, hdisjoint⟩ := hnodup
  refine ⟨new.scheduled, hnew, ?_, fun c hc => ?_⟩
  · have hsteady := ((h.launched.steps hreach₀ k).1.step hreach step).2
    have htally := (hsteady.tally hu).scheduled (h₂.trans h₁.symm)
    rw [h₁, hscheduled, List.length_append] at htally
    omega
  · have hrole : u₂.role? c = some (.cycle true) :=
      (hlisted.mem c).1 (hscheduled ▸ List.mem_append_right _ hc)
    have hle : u₁.tasks.length ≤ c := by
      by_contra hlt
      -- a cycle that existed before the step had been scheduled before it
      rw [step.role?_eq hreach (Nat.lt_of_not_le hlt)] at hrole
      exact hdisjoint c (((enlisted_of_reachable hreach).mem c).2 hrole) c hc rfl
    obtain ⟨task, ht, hr⟩ := Option.map_eq_some_iff.1 hrole
    exact ⟨hle, task, ht, hr, step.isNew hreach ht hle⟩

/-- What a task that had not acted before has done is new in the journal. -/
theorem mem_new {new : Journal} {t : TaskId} {w : Happening} (hj : s.journal = u.journal ++ new)
    (hacts : u.journal.acts t = []) (hm : ⟨some t, w⟩ ∈ s.journal) (hw : w.isAct) :
    ⟨some t, w⟩ ∈ new := by
  rw [hj] at hm
  refine (List.mem_append.1 hm).resolve_left fun hold => ?_
  have hmem := Journal.mem_acts.2 ⟨hold, hw⟩
  rw [hacts] at hmem
  cases hmem

/-- A reload that finds its rules serves them and tells of them. -/
theorem reloadSource_eq_ok (h : s.event.Undisturbed listener) {w : Value} {source : RuleSource}
    (hsource : s.host.source.reload s.host.files w = .ok source) (t : Option TaskId) :
    ∃ s', s.reloadSource t w = .ok (s', none) ∧ s'.host = { s.host with source } ∧
      s'.queue = s.queue ∧ s.event.emitted < s'.event.emitted := by
  obtain ⟨s₁, hs₁⟩ : ∃ s₁, s₁ = (s.withHost { s.host with source }).note t RuleSource.reloadNote :=
    ⟨_, rfl⟩
  have hevent : s₁.event = s.event := by rw [hs₁]; rfl
  have hhost : s₁.host = { s.host with source } ∧ s₁.queue = s.queue := by
    rw [hs₁]
    exact ⟨rfl, rfl⟩
  have hreload : s.reloadSource t w = .ok s₁.notify := by
    unfold reloadSource
    rw [hsource, hs₁]
  obtain ⟨hhost', hqueue⟩ := notify_keeps
    (P := fun s' => s'.host = { s.host with source } ∧ s'.queue = s.queue) hhost
    (fun _ _ h => h) fun _ h => h
  refine ⟨s₁.notify.1, ?_, hhost', hqueue, ?_⟩
  · have hu : Event.Undisturbed { s₁.event with calls := [] } listener := by
      rw [hevent]
      exact h
    have hnone : s₁.notify.2 = none := (Event.emits_emit hu).1
    rw [hreload, ← hnone]
  · rw [← hevent] at h ⊢
    exact lt_emitted_notify h

/-- What a new cycle gets while the rule source answers with the same list is a block of the
queue. -/
theorem queue_of_serving {t : TaskId} {rules : List Value} {v : Value} (hl : Launched u)
    (hreach : Reachable u) (hnew : u.IsNewCycle t) (hv : u.host.snippets = .ok v)
    (hrules : v.items? = some rules) (serving : Serving v u s) (he : s.hasEnded t)
    (hc : ⟨some t, .cancelled⟩ ∉ s.journal) :
    ∃ before after, s.queue = u.queue ++ before ++ Script.parseAll rules ++ after := by
  have hreach' := hreach.steps serving.steps
  have hfed : Fed rules t u := by
    obtain ⟨task, ht, hr, hphase, ho⟩ := hnew
    exact .inr (.inr ⟨task, ht, hr, ho, .inl hphase⟩)
  have hqueued : ⟨some t, .queued rules⟩ ∈ s.journal := by
    rcases hfed.serving hl hreach hv hrules serving with h | h | ⟨task', ht', -, hlive, -⟩
    · exact h
    · exact absurd h hc
    · obtain ⟨task'', ht'', ho⟩ := hasEnded_iff.1 he
      rw [ht'] at ht''
      cases ht''
      simp [hlive] at ho
  obtain ⟨-, new, hj, -⟩ := Steps.extends hreach serving.steps
  obtain ⟨before, after, hsplit⟩ :=
    List.append_of_mem (mem_new hj (hnew.acts hreach) hqueued rfl)
  refine ⟨Journal.queue before, Journal.queue after, ?_⟩
  rw [(recorded_of_reachable hreach').queue, (recorded_of_reachable hreach).queue, hj, hsplit,
    Journal.queue_append, Journal.queue_append]
  simp [Journal.queue]

/-- If from a notification on the rule source answers with the same list and in the end no cycle is
left, that list is a block of the queue. -/
theorem Started.served (h : Started s₀) (hreach₀ : Reachable s₀) (k : Steps s₀ u₁)
    (step : Step u₁ u₂) (hlt : u₁.event.emitted < u₂.event.emitted) {v : Value}
    {rules : List Value} (hv : u₂.host.snippets = .ok v) (hrules : v.items? = some rules)
    (serving : Serving v u₂ s) (hlistening : s.isListening)
    (hended : ∀ t, s.role? t = some (.cycle true) →
      s.hasEnded t ∧ ⟨some t, .cancelled⟩ ∉ s.journal) :
    ∃ before after, s.queue = u₂.queue ++ before ++ Script.parseAll rules ++ after := by
  obtain ⟨cs, -, hlength, hcs⟩ := h.newcomers hreach₀ k step serving.steps hlistening
  obtain ⟨c, hc⟩ := List.exists_mem_of_length_pos (l := cs) (by omega)
  have hnew := (hcs c hc).2
  have hreach₂ := hreach₀.steps (.tail k step)
  obtain ⟨hend, hkept⟩ := hended c (serving.steps.role?_of_some hreach₂ hnew.role?)
  exact queue_of_serving (h.launched.steps hreach₀ (.tail k step)).1 hreach₂ hnew hv hrules serving
    hend hkept

end Listening

/-- No update of the rules is lost. Let the runner be started in a session in which no listener of
the event fails or touches its registration: the step to `s₀` is the one after which it listens. Let
`s` be any later session in which it still listens, in which no cycle was run other than by the
runner itself, and in which all of its cycles have ended, none of them because it was told to give
up. Then the rules were asked for once and, besides, once for each notification since the start. For
every notification there is a cycle of its own that was created with it and asked for the rules
after it. If from a notification on the rule source answered with the same list, the snippets of
that list were put into the queue after it, next to each other. A reload that finds its rules is
such a notification. -/
theorem no_update_lost {setup : Setup} {host : Host} {event : Event} {u s₀ s : Session}
    (hevent : event.Undisturbed listener) (hnew : event.has listener = false)
    (before : Steps { setup, host, event } u) (start : Step u s₀)
    (hbefore : u.isListening = false) (hafter : s₀.isListening) (after : Steps s₀ s)
    (hlistening : s.isListening) (hdirect : ∀ t, s.role? t ≠ some (.cycle false))
    (hended : ∀ t, s.role? t = some (.cycle true) →
      s.hasEnded t ∧ ⟨some t, .cancelled⟩ ∉ s.journal) :
    s.journal.effects.count .askSnippets + s₀.event.emitted = 1 + s.event.emitted ∧
    (∀ u₁ u₂, Steps s₀ u₁ → Step u₁ u₂ → Steps u₂ s → ∃ (cs : List TaskId) (new : Journal),
      cs.Nodup ∧ cs.length + u₁.event.emitted = u₂.event.emitted ∧ s.journal = u₂.journal ++ new ∧
        ∀ c ∈ cs, u₁.tasks.length ≤ c ∧ ⟨some c, .effect .askSnippets⟩ ∈ new) ∧
    (∀ u₁ u₂ v rules, Steps s₀ u₁ → Step u₁ u₂ → u₁.event.emitted < u₂.event.emitted →
      u₂.host.snippets = .ok v → v.items? = some rules → Serving v u₂ s →
      ∃ before after, s.queue = u₂.queue ++ before ++ Script.parseAll rules ++ after) ∧
    ∀ u₁ w source, Steps s₀ u₁ → u₁.host.source.reload u₁.host.files w = .ok source →
      u₁.event.emitted < (u₁.act (.reload w)).1.event.emitted ∧
      ∀ rules, u₁.host.snippetsFault = none → source.snippets.items? = some rules →
        Serving source.snippets (u₁.act (.reload w)).1 s →
        ∃ before after, s.queue = u₁.queue ++ before ++ Script.parseAll rules ++ after := by
  have hdormant : Dormant { setup, host, event } :=
    ⟨hevent, by simpa [Event.has, List.count_eq_zero] using hnew, rfl⟩
  have hreach₀ : Reachable { setup, host, event } := .new setup host event
  have hreachu := hreach₀.steps before
  have hreachs₀ : Reachable s₀ := .step hreachu start
  have hreach := hreachs₀.steps after
  obtain ⟨hd, hstarted⟩ := started_of_listening hdormant hreach₀ before start hbefore hafter
  have hheeded := (heeded_of_dormant hd hreachu start).steps hstarted.launched hreachs₀ after
  have hasked : ∀ t, s.role? t = some (.cycle true) →
      ⟨some t, .effect .askSnippets⟩ ∈ s.journal :=
    fun t hr => hheeded.mem_ask hr (hended t hr).1 (hended t hr).2
  refine ⟨?_, ?_, ?_, ?_⟩
  · have htally := ((hstarted.launched.steps hreachs₀ after).2.tally hstarted.undisturbed)
    have hone := (hstarted.registered_once hreachs₀ after (.refl s) hlistening).2
    have hscheduled := htally.scheduled (hone.trans hstarted.registered.symm)
    rw [hstarted.registered, hstarted.scheduled] at hscheduled
    rw [count_asks hreach, (askers_perm_scheduled hreach hdirect hasked).length_eq]
    omega
  · intro u₁ u₂ k step k'
    obtain ⟨cs, hnodup, hlength, hcs⟩ := hstarted.newcomers hreachs₀ k step k' hlistening
    have hreach₂ := hreachs₀.steps (.tail k step)
    obtain ⟨-, new, hj, -⟩ := Steps.extends hreach₂ k'
    refine ⟨cs, new, hnodup, hlength, hj, fun c hc => ⟨(hcs c hc).1, ?_⟩⟩
    have hcycle := (hcs c hc).2
    exact mem_new hj (hcycle.acts hreach₂)
      (hasked c (Steps.role?_of_some hreach₂ k' hcycle.role?)) rfl
  · intro u₁ u₂ v rules k step hlt hv hrules serving
    exact hstarted.served hreachs₀ k step hlt hv hrules serving hlistening hended
  · intro u₁ w source k hsource
    have hu : u₁.event.Undisturbed listener :=
      ((hstarted.launched.steps hreachs₀ k).2.tally hstarted.undisturbed).undisturbed
    obtain ⟨u₂, hreload, hhost, hqueue, hlt⟩ := reloadSource_eq_ok hu hsource none
    have hact : (u₁.act (.reload w)).1 = u₂ := by
      show (u₁.reload w).1 = u₂
      unfold reload
      rw [hreload]
    have step : Step u₁ u₂ := hact ▸ .act u₁ (.reload w) rfl
    rw [hact]
    refine ⟨hlt, fun rules hfault hrules serving => ?_⟩
    have hv : u₂.host.snippets = .ok source.snippets := by
      rw [hhost]
      unfold Host.snippets
      rw [hfault]
    rw [← hqueue]
    exact hstarted.served hreachs₀ k step hlt hv hrules serving hlistening hended

/-! ## A run with updates -/

/-- Another listener that tells once of loaded rules itself. -/
def sampleEcho : Event where
  registered := [text "echo"]
  listeners := [(text "echo", { emissions := 1 })]

/-- The collaborators of the small session, with a handler that reloads the rule source once. -/
def sampleHost : Host :=
  { sample.host with handlers := [.reloading [.list [.text (text "b y")]]] }

/-- A session with that handler and the other listener, when the runner is about to be started. -/
def sampleCalled : Session :=
  (({ setup := sample.setup, host := sampleHost, event := sampleEcho } : Session).act
    (.spawn .other [⟨.start, false⟩])).1

/-- The runner has been started. -/
def sampleStarted : Session := ({ sampleCalled with ready := [] } : Session).perform (.resume 0)

def sampleRules : Value := .list [.text (text "c"), .null]

/-- After everything that follows the start the rule source is reloaded. -/
def sampleReloaded : Session := (sampleStarted.settle.act (.reload sampleRules)).1

def sampleUpdated : Session := runWhile (fun _ => true) 4 sampleReloaded

theorem serving_runWhile {go : Session → Bool} {v : Value} {fuel : Nat} {s : Session}
    (h : ∀ n, n < fuel → (runWhile go (n + 1) s).host.snippets = .ok v) :
    Serving v s (runWhile go fuel s) := by
  induction fuel generalizing s with
  | zero => exact .refl
  | succ fuel ih =>
    have hfirst := h 0 (Nat.zero_lt_succ _)
    have hrest := fun n hn => h (n + 1) (Nat.succ_lt_succ hn)
    unfold runWhile at hfirst hrest ⊢
    split_ifs at hfirst hrest ⊢
    · split at hfirst
      · exact .refl
      · next j ready hr =>
        simp only [hr] at hrest ⊢
        exact .head ⟨.perform s [] j ready hr, hfirst⟩ (ih hrest)
    · exact .refl

/-- The first cycle reloads the rule source in its dispatch, which the other listener tells once
more; after the second reload the rules have been asked for four times. -/
theorem no_update_lost_sampleUpdated :
    sampleUpdated.journal.effects.count .askSnippets = 4 ∧
      ∃ before after, sampleUpdated.queue = sampleStarted.settle.queue ++ before ++
        Script.parseAll [.text (text "c"), .null] ++ after := by
  have serving : Serving sampleRules sampleReloaded sampleUpdated := by
    refine serving_runWhile fun n hn => ?_
    match n, hn with
    | 0, _ | 1, _ | 2, _ | 3, _ => rfl
  have hroles : ∀ task ∈ sampleUpdated.tasks, task.role ≠ .cycle false ∧ task.outcome.isSome := by
    decide +kernel
  have hkept : sampleUpdated.journal.all (fun e => match e.what with
      | .cancelled => false
      | _ => true) = true := by decide +kernel
  have hdirect : ∀ t, sampleUpdated.role? t ≠ some (.cycle false) := by
    intro t ht
    obtain ⟨task, h, hr⟩ := Option.map_eq_some_iff.1 ht
    exact (hroles task (List.mem_of_getElem? h)).1 hr
  have hended : ∀ t, sampleUpdated.role? t = some (.cycle true) →
      sampleUpdated.hasEnded t ∧ ⟨some t, .cancelled⟩ ∉ sampleUpdated.journal := by
    intro t ht
    obtain ⟨task, h, hr⟩ := Option.map_eq_some_iff.1 ht
    refine ⟨hasEnded_iff.2 ⟨task, h, (hroles task (List.mem_of_getElem? h)).2⟩, fun hm => ?_⟩
    cases List.all_eq_true.1 hkept _ hm
  have before : Steps { setup := sample.setup, host := sampleHost, event := sampleEcho }
      sampleCalled := .single (.act _ (.spawn .other [⟨.start, false⟩]) rfl)
  have start : Step sampleCalled sampleStarted := .perform sampleCalled [] (.resume 0) [] rfl
  have after : Steps sampleStarted sampleUpdated := (steps_settle sampleStarted).trans
    ((Steps.single (.act _ (.reload sampleRules) rfl)).trans serving.steps)
  obtain ⟨hcount, -, -, hreload⟩ := no_update_lost (by decide) (by decide) before start
    (by decide +kernel) (by decide +kernel) after (by decide +kernel) hdirect hended
  constructor
  · have hfirst : sampleStarted.event.emitted = 0 := by decide +kernel
    have hlast : sampleUpdated.event.emitted = 3 := by decide +kernel
    omega
  · have hrest := (hreload sampleStarted.settle sampleRules
      { sampleStarted.settle.host.source with snippets := sampleRules }
      (steps_settle sampleStarted) rfl).2
    exact hrest _ rfl rfl serving

end Snippets.Session
