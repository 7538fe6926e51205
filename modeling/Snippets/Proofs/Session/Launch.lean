import Snippets.Proofs.Session.Sharing
import Snippets.Proofs.Session.Tally

/-!
# The start of the runner

The runner is started at most once: of all starts only the first can wait for the answer to whether
the page is exempt (`Sole`), and when it has learned that it is not, there is none left that could
start or suppress the runner (`Launched`). So a session is dormant until the step in which the
runner begins to listen (`started_of_listening`), and steady from then on (`Launched.steps`).
-/

namespace Snippets

namespace Session

/-! ## One start -/

/-- A start of `t` waits to learn whether the page is exempt. -/
def Awaiting (s : Session) (t : TaskId) : Prop :=
  ∃ task : Task, s.tasks[t]? = some task ∧ task.outcome = none ∧ task.phase = some .eligibility

/-- There is at most one start that waits, and the runner is not suppressed until it has learned the
answer. -/
structure Sole (s : Session) : Prop where
  up : ∀ t, s.Awaiting t → s.stage.isUp
  unique : ∀ t u, s.Awaiting t → s.Awaiting u → t = u

/-- The runner has been started, and there is no start any more that could suppress it. -/
structure Launched (s : Session) : Prop where
  up : s.stage.isUp
  settled : ∀ t, ¬ s.Awaiting t

section Awaiting

variable {s s' : Session} {t u : TaskId} {task : Task} {k : Kind} {a : Option TaskId}

/-- Whoever does not go on does not begin to wait. -/
theorem Spares.awaiting {who : Option TaskId} (hx : Spares who s s') (hu : who ≠ some u)
    (h : s'.Awaiting u) : s.Awaiting u := by
  obtain ⟨task, ht, ho, hp⟩ := h
  rcases hx.cases hu ht with hs | ⟨-, role, due, rfl⟩
  · exact ⟨task, hs, ho, hp⟩
  · cases hp

theorem Aside.awaiting (m : Aside s s') (h : s'.Awaiting u) : s.Awaiting u := by
  rcases m.spares with ⟨t, role, hr, -, rfl⟩ | hx
  · obtain ⟨task, ht, ho, hp⟩ := h
    rcases modifyTask_cases ht with ⟨-, old, hold, rfl⟩ | ⟨-, hold⟩
    · exact ⟨old, hold, ho, hp⟩
    · exact ⟨task, hold, ho, hp⟩
  · exact hx.awaiting (by simp) h

theorem awaiting_suspend {p : Phase} {w : Wait} {due : List Due} {verdict : Verdict}
    (h : (s.suspend t p w due verdict).Awaiting t) : p = .eligibility := by
  obtain ⟨ready, he⟩ := suspend_eq s t p w due verdict
  rw [he] at h
  obtain ⟨task, ht, -, hp⟩ := h
  rcases modifyTask_cases ht with ⟨-, old, hold, rfl⟩ | ⟨hne, -⟩
  · exact Option.some.inj hp
  · exact absurd rfl hne

theorem not_awaiting_finish (ht : s.tasks[t]? = some task) (o : Outcome) :
    ¬ (s.finish t o).Awaiting t := by
  rintro ⟨new, hnew, ho, -⟩
  have h' := outcome?_finish (u := t) (o := o) ht
  rw [if_pos rfl] at h'
  simp [outcome?, hnew, ho] at h'

theorem takeEligibility_waits {p : Phase} {w : Wait} (h : (s.takeEligibility t).2 = .waits p w) :
    p ≠ .eligibility := by
  rintro rfl
  unfold takeEligibility at h
  split at h
  · split_ifs at h
    · cases h
    · cases h
  · split_ifs at h
    cases h

/-- A start that waits for the answer was the first. -/
theorem beginCall_waits {c : Call} {w : Wait}
    (h : (s.beginCall t c).2 = .waits .eligibility w) :
    s.stage = .created ∧ (s.beginCall t c).1.stage.isUp := by
  have hk := ((block_beginCall (t := t) (s := s) c).waits _ _ h).1
  rw [Call.eq_start_of_kind hk.symm] at h ⊢
  change (s.start t).2 = _ at h
  show _ ∧ (s.start t).1.stage.isUp
  unfold start at h ⊢
  split_ifs at h ⊢ with hs
  · refine ⟨hs, ?_⟩
    dsimp only at h ⊢
    split_ifs at h ⊢
    · rfl
    · exact absurd rfl (takeEligibility_waits h)

theorem continueCall_waits {p q : Phase} {w : Wait}
    (hover : ∀ load, p.load? = some load → s.hasEnded load)
    (h : (s.continueCall t p).2 = .waits q w) : q ≠ .eligibility := by
  rintro rfl
  have hk := ((block_continueCall (t := t) p hover).waits _ _ h).1
  rcases Phase.of_kind_start hk.symm with rfl | ⟨cycle, rfl⟩
  · exact takeEligibility_waits h rfl
  · cases h

/-- A turn that leaves its task waiting for the answer has begun the first start. -/
theorem Turn.awaiting (turn : Turn s t task) (h : (s.resume t).Awaiting t) :
    s.stage = .created ∧ (s.resume t).stage.isUp := by
  refine resume_keeps (P := fun s₁ => s₁.tasks[t]? = some { task with cancelRequested := false } ∧
      (s.stage ≠ .created → s₁.stage ≠ .created))
    (Q := fun s₁ => s₁.Awaiting t → s.stage = .created ∧ s₁.stage.isUp) turn ?_ ?_ ?_ ?_ ?_ h
  · exact fun _ => ⟨task_heed turn.known, id⟩
  · intro p hp hc
    have hover : ∀ load, p.load? = some load → (s.heed t).hasEnded load :=
      fun load hl => turn.loaded_heed hp hl hc
    have hb := block_continueCall (t := t) (s := s.heed t) p hover
    have hw := fun q w => continueCall_waits (t := t) (q := q) (w := w) hover
    generalize (s.heed t).continueCall t p = r at hb hw
    obtain ⟨s₁, q | o⟩ := r
    · exact fun due verdict _ hn => absurd (awaiting_suspend hn) (hw _ _ rfl)
    · exact ⟨hb.moves.task (task_heed turn.known), fun hs => hb.moves.created hs⟩
  · intro p hp hc
    have hb := block_abandonCall (t := t) (s := s.heed t) p
    have hends : ∃ o, ((s.heed t).abandonCall t p).2 = .ends o := by cases p <;> exact ⟨_, rfl⟩
    obtain ⟨o, hends⟩ := hends
    unfold Leads
    rw [hends]
    exact ⟨hb.moves.task (task_heed turn.known), fun hs => hb.moves.created hs⟩
  · rintro s₁ c - ⟨htask, hs₁⟩
    have hb := block_beginCall (t := t) (s := s₁) c
    have hw := fun w => beginCall_waits (s := s₁) (t := t) (c := c) (w := w)
    generalize s₁.beginCall t c = r at hb hw
    obtain ⟨s₂, q | o⟩ := r
    · intro due verdict _ hn
      obtain rfl := awaiting_suspend hn
      obtain ⟨hcreated, hup⟩ := hw _ rfl
      refine ⟨?_, (quiet_suspend _ _ due verdict).steady.up hup⟩
      by_contra hne
      exact hs₁ hne hcreated
    · exact ⟨hb.moves.task htask, fun hs => hb.moves.created (hs₁ hs)⟩
  · exact fun s₁ o hs₁ hn => absurd hn (not_awaiting_finish hs₁.1 o)

theorem Turn.awaiting_iff (turn : Turn s t task) :
    s.Awaiting t ↔ task.phase = some .eligibility := by
  constructor
  · rintro ⟨task', ht, -, hp⟩
    rw [turn.known] at ht
    cases ht
    exact hp
  · exact fun hp => ⟨task, turn.known, turn.live, hp⟩

theorem Sole.aside (h : Sole s) (m : Aside s s') : Sole s' :=
  ⟨fun t ht => m.steady.up (h.up t (m.awaiting ht)),
    fun t u ht hu => h.unique t u (m.awaiting ht) (m.awaiting hu)⟩

theorem Sole.resume (h : Sole s) (turn : Turn s t task) : Sole (s.resume t) := by
  have hother : ∀ u, u ≠ t → (s.resume t).Awaiting u → s.Awaiting u :=
    fun u hu => turn.spares.awaiting fun he => hu (Option.some.inj he).symm
  -- while somebody else waits, this turn neither begins a start nor ends one
  have hup : ∀ u, u ≠ t → s.Awaiting u → s.stage.isUp ∧ (s.resume t).stage.isUp := by
    intro u hne hu
    have hs := h.up u hu
    refine ⟨hs, (turn.steady (Stage.ne_created_of_isUp hs) ?_).up hs⟩
    exact fun hp => hne (h.unique u t hu (turn.awaiting_iff.2 hp))
  refine ⟨fun u hu => ?_, fun u v hu hv => ?_⟩
  · by_cases he : u = t
    · exact (turn.awaiting (he ▸ hu)).2
    · exact (hup u he (hother u he hu)).2
  · have hcreated : ∀ x y, x = t → y ≠ t → (s.resume t).Awaiting x → (s.resume t).Awaiting y →
        False := by
      rintro x y rfl hy hx hay
      exact Stage.ne_created_of_isUp (h.up y (hother y hy hay)) (turn.awaiting hx).1
    by_cases he : u = t
    · by_cases hf : v = t
      · rw [he, hf]
      · exact (hcreated u v he hf hu hv).elim
    · by_cases hf : v = t
      · exact (hcreated v u hf he hv hu).elim
      · exact h.unique u v (hother u he hu) (hother v hf hv)

theorem sole_of_reachable (h : Reachable s) : Sole s := by
  refine h.keeps ?_ (fun _ _ m h => h.aside m) (fun _ _ _ turn h => h.resume turn)
  intro setup host event
  exact ⟨fun t ⟨_, ht, _⟩ => by simp at ht, fun t u ⟨_, ht, _⟩ => by simp at ht⟩

theorem Launched.aside (h : Launched s) (m : Aside s s') : Launched s' :=
  ⟨m.steady.up h.up, fun t ht => h.settled t (m.awaiting ht)⟩

/-- When no start waits and none can begin, none waits after the turn. -/
theorem Turn.settled (turn : Turn s t task) (hs : s.stage ≠ .created) (h : ∀ u, ¬ s.Awaiting u) :
    ∀ u, ¬ (s.resume t).Awaiting u := by
  intro u hu
  by_cases he : u = t
  · exact hs (turn.awaiting (he ▸ hu)).1
  · exact h u (turn.spares.awaiting (fun hs => he (Option.some.inj hs).symm) hu)

theorem Launched.resume (h : Launched s) (turn : Turn s t task) :
    Launched (s.resume t) ∧ Steady s (s.resume t) := by
  have hne := Stage.ne_created_of_isUp h.up
  have hsteady := turn.steady hne fun hp => h.settled t (turn.awaiting_iff.2 hp)
  exact ⟨⟨hsteady.up h.up, turn.settled hne h.settled⟩, hsteady⟩

/-- After a start nothing starts the runner again. -/
theorem Launched.step (h : Launched s) (hreach : Reachable s) (step : Step s s') :
    Launched s' ∧ Steady s s' := by
  refine step.keeps (P := fun s₁ => Launched s₁ ∧ Steady s s₁) ?_ ?_ (tidy_of_reachable hreach)
    ⟨h, .refl s⟩
  · exact fun s₁ s₂ m h₁ => ⟨h₁.1.aside m, h₁.2.trans m.steady⟩
  · intro s₁ t task turn h₁
    obtain ⟨hl, hs⟩ := h₁.1.resume turn
    exact ⟨hl, h₁.2.trans hs⟩

theorem Launched.steps (h : Launched s) (hreach : Reachable s) (steps : Steps s s') :
    Launched s' ∧ Steady s s' := by
  induction steps with
  | refl => exact ⟨h, .refl s⟩
  | tail k step ih =>
    obtain ⟨hl, hs⟩ := ih.1.step (hreach.steps k) step
    exact ⟨hl, ih.2.trans hs⟩

end Awaiting

/-! ## The turn that starts the runner -/

/-- What only a start ends: changes that are quiet, those of the stage and the moves of all other
kinds of tasks keep it. -/
structure Lasting (D : Session → Prop) : Prop where
  quiet : ∀ s s', Quiet s s' → D s → D s'
  stage : ∀ s x, D s → D (s.withStage x)
  moves : ∀ k a s s', k ≠ .start → Moves k a s s' → D s → D s'

/-- The turn of `t` from `s` to `s'` starts the runner: in `s₁`, where nothing that lasts has ended
yet, it learns that the page is not exempt, while no other start waits for that answer. -/
structure Starts (D : Session → Prop) (t : TaskId) (s s₁ s' : Session) : Prop where
  lasting : D s₁
  up : s₁.stage.isUp
  answer : ∃ v, s₁.host.whitelisted = .ok v ∧ v.truthy = false
  alone : ∀ u, u ≠ t → ¬ s.Awaiting u
  eq : ∃ due verdict, s' = s₁.firstCycle.1.suspend t (.firstCycle s₁.tasks.length)
    (.own s₁.tasks.length) due verdict

section Lasting

variable {D : Session → Prop} {s s₁ s' : Session} {t : TaskId} {task : Task} {role : Role}

/-- While `t` has its turn in `s`: the runner has not been started, nor created anew. -/
def Asleep (D : Session → Prop) (s s₁ : Session) : Prop :=
  D s₁ ∧ (s₁.stage = .created → s.stage = .created)

/-- After the turn of `t` in `s`: the runner has not been started, or `t` was the only start. -/
def Woken (D : Session → Prop) (t : TaskId) (s s' : Session) : Prop :=
  D s' ∨ ∃ s₁, Starts D t s s₁ s'

theorem leads_block (hD : Lasting D) {r : Session × Progress} {k : Kind} (hk : k ≠ .start)
    (h : Asleep D s s₁) (hb : Block k t s₁ r) : Leads t role (Asleep D s) (Woken D t s) r := by
  obtain ⟨s₂, p⟩ := r
  have h₂ := hD.moves _ _ _ _ hk hb.moves h.1
  cases p with
  | ends o =>
    refine ⟨h₂, fun hc => ?_⟩
    by_contra hne
    exact hb.moves.created (fun hs₁ => hne (h.2 hs₁)) hc
  | waits p w => exact fun due verdict _ => .inl (hD.quiet _ _ (quiet_suspend p w due verdict) h₂)

theorem asleep_suppress (hD : Lasting D) (h : D s₁) : Asleep D s (s₁.suppress t).1 :=
  ⟨hD.stage _ _ (hD.quiet _ _ (quiet_record (a := some t) rfl) h), fun hc => by cases hc⟩

theorem leads_takeEligibility (hD : Lasting D) (h : Asleep D s s₁) (hup : s₁.stage.isUp)
    (hs : ∀ u, u ≠ t → ¬ s.Awaiting u) :
    Leads t role (Asleep D s) (Woken D t s) (s₁.takeEligibility t) := by
  unfold takeEligibility
  split
  · next v hv =>
    split_ifs with hfalsy
    · exact asleep_suppress hD h.1
    · exact fun due verdict _ =>
        .inr ⟨s₁, h.1, hup, ⟨v, hv, by simpa using hfalsy⟩, hs, due, verdict, rfl⟩
  · split_ifs
    · exact asleep_suppress hD (hD.quiet _ _ (quiet_record (a := some t) rfl) h.1)
    · exact h

theorem leads_start (hD : Lasting D) (hsole : Sole s) (h : Asleep D s s₁) :
    Leads t role (Asleep D s) (Woken D t s) (s₁.start t) := by
  by_cases hc : s₁.stage = .created
  · -- nobody waits for the answer in a session whose runner has not been started
    have hs : ∀ u, u ≠ t → ¬ s.Awaiting u := by
      intro u _ hu
      exact Stage.ne_created_of_isUp (hsole.up u hu) (h.2 hc)
    obtain ⟨s₂, hs₂⟩ : ∃ s₂, s₂ = ((s₁.withStage .initializing).spawn .other
      [⟨.get, false⟩]).1.effect (some t) .askWhitelist := ⟨_, rfl⟩
    have hstart : s₁.start t = if s₂.host.isHeld .whitelist then
        (s₂, .waits .eligibility (.answer .whitelist)) else s₂.takeEligibility t := by
      unfold start
      rw [if_pos hc, hs₂]
    have hup : s₂.stage = .initializing := by rw [hs₂]; rfl
    have hquiet : Quiet (s₁.withStage .initializing) s₂ := by
      rw [hs₂]
      exact quiet_of_concat rfl rfl rfl rfl
    have h₂ : D s₂ := hD.quiet _ _ hquiet (hD.stage _ _ h.1)
    rw [hstart]
    split_ifs
    · exact fun due verdict _ => .inl (hD.quiet _ _ (quiet_suspend _ _ due verdict) h₂)
    · exact leads_takeEligibility hD ⟨h₂, fun hn => by simp [hup] at hn⟩ (by rw [hup]; rfl) hs
  · rw [start_of_ne_created hc]
    exact h

/-- A turn keeps what lasts until the runner is started, or starts it. -/
theorem Lasting.resume (hD : Lasting D) (h : D s) (hsole : Sole s) (turn : Turn s t task) :
    D (s.resume t) ∨ ∃ s₁, Starts D t s s₁ (s.resume t) := by
  have hheed : Asleep D s (s.heed t) := ⟨hD.quiet _ _ quiet_heed h, id⟩
  refine resume_keeps (P := Asleep D s) (Q := Woken D t s) turn (fun _ => hheed) ?_ ?_ ?_ ?_
  · intro p hp hc
    by_cases hk : p.kind = .start
    · rcases Phase.of_kind_start hk with rfl | ⟨cycle, rfl⟩
      · have hwait := turn.awaiting_iff.2 hp
        exact leads_takeEligibility hD hheed (hsole.up t hwait)
          fun u hne hu => hne (hsole.unique u t hu hwait)
      · exact hheed
    · exact leads_block hD hk hheed
        (block_continueCall p fun load hl => turn.loaded_heed hp hl hc)
  · intro p hp hc
    by_cases hk : p.kind = .start
    · rcases Phase.of_kind_start hk with rfl | ⟨cycle, rfl⟩
      · exact hheed
      · exact hheed
    · exact leads_block hD hk hheed (block_abandonCall p)
  · intro s₁ c _ h₁
    by_cases hk : c.kind = .start
    · rw [Call.eq_start_of_kind hk]
      exact leads_start hD hsole h₁
    · exact leads_block hD hk h₁ (block_beginCall c)
  · exact fun s₁ o h₁ => .inl (hD.quiet _ _ (quiet_finish o) h₁.1)

theorem Lasting.aside (hD : Lasting D) (h : D s) (m : Aside s s') : D s' := by
  rcases m.quiet_or_move with hq | m
  · exact hD.quiet _ _ hq h
  · exact hD.moves _ _ _ _ (by decide) (.single m) h

/-- A step keeps what lasts until the runner is started, or is the turn that starts it. -/
theorem Lasting.step (hD : Lasting D) (h : D s) (hreach : Reachable s) (step : Step s s') :
    D s' ∨ ∃ ready t task s₁, Turn { s with ready } t task ∧
      s' = ({ s with ready } : Session).resume t ∧
      Starts D t { s with ready } s₁ (({ s with ready } : Session).resume t) := by
  rcases step.inv (tidy_of_reachable hreach) with m | ⟨ready, t, task, turn, rfl⟩
  · refine .inl ?_
    clear step
    induction m with
    | refl => exact h
    | tail _ m ih => exact hD.aside ih m
  · have hready : Aside s { s with ready } := .turns s s.waiting ready s.pending
    have hsole := (sole_of_reachable hreach).aside hready
    exact (hD.resume (hD.aside h hready) hsole turn).imp_right fun ⟨s₁, hstarts⟩ =>
      ⟨ready, t, task, s₁, turn, rfl, hstarts⟩

/-- When the runner is started it listens, and its first cycle has been scheduled. -/
theorem Starts.fields (h : Starts D t s s₁ s') : s'.stage = s₁.stage ∧ s'.host = s₁.host ∧
    s'.event = s₁.event.add listener ∧
    s'.journal.scheduled = s₁.journal.scheduled ++ [s₁.tasks.length] := by
  obtain ⟨due, verdict, rfl⟩ := h.eq
  have hquiet := quiet_suspend (s := s₁.firstCycle.1) (t := t) (.firstCycle s₁.tasks.length)
    (.own s₁.tasks.length) due verdict
  refine ⟨hquiet.stage, ?_, hquiet.event, hquiet.scheduled.trans ?_⟩
  · obtain ⟨ready, he⟩ := suspend_eq s₁.firstCycle.1 t (.firstCycle s₁.tasks.length)
      (.own s₁.tasks.length) due verdict
    rw [he]
    rfl
  · show Journal.scheduled (s₁.journal ++ [_]) = _
    rw [Journal.scheduled_append]
    rfl

theorem Starts.registered (h : Starts D t s s₁ s')
    (hdeaf : s₁.event.registered.count listener = 0) :
    s'.event.registered.count listener = 1 := by
  rw [h.fields.2.2.1]
  show (s₁.event.registered ++ [listener]).count listener = 1
  rw [List.count_append, hdeaf]
  simp

theorem Starts.launched (h : Starts D t s s₁ (s.resume t)) (turn : Turn s t task) :
    Launched (s.resume t) := by
  refine ⟨h.fields.1 ▸ h.up, fun u hu => ?_⟩
  by_cases he : u = t
  · obtain ⟨due, verdict, heq⟩ := h.eq
    rw [he, heq] at hu
    cases awaiting_suspend hu
  · exact h.alone u he (turn.spares.awaiting (fun hs => he (Option.some.inj hs).symm) hu)

end Lasting

/-! ## Before and after the start -/

/-- The runner does not listen, and no cycle has been scheduled. -/
structure Dormant (s : Session) : Prop where
  undisturbed : s.event.Undisturbed listener
  deaf : s.event.registered.count listener = 0
  scheduled : s.journal.scheduled = []

/-- The runner has just begun to listen, and its first cycle has been scheduled. -/
structure Started (s : Session) : Prop where
  launched : Launched s
  undisturbed : s.event.Undisturbed listener
  registered : s.event.registered.count listener = 1
  scheduled : s.journal.scheduled.length = 1

section Dormant

variable {s s' : Session} {t : TaskId} {task : Task}

theorem Dormant.steady (h : Dormant s) (hs : Steady s s') : Dormant s' := by
  have ht := hs.tally h.undisturbed
  have hdeaf : s'.event.registered.count listener = 0 := by
    have := ht.listens
    rw [h.deaf] at this
    omega
  have hscheduled := ht.scheduled (hdeaf.trans h.deaf.symm)
  rw [h.deaf, h.scheduled] at hscheduled
  refine ⟨ht.undisturbed, hdeaf, List.eq_nil_of_length_eq_zero ?_⟩
  simpa using hscheduled

theorem lasting_dormant : Lasting Dormant :=
  ⟨fun _ _ hq h => h.steady hq.steady, fun _ _ h => ⟨h.undisturbed, h.deaf, h.scheduled⟩,
    fun _ _ _ _ hk m h => h.steady (m.steady hk)⟩

theorem Starts.started {s₁ : Session} (h : Starts Dormant t s s₁ (s.resume t))
    (turn : Turn s t task) : Started (s.resume t) := by
  obtain ⟨-, -, hevent, hscheduled⟩ := h.fields
  have h₁ := h.lasting
  refine ⟨h.launched turn, ?_, h.registered h₁.deaf, ?_⟩
  · rw [hevent]
    exact h₁.undisturbed
  · rw [hscheduled, h₁.scheduled]
    rfl

/-- A step leaves the runner dormant, or starts it. -/
theorem Dormant.step (h : Dormant s) (hreach : Reachable s) (step : Step s s') :
    Dormant s' ∨ Started s' := by
  refine (lasting_dormant.step h hreach step).imp_right ?_
  rintro ⟨ready, t, task, s₁, turn, rfl, hstarts⟩
  exact hstarts.started turn

/-- A session that began undisturbed is dormant until the runner is started. -/
theorem dormant_or_launched (h : Dormant s) (hreach : Reachable s) (steps : Steps s s') :
    Dormant s' ∨ Launched s' ∧ s'.event.Undisturbed listener := by
  induction steps with
  | refl => exact .inl h
  | tail k step ih =>
    have hr := hreach.steps k
    rcases ih with hd | ⟨hl, hu⟩
    · rcases hd.step hr step with hd | hs
      · exact .inl hd
      · exact .inr ⟨hs.launched, hs.undisturbed⟩
    · obtain ⟨hl', hsteady⟩ := hl.step hr step
      exact .inr ⟨hl', (hsteady.tally hu).undisturbed⟩

theorem isListening_iff : s.isListening ↔ 0 < s.event.registered.count listener := by
  simp [isListening, Event.has, List.count_pos_iff]

/-- The step after which the runner listens has started it. -/
theorem started_of_listening (h : Dormant s) (hreach : Reachable s) {u s₀ : Session}
    (steps : Steps s u) (step : Step u s₀) (hbefore : u.isListening = false)
    (hafter : s₀.isListening) : Dormant u ∧ Started s₀ := by
  have hu := hreach.steps steps
  rcases dormant_or_launched h hreach steps with hd | ⟨hl, hq⟩
  · rcases hd.step hu step with hd₀ | hs
    · have hdeaf := hd₀.deaf
      have := isListening_iff.1 hafter
      omega
    · exact ⟨hd, hs⟩
  · have hle := ((hl.step hu step).2.tally hq).listens
    have := isListening_iff.1 hafter
    have hzero : ¬ 0 < u.event.registered.count listener := by
      rw [← isListening_iff, hbefore]
      simp
    omega

end Dormant

end Session

end Snippets
