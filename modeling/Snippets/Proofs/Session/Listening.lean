import Snippets.Proofs.Session.Launch
import Snippets.Proofs.Session.Suppression

/-!
# When the runner listens

The runner is registered in the turn in which a start learns that the page is not exempt, and in no
other. Whatever is done apart from starts only takes registrations away, and while the runner is not
registered no notification schedules a cycle (`Fades`). So a session is deaf as long as a start may
still come or waits for its answer (`Startable`), remains so if the page is exempt, and after a stop
is silent for good (`listening_lifecycle`). A stop leaves no trace, however: a start that waits for
its answer registers the runner all the same, and an emission that is under way still calls it
(`not_silent_after_stop`).
-/

namespace Snippets

/-! ## Emissions -/

namespace Event

/-- No listener registers `name`. -/
def Foreign (e : Event) (name : Text) : Prop := ∀ l ∈ e.listeners, name ∉ l.2.adds

instance (e : Event) (name : Text) : Decidable (e.Foreign name) :=
  inferInstanceAs (Decidable (∀ l ∈ e.listeners, _))

/-- From `e` to `e'` the listener `name` was not registered again; it was called only if it was
registered in `e`, or is one of `names`. -/
structure Wanes (name : Text) (names : List Text) (e e' : Event) : Prop where
  foreign : e'.Foreign name
  registered : e'.registered.count name ≤ e.registered.count name
  calls : name ∉ names → e.registered.count name = 0 → e'.calls.count name = e.calls.count name

section Wanes

variable {e e' e'' : Event} {name n : Text} {names names' : List Text}

theorem Wanes.refl (h : e.Foreign name) : Wanes name [] e e :=
  ⟨h, Nat.le_refl _, fun _ _ => rfl⟩

theorem Wanes.trans (h : Wanes name names e e') (h' : Wanes name names' e' e'') :
    Wanes name (names ++ names') e e'' := by
  refine ⟨h'.foreign, Nat.le_trans h'.registered h.registered, fun hnot hzero => ?_⟩
  obtain ⟨hn, hn'⟩ := not_or.1 (List.mem_append.not.1 hnot)
  have hzero' : e'.registered.count name = 0 := Nat.le_zero.1 (hzero ▸ h.registered)
  rw [h'.calls hn' hzero', h.calls hn hzero]

theorem Foreign.listener (h : e.Foreign name) (n : Text) : name ∉ (e.listener n).adds := by
  unfold Event.listener
  cases hl : e.listeners.lookup n with
  | none => simp
  | some l =>
    obtain ⟨before, after, he, -⟩ := List.lookup_eq_some_iff.1 hl
    exact h (n, l) (by simp [he])

theorem foreign_spend (h : e.Foreign name) (n : Text) : (e.spend n).Foreign name := by
  intro l hl
  obtain ⟨⟨m, old⟩, hold, rfl⟩ := List.mem_map.1 hl
  have := h _ hold
  dsimp only
  split_ifs
  · exact this
  · exact this

theorem removes_fields (removes : List Text) (e : Event) :
    (removes.foldl remove e).registered.Sublist e.registered ∧
      (removes.foldl remove e).listeners = e.listeners ∧
      (removes.foldl remove e).calls = e.calls := by
  induction removes generalizing e with
  | nil => exact ⟨.refl _, rfl, rfl⟩
  | cons r removes ih =>
    obtain ⟨hr, hl, hcalls⟩ := ih (e.remove r)
    exact ⟨hr.trans List.erase_sublist, hl, hcalls⟩

theorem wanes_call {emit : Event → Event × Option Fault}
    (hemit : ∀ e : Event, e.Foreign name → Wanes name [] e (emit e).1) (h : e.Foreign name)
    (n : Text) : Wanes name [n] e (e.call emit n).1 := by
  unfold call
  extract_lets l e₁ e₂
  obtain ⟨hsub, hrl, hrcalls⟩ := removes_fields l.removes e₁
  obtain ⟨hac, hal, hacalls, -⟩ := count_adds l.adds (h.listener n) (l.removes.foldl remove e₁)
  have h₂ : Wanes name [n] e e₂ := by
    refine ⟨?_, hac ▸ hsub.count_le name, fun hn _ => ?_⟩
    · unfold Foreign
      rw [show e₂.listeners = e.listeners from hal.trans hrl]
      exact h
    · show (l.adds.foldl add _).calls.count name = _
      rw [hacalls, hrcalls]
      have hne : n ≠ name := fun he => hn (by simp [he])
      simp [e₁, List.count_append, hne]
  by_cases hzero : l.emissions = 0
  · rw [if_pos hzero]
    exact h₂
  · rw [if_neg hzero]
    have hspend : Wanes name [] e₂ (e₂.spend n) :=
      ⟨foreign_spend h₂.foreign n, Nat.le_refl _, fun _ _ => rfl⟩
    exact h₂.trans (hspend.trans (hemit (e₂.spend n) hspend.foreign))

theorem wanes_deliver {emit : Event → Event × Option Fault}
    (hemit : ∀ e : Event, e.Foreign name → Wanes name [] e (emit e).1) (names : List Text)
    (h : e.Foreign name) : Wanes name names e (deliver emit names e).1 := by
  induction names generalizing e with
  | nil => exact .refl h
  | cons n names ih =>
    have hcall := wanes_call hemit h n
    unfold deliver
    generalize e.call emit n = r at hcall ⊢
    obtain ⟨e₁, _ | fault⟩ := r
    · exact hcall.trans (ih hcall.foreign)
    · have hrest : Wanes name names e₁ e₁ := ⟨hcall.foreign, Nat.le_refl _, fun _ _ => rfl⟩
      exact hcall.trans hrest

theorem wanes_emitWithin (depth : Nat) (h : e.Foreign name) :
    Wanes name [] e (emitWithin depth e).1 := by
  induction depth generalizing e with
  | zero => exact .refl h
  | succ depth ih =>
    have hd := wanes_deliver (e := { e with emitted := e.emitted + 1 }) (fun e he => ih he)
      e.registered h
    -- whoever is called is registered when the emission begins
    exact ⟨hd.foreign, hd.registered, fun _ hzero => hd.calls (List.count_eq_zero.1 hzero) hzero⟩

theorem wanes_emit (h : e.Foreign name) : Wanes name [] e e.emit.1 := wanes_emitWithin _ h

end Wanes

end Event

/-- The page counts as exempt: the rule source says so, or fails to say. -/
def Host.exempts (h : Host) : Bool :=
  match h.whitelisted with
  | .ok v => v.truthy
  | .error _ => true

namespace Session

/-! ## What is done apart from starts -/

/-- What is done without starting the runner: moves of other kinds, and changes that concern neither
the event nor what is scheduled. -/
def Unstarted : Session → Session → Prop :=
  Relation.ReflTransGen fun s s' => Quiet s s' ∨ ∃ k a, k ≠ .start ∧ Move k a s s'

/-- From `s` to `s'` the runner was not registered again, and no cycle was scheduled unless it was
registered. -/
structure Fades (s s' : Session) : Prop where
  foreign : s'.event.Foreign listener
  registered : s'.event.registered.count listener ≤ s.event.registered.count listener
  scheduled : s.event.registered.count listener = 0 → s'.journal.scheduled = s.journal.scheduled

section Unstarted

variable {s s' s'' : Session} {k : Kind} {a : Option TaskId} {t : TaskId} {task : Task}

theorem Fades.trans (h : Fades s s') (h' : Fades s' s'') : Fades s s'' := by
  refine ⟨h'.foreign, Nat.le_trans h'.registered h.registered, fun hzero => ?_⟩
  rw [h'.scheduled (Nat.le_zero.1 (hzero ▸ h.registered)), h.scheduled hzero]

/-- What changes neither the listeners nor what is scheduled. -/
theorem fades_of_eq (h : s.event.Foreign listener) (he : s'.event = s.event)
    (hj : s'.journal.scheduled = s.journal.scheduled) : Fades s s' :=
  ⟨he ▸ h, Nat.le_of_eq (by rw [he]), fun _ => hj⟩

theorem fades_notify (h : s.event.Foreign listener) : Fades s s.notify.1 := by
  have hemit : Event.Wanes listener [] { s.event with calls := [] }
      ({ s.event with calls := [] } : Event).emit.1 := Event.wanes_emit h
  have heq : s.notify.1 = scheduleTimes
      (({ s.event with calls := [] } : Event).emit.1.calls.count listener)
      (s.withEvent ({ s.event with calls := [] } : Event).emit.1) := rfl
  rw [heq]
  generalize ({ s.event with calls := [] } : Event).emit.1 = e at hemit
  have hevent : (scheduleTimes (e.calls.count listener) (s.withEvent e)).event = e :=
    (scheduleTimes_fields _ _).1
  refine ⟨?_, ?_, fun hzero => ?_⟩
  · rw [hevent]
    exact hemit.foreign
  · rw [hevent]
    exact hemit.registered
  · rw [hemit.calls (by simp) hzero]
    rfl

theorem Move.fades (m : Move k a s s') (hk : k ≠ .start) (h : s.event.Foreign listener) :
    Fades s s' := by
  rcases m.event_cases with hq | rfl | rfl | ⟨x, -, rfl⟩ | ⟨hs, -⟩
  · exact fades_of_eq h hq.event hq.scheduled
  · exact fades_notify h
  · exact ⟨h, List.erase_sublist.count_le _, fun _ => rfl⟩
  · exact fades_of_eq h rfl rfl
  · exact absurd hs hk

theorem Unstarted.fades (m : Unstarted s s') (h : s.event.Foreign listener) : Fades s s' := by
  induction m with
  | refl => exact fades_of_eq h rfl rfl
  | tail _ m ih =>
    refine ih.trans ?_
    rcases m with hq | ⟨k, a, hk, m⟩
    · exact fades_of_eq ih.foreign hq.event hq.scheduled
    · exact m.fades hk ih.foreign

theorem unstarted_quiet (h : Quiet s s') : Unstarted s s' := .single (.inl h)

theorem unstarted_moves (m : Moves k a s s') (hk : k ≠ .start) : Unstarted s s' :=
  Relation.ReflTransGen.mono (fun _ _ m => .inr ⟨k, a, hk, m⟩) s s' m

theorem Aside.unstarted (m : Aside s s') : Unstarted s s' := by
  rcases m.quiet_or_move with hq | m
  · exact unstarted_quiet hq
  · exact unstarted_moves (.single m) (by decide)

theorem isListening_eq_false_iff :
    s.isListening = false ↔ s.event.registered.count listener = 0 := by
  simp [isListening, Event.has, List.count_eq_zero]

end Unstarted

/-! ## No task has a say in whether the page is exempt -/

section Answer

variable {s s' : Session} {k : Kind} {t : TaskId} {task : Task}

theorem whitelisted_worked {α : Type} (a : Option TaskId) (w : Worked α) :
    (s.worked a w).1.host.whitelisted = s.host.whitelisted := by
  unfold worked
  dsimp only
  rw [recordAll_eq]
  rfl

theorem whitelisted_reset (a : Option TaskId) :
    (s.reset a).1.host.whitelisted = s.host.whitelisted := by
  unfold reset
  split_ifs
  · rfl
  · split
    · rfl
    · next r _ =>
      have hw := whitelisted_worked (s := s) a (r.close s.host.bench)
      generalize s.worked a (r.close s.host.bench) = q at hw ⊢
      obtain ⟨s', _ | f⟩ := q
      · cases r.isClosable
        · exact hw
        · exact hw
      · exact hw

theorem Move.whitelisted (m : Move k (some t) s s') :
    s'.host.whitelisted = s.host.whitelisted := by
  cases m with
  | host h _ answer => exact answer.resolve_left (by simp)
  | notify =>
    exact notify_keeps (P := fun s₁ => s₁.host.whitelisted = s.host.whitelisted) rfl
      (fun _ _ h => h) fun _ h => h
  | attach =>
    show s.ensureLoading.1.host.whitelisted = s.host.whitelisted
    unfold ensureLoading
    split
    · rfl
    · rfl
  | reset => exact whitelisted_reset (some t)
  | _ => rfl

theorem Moves.whitelisted (m : Moves k (some t) s s') :
    s'.host.whitelisted = s.host.whitelisted :=
  m.keep (P := fun s₁ => s₁.host.whitelisted = s.host.whitelisted)
    (fun _ _ m h => m.whitelisted.trans h) rfl

theorem Turn.whitelisted (turn : Turn s t task) :
    (s.resume t).host.whitelisted = s.host.whitelisted := by
  refine resume_of_moves (P := fun s₁ => s₁.host.whitelisted = s.host.whitelisted)
    (Q := fun s₁ => s₁.host.whitelisted = s.host.whitelisted) turn rfl ?_ ?_ ?_
  · exact fun k s₁ s₂ _ m _ h => m.whitelisted.trans h
  · intro s₁ p w due verdict _ h
    obtain ⟨ready, he⟩ := suspend_eq s₁ t p w due verdict
    rw [he]
    exact h
  · intro s₁ o _ h
    rw [finish_eq]
    exact h

end Answer

/-! ## Before and after the answer -/

/-- A start can still register the runner: none was accepted so far and no rules were collected, or
one waits to learn whether the page is exempt. -/
def Startable (s : Session) : Prop := s.stage = .created ∨ ∃ t, s.Awaiting t

/-- The runner does not listen, and no cycle has been scheduled. -/
structure Deaf (s : Session) : Prop where
  foreign : s.event.Foreign listener
  unheard : s.event.registered.count listener = 0
  scheduled : s.journal.scheduled = []

/-- In the step from `s` to `s'` the runner was registered: it was started on a page that is not
exempt, and cannot be started again. -/
structure Registers (s s' : Session) : Prop where
  launched : Launched s'
  foreign : s'.event.Foreign listener
  once : s'.event.registered.count listener = 1
  answer : s.host.exempts = false

section Startable

variable {s s' : Session} {t : TaskId} {task : Task}

theorem not_startable_iff : ¬ s.Startable ↔ s.stage ≠ .created ∧ ∀ t, ¬ s.Awaiting t := by
  simp [Startable]

/-- When the runner cannot be started any more, it is not started, and remains so. -/
theorem step_unstarted (h : ¬ s.Startable) (hreach : Reachable s) (step : Step s s') :
    ¬ s'.Startable ∧ Unstarted s s' := by
  refine step.keeps (P := fun s₁ => ¬ s₁.Startable ∧ Unstarted s s₁) ?_ ?_
    (tidy_of_reachable hreach) ⟨h, .refl⟩
  · rintro s₁ s₂ m ⟨h₁, hu⟩
    obtain ⟨hs, ha⟩ := not_startable_iff.1 h₁
    exact ⟨not_startable_iff.2 ⟨m.steady.created hs, fun t ht => ha t (m.awaiting ht)⟩,
      hu.trans m.unstarted⟩
  · rintro s₁ t task turn ⟨h₁, hu⟩
    obtain ⟨hs, ha⟩ := not_startable_iff.1 h₁
    have hp : task.phase ≠ some .eligibility := fun hp => ha t (turn.awaiting_iff.2 hp)
    refine ⟨not_startable_iff.2 ⟨(turn.steady hs hp).created hs, turn.settled hs ha⟩, ?_⟩
    exact turn.unstarted (P := Unstarted s) hs hp (fun _ _ hq h => h.trans (unstarted_quiet hq))
      (fun _ _ _ hk m h => h.trans (unstarted_moves m hk)) hu

theorem steps_unstarted (h : ¬ s.Startable) (hreach : Reachable s) (steps : Steps s s') :
    ¬ s'.Startable ∧ Unstarted s s' := by
  induction steps with
  | refl => exact ⟨h, .refl⟩
  | tail k step ih =>
    obtain ⟨h', hu⟩ := step_unstarted ih.1 (hreach.steps k) step
    exact ⟨h', ih.2.trans hu⟩

theorem Deaf.unstarted (h : Deaf s) (hu : Unstarted s s') : Deaf s' := by
  have hf := hu.fades h.foreign
  exact ⟨hf.foreign, Nat.le_zero.1 (h.unheard ▸ hf.registered),
    (hf.scheduled h.unheard).trans h.scheduled⟩

theorem lasting_deaf : Lasting Deaf :=
  ⟨fun _ _ hq h => h.unstarted (unstarted_quiet hq),
    fun _ _ h => ⟨h.foreign, h.unheard, h.scheduled⟩,
    fun _ _ _ _ hk m h => h.unstarted (unstarted_moves m hk)⟩

theorem Starts.registers {s₁ : Session} (h : Starts Deaf t s s₁ (s.resume t))
    (turn : Turn s t task) : Registers s (s.resume t) := by
  obtain ⟨-, hhost, hevent, -⟩ := h.fields
  have h₁ := h.lasting
  refine ⟨h.launched turn, ?_, h.registered h₁.unheard, ?_⟩
  · rw [hevent]
    exact h₁.foreign
  · -- the answer is the same all through the turn
    obtain ⟨v, hv, hfalsy⟩ := h.answer
    have hanswer : s.host.whitelisted = .ok v := by rw [← turn.whitelisted, hhost, hv]
    unfold Host.exempts
    rw [hanswer]
    exact hfalsy

/-- A step leaves the runner deaf, or registers it. -/
theorem Deaf.step (h : Deaf s) (hreach : Reachable s) (step : Step s s') :
    Deaf s' ∨ Registers s s' := by
  refine (lasting_deaf.step h hreach step).imp_right ?_
  rintro ⟨ready, t, task, s₁, turn, rfl, hstarts⟩
  obtain ⟨hlaunched, hforeign, honce, hanswer⟩ := hstarts.registers turn
  exact ⟨hlaunched, hforeign, honce, hanswer⟩

theorem Registers.not_startable (h : Registers s s') : ¬ s'.Startable :=
  not_startable_iff.2 ⟨Stage.ne_created_of_isUp h.launched.up, h.launched.settled⟩

/-- The runner is deaf, or it cannot be started any more and is registered at most once. -/
theorem deaf_or_registered (h : Deaf s) (hreach : Reachable s) (steps : Steps s s') :
    Deaf s' ∨ ¬ s'.Startable ∧ s'.event.Foreign listener ∧
      s'.event.registered.count listener ≤ 1 := by
  induction steps with
  | refl => exact .inl h
  | tail k step ih =>
    have hr := hreach.steps k
    rcases ih with hd | ⟨hs, hf, hone⟩
    · rcases hd.step hr step with hd' | hreg
      · exact .inl hd'
      · exact .inr ⟨hreg.not_startable, hreg.foreign, Nat.le_of_eq hreg.once⟩
    · obtain ⟨hs', hu⟩ := step_unstarted hs hr step
      have hfades := hu.fades hf
      exact .inr ⟨hs', hfades.foreign, Nat.le_trans hfades.registered hone⟩

end Startable

/-- The life of the runner's registration. Let `s` be any session of a runner that no other listener
registers. The runner is registered at most once. While it can still be started it does not listen,
and no cycle has been scheduled. If the step that settles whether it is started finds the page
exempt, it never listens and no cycle is ever scheduled. Once it cannot be started any more, that
remains so, and all that follows is done without starting it. Whatever is done without starting it,
a stop ends its listening, and when it does not listen, it does not listen again and no notification
schedules a cycle. -/
theorem listening_lifecycle {setup : Setup} {host : Host} {event : Event} {s : Session}
    (hevent : event.Foreign listener) (hnew : event.has listener = false)
    (steps : Steps { setup, host, event } s) :
    s.event.registered.count listener ≤ 1 ∧
    (s.Startable → s.isListening = false ∧ s.journal.scheduled = []) ∧
    (∀ s' s'', s.Startable → Step s s' → ¬ s'.Startable → s.host.exempts → Steps s' s'' →
      s''.isListening = false ∧ s''.journal.scheduled = []) ∧
    (¬ s.Startable → ∀ s', Steps s s' → ¬ s'.Startable ∧ Unstarted s s') ∧
    ∀ u, Unstarted s u → u.stop.isListening = false ∧
      (u.isListening = false → ∀ v, Unstarted u v →
        v.isListening = false ∧ v.journal.scheduled = u.journal.scheduled) := by
  have hdeaf : Deaf { setup, host, event } :=
    ⟨hevent, by simpa [Event.has, List.count_eq_zero] using hnew, rfl⟩
  have hreach₀ : Reachable { setup, host, event } := .new setup host event
  have hreach := hreach₀.steps steps
  have hstate := deaf_or_registered hdeaf hreach₀ steps
  have hstartable : s.Startable → Deaf s := fun hs => hstate.resolve_right fun h => h.1 hs
  obtain ⟨hforeign, hone⟩ : s.event.Foreign listener ∧ s.event.registered.count listener ≤ 1 := by
    rcases hstate with hd | ⟨-, hf, hone⟩
    · exact ⟨hd.foreign, hd.unheard ▸ Nat.zero_le 1⟩
    · exact ⟨hf, hone⟩
  have hquiet : ∀ {u : Session}, Deaf u → u.isListening = false ∧ u.journal.scheduled = [] :=
    fun hd => ⟨isListening_eq_false_iff.2 hd.unheard, hd.scheduled⟩
  refine ⟨hone, fun hs => hquiet (hstartable hs), ?_, fun hs s' => steps_unstarted hs hreach, ?_⟩
  · intro s' s'' hs step hs' hexempt after
    rcases (hstartable hs).step hreach step with hd | hreg
    · exact hquiet (hd.unstarted (steps_unstarted hs' (.step hreach step) after).2)
    · rw [hreg.answer] at hexempt
      cases hexempt
  · intro u hu
    have hfades := hu.fades hforeign
    refine ⟨isListening_eq_false_iff.2 ?_, fun hdeaf v hv => ?_⟩
    · show (u.event.registered.erase listener).count listener = 0
      rw [List.count_erase_self]
      have := hfades.registered
      omega
    · have hv' := hv.fades hfades.foreign
      have hzero := isListening_eq_false_iff.1 hdeaf
      exact ⟨isListening_eq_false_iff.2 (Nat.le_zero.1 (hzero ▸ hv'.registered)),
        hv'.scheduled hzero⟩

/-! ## Stops that come too early -/

/-- The small session while a start waits to learn whether the page is exempt. -/
def sampleAwaiting : Session :=
  (sample.acts [.hold .whitelist, .spawn .other [⟨.start, false⟩]]).settle

/-- The runner was stopped before the answer, which is that the page is not exempt. -/
def sampleStopped : Session := (sampleAwaiting.stop.acts [.release .whitelist]).settle

/-- The listeners of a session in which another listener stops the runner when it is called. -/
def guarded : Event where
  listeners := [(text "guard", { removes := [listener] })]
  registered := [text "guard"]

/-- The small session with such a listener, after the runner was started. -/
def sampleGuarded : Session :=
  (({ sample with event := guarded } : Session).acts [.spawn .other [⟨.start, false⟩]]).settle

theorem reachable_sampleAwaiting : Reachable sampleAwaiting := by
  have hnew : Reachable sample := .new sample.setup sample.host {}
  exact (hnew.steps (steps_acts (by simp [admits, Call.isOpen]) _)).steps (steps_settle _)

theorem steps_sampleGuarded :
    Steps { setup := sample.setup, host := sample.host, event := guarded } sampleGuarded :=
  (steps_acts (by simp [admits, Call.isOpen]) _).trans (steps_settle _)

theorem listening_lifecycle_sampleGuarded :
    sampleGuarded.isListening ∧ sampleGuarded.notify.1.isListening = false ∧
      sampleGuarded.notify.1.journal.scheduled ≠ sampleGuarded.journal.scheduled ∧
      sampleGuarded.notify.1.notify.1.journal.scheduled =
        sampleGuarded.notify.1.journal.scheduled := by
  have hnotify : ∀ s : Session, Unstarted s s.notify.1 :=
    fun s => unstarted_moves (moves_notify (k := .plain) (a := none)) (by decide)
  have hstopped : sampleGuarded.notify.1.isListening = false := by decide +kernel
  obtain ⟨-, -, -, -, hsilent⟩ :=
    listening_lifecycle (by decide +kernel) (by decide +kernel) steps_sampleGuarded
  obtain ⟨-, hlater⟩ := hsilent _ (hnotify sampleGuarded)
  refine ⟨by decide +kernel, hstopped, by decide +kernel, ?_⟩
  exact (hlater hstopped _ (hnotify _)).2

/-- A stop is forgotten if a start waits for its answer at that moment: notifications schedule
cycles later on. And a notification in which another listener stops the runner before its turn
schedules a cycle all the same. -/
theorem not_silent_after_stop :
    (¬ ∀ s s' : Session, Reachable s → s.event.listeners = [] → Steps s.stop s' →
      s'.notify.1.journal.scheduled = s'.journal.scheduled) ∧
    ¬ ∀ (s : Session) (guard : Text) (rest : List Text), Reachable s →
      s.event.Foreign listener → s.event.registered.count listener ≤ 1 →
      s.event.registered = guard :: rest → listener ∈ (s.event.listener guard).removes →
      s.notify.1.journal.scheduled = s.journal.scheduled := by
  constructor
  · intro h
    have steps : Steps sampleAwaiting.stop sampleStopped :=
      (steps_acts (by simp [admits]) _).trans (steps_settle _)
    have hsilent := h sampleAwaiting sampleStopped reachable_sampleAwaiting (by decide +kernel)
      steps
    exact absurd hsilent (by decide +kernel)
  · intro h
    have hreach : Reachable sampleGuarded :=
      (Reachable.new sample.setup sample.host guarded).steps steps_sampleGuarded
    have hsilent := h sampleGuarded (text "guard") [listener] hreach (by decide +kernel)
      (by decide +kernel) (by decide +kernel) (by decide +kernel)
    exact absurd hsilent (by decide +kernel)

end Session

end Snippets
