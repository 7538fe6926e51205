import Snippets.Proofs.Session.Trail

/-!
# Notifications and the cycles they schedule

While nobody disturbs the runner's registration, every emission of the event calls the runner as
often as it is registered, emissions by other listeners included (`emits_emit`). So from one session
to the next as many cycles are scheduled as the event was emitted, or the runner has stopped
listening (`Tally`). Only a start registers the runner: whatever is done without starting it is
`Steady`.
-/

namespace Snippets

/-! ## Emissions -/

namespace Event

/-- No listener fails, or touches the registration of `name`. -/
def Undisturbed (e : Event) (name : Text) : Prop :=
  ∀ l ∈ e.listeners, l.2.fault = none ∧ name ∉ l.2.removes ∧ name ∉ l.2.adds

instance (e : Event) (name : Text) : Decidable (e.Undisturbed name) :=
  inferInstanceAs (Decidable (∀ l ∈ e.listeners, _))

/-- From `e` to `e'` the listener `name` was called `extra` times, and besides once for each time it
is registered in every emission. -/
structure Emits (name : Text) (extra : Nat) (e e' : Event) : Prop where
  undisturbed : e'.Undisturbed name
  registered : e'.registered.count name = e.registered.count name
  emitted : e.emitted ≤ e'.emitted
  calls : e'.calls.count name + e.registered.count name * e.emitted =
    e.calls.count name + extra + e.registered.count name * e'.emitted

section Emits

variable {e e' e'' : Event} {name n : Text} {extra extra' : Nat}

theorem Emits.refl (h : e.Undisturbed name) : Emits name 0 e e :=
  ⟨h, rfl, Nat.le_refl _, by omega⟩

theorem Emits.trans (h : Emits name extra e e') (h' : Emits name extra' e' e'') :
    Emits name (extra + extra') e e'' := by
  refine ⟨h'.undisturbed, h'.registered.trans h.registered, Nat.le_trans h.emitted h'.emitted, ?_⟩
  have hcalls := h.calls
  have hcalls' := h'.calls
  rw [h.registered] at hcalls'
  omega

theorem Undisturbed.listener (h : e.Undisturbed name) (n : Text) :
    (e.listener n).fault = none ∧ name ∉ (e.listener n).removes ∧ name ∉ (e.listener n).adds := by
  unfold Event.listener
  cases hl : e.listeners.lookup n with
  | none => exact ⟨rfl, by simp, by simp⟩
  | some l =>
    obtain ⟨before, after, he, -⟩ := List.lookup_eq_some_iff.1 hl
    exact h (n, l) (by simp [he])

theorem undisturbed_spend (h : e.Undisturbed name) (n : Text) : (e.spend n).Undisturbed name := by
  intro l hl
  obtain ⟨⟨m, old⟩, hold, rfl⟩ := List.mem_map.1 hl
  have := h _ hold
  dsimp only
  split_ifs
  · exact this
  · exact this

/-- Other listeners come and go. -/
theorem count_removes (removes : List Text) (h : name ∉ removes) (e : Event) :
    (removes.foldl remove e).registered.count name = e.registered.count name ∧
      (removes.foldl remove e).listeners = e.listeners ∧
      (removes.foldl remove e).calls = e.calls ∧
      (removes.foldl remove e).emitted = e.emitted := by
  induction removes generalizing e with
  | nil => exact ⟨rfl, rfl, rfl, rfl⟩
  | cons r removes ih =>
    obtain ⟨hr, hrest⟩ := not_or.1 (List.mem_cons.not.1 h)
    obtain ⟨hc, hl, hcalls, hem⟩ := ih hrest (e.remove r)
    refine ⟨hc.trans ?_, hl, hcalls, hem⟩
    exact List.count_erase_of_ne hr

theorem count_adds (adds : List Text) (h : name ∉ adds) (e : Event) :
    (adds.foldl add e).registered.count name = e.registered.count name ∧
      (adds.foldl add e).listeners = e.listeners ∧ (adds.foldl add e).calls = e.calls ∧
      (adds.foldl add e).emitted = e.emitted := by
  induction adds generalizing e with
  | nil => exact ⟨rfl, rfl, rfl, rfl⟩
  | cons a adds ih =>
    obtain ⟨ha, hrest⟩ := not_or.1 (List.mem_cons.not.1 h)
    obtain ⟨hc, hl, hcalls, hem⟩ := ih hrest (e.add a)
    refine ⟨hc.trans ?_, hl, hcalls, hem⟩
    simp [add, Ne.symm ha]

/-- The call of one listener, which may start an emission that is known to count. -/
theorem emits_call {emit : Event → Event × Option Fault}
    (hemit : ∀ e : Event, e.Undisturbed name → (emit e).2 = none ∧ Emits name 0 e (emit e).1)
    (h : e.Undisturbed name) (n : Text) :
    (e.call emit n).2 = none ∧ Emits name (if n = name then 1 else 0) e (e.call emit n).1 := by
  obtain ⟨hf, hr, ha⟩ := h.listener n
  unfold call
  extract_lets l e₁ e₂
  obtain ⟨hrc, hrl, hrcalls, hre⟩ := count_removes l.removes hr e₁
  obtain ⟨hac, hal, hacalls, hae⟩ := count_adds l.adds ha (l.removes.foldl remove e₁)
  have hcalls : e₂.calls.count name = e.calls.count name + if n = name then 1 else 0 := by
    show (l.adds.foldl add _).calls.count name = _
    rw [hacalls, hrcalls]
    simp [e₁, List.count_append, List.count_singleton]
  have hem : e₂.emitted = e.emitted := hae.trans hre
  have hlisteners : e₂.listeners = e.listeners := hal.trans hrl
  have hreg : e₂.registered.count name = e.registered.count name := hac.trans hrc
  have h₂ : Emits name (if n = name then 1 else 0) e e₂ := by
    refine ⟨?_, hreg, Nat.le_of_eq hem.symm, ?_⟩
    · unfold Undisturbed
      rw [hlisteners]
      exact h
    · rw [hcalls, hem]
  rw [show l.fault = none from hf]
  by_cases hzero : l.emissions = 0
  · rw [if_pos hzero]
    exact ⟨rfl, h₂⟩
  · rw [if_neg hzero]
    have hspend : Emits name 0 e₂ (e₂.spend n) :=
      ⟨undisturbed_spend h₂.undisturbed n, rfl, Nat.le_refl _, by simp [spend]⟩
    obtain ⟨hnone, hnested⟩ := hemit (e₂.spend n) hspend.undisturbed
    generalize emit (e₂.spend n) = r at hnone hnested ⊢
    obtain ⟨e₃, fault⟩ := r
    cases hnone
    exact ⟨rfl, h₂.trans (hspend.trans hnested)⟩

theorem emits_deliver {emit : Event → Event × Option Fault}
    (hemit : ∀ e : Event, e.Undisturbed name → (emit e).2 = none ∧ Emits name 0 e (emit e).1)
    (names : List Text) (h : e.Undisturbed name) :
    (deliver emit names e).2 = none ∧ Emits name (names.count name) e (deliver emit names e).1 := by
  induction names generalizing e with
  | nil => exact ⟨rfl, .refl h⟩
  | cons n names ih =>
    obtain ⟨hnone, hcall⟩ := emits_call hemit h n
    unfold deliver
    generalize e.call emit n = r at hnone hcall ⊢
    obtain ⟨e₁, fault⟩ := r
    cases hnone
    obtain ⟨hrest, hdeliver⟩ := ih hcall.undisturbed
    refine ⟨hrest, ?_⟩
    have hcount : (n :: names).count name = (if n = name then 1 else 0) + names.count name := by
      simp [List.count_cons, Nat.add_comm]
    rw [hcount]
    exact hcall.trans hdeliver

theorem emits_emitWithin (depth : Nat) (h : e.Undisturbed name) :
    (emitWithin depth e).2 = none ∧ Emits name 0 e (emitWithin depth e).1 := by
  induction depth generalizing e with
  | zero => exact ⟨rfl, .refl h⟩
  | succ depth ih =>
    have hnested : ∀ e : Event, e.Undisturbed name →
        (emitWithin depth e).2 = none ∧ Emits name 0 e (emitWithin depth e).1 := fun e he => ih he
    obtain ⟨hnone, hd⟩ :=
      emits_deliver (e := { e with emitted := e.emitted + 1 }) hnested e.registered h
    refine ⟨hnone, hd.undisturbed, hd.registered, Nat.le_of_succ_le hd.emitted, ?_⟩
    -- the emission itself accounts for the calls of those who are registered now
    have hcalls := hd.calls
    dsimp only at hcalls
    rw [Nat.mul_succ] at hcalls
    unfold emitWithin
    omega

theorem emits_emit (h : e.Undisturbed name) : e.emit.2 = none ∧ Emits name 0 e e.emit.1 :=
  emits_emitWithin _ h

theorem lt_emitted_emit (h : e.Undisturbed name) : e.emitted < e.emit.1.emitted :=
  (emits_deliver (e := { e with emitted := e.emitted + 1 }) (fun _ => emits_emitWithin _)
    e.registered h).2.emitted

end Emits

end Event

/-- The runner has been started and is not suppressed. -/
def Stage.isUp : Stage → Bool
  | .initializing | .gated | .ready => true
  | .created | .suppressed => false

theorem Stage.ne_created_of_isUp {x : Stage} (h : x.isUp) : x ≠ .created := by
  rintro rfl
  cases h

theorem Stage.ne_suppressed_of_isUp {x : Stage} (h : x.isUp) : x ≠ .suppressed := by
  rintro rfl
  cases h

/-- The cycles that were scheduled, in order. -/
def Journal.scheduled (j : Journal) : List TaskId :=
  j.filterMap fun e =>
    match e.what with
    | .scheduled cycle => some cycle
    | _ => none

def Happening.isScheduling : Happening → Bool
  | .scheduled _ => true
  | _ => false

theorem Journal.scheduled_append (j new : Journal) :
    (j ++ new).scheduled = j.scheduled ++ new.scheduled := List.filterMap_append

theorem Journal.scheduled_append_of_not {j new : Journal}
    (h : ∀ e ∈ new, e.what.isScheduling = false) : (j ++ new).scheduled = j.scheduled := by
  have hnew : new.scheduled = [] := by
    refine List.filterMap_eq_nil_iff.2 fun e he => ?_
    have := h e he
    split
    · next hw =>
      rw [hw] at this
      cases this
    · rfl
  rw [scheduled_append, hnew, List.append_nil]

namespace Session

/-! ## The cycles that are scheduled -/

/-- From `s` to `s'` a cycle was scheduled for each emission and each time the runner is registered,
or it has been removed once. -/
structure Tally (s s' : Session) : Prop where
  undisturbed : s'.event.Undisturbed listener
  listens : s'.event.registered.count listener ≤ s.event.registered.count listener
  emitted : s.event.emitted ≤ s'.event.emitted
  scheduled : s'.event.registered.count listener = s.event.registered.count listener →
    s'.journal.scheduled.length + s.event.registered.count listener * s.event.emitted =
      s.journal.scheduled.length + s.event.registered.count listener * s'.event.emitted

/-- What is kept from `s` to `s'` if the runner is not started in between. -/
structure Steady (s s' : Session) : Prop where
  created : s.stage ≠ .created → s'.stage ≠ .created
  up : s.stage.isUp → s'.stage.isUp
  tally : s.event.Undisturbed listener → Tally s s'

/-- From `s` to `s'` neither the stage nor the event changed, and nothing was scheduled. -/
structure Quiet (s s' : Session) : Prop where
  stage : s'.stage = s.stage
  event : s'.event = s.event
  scheduled : s'.journal.scheduled = s.journal.scheduled

section Steady

variable {s s' s'' : Session} {k : Kind} {a : Option TaskId} {t : TaskId}

theorem Tally.trans (h : Tally s s') (h' : Tally s' s'') : Tally s s'' := by
  refine ⟨h'.undisturbed, Nat.le_trans h'.listens h.listens, Nat.le_trans h.emitted h'.emitted, ?_⟩
  intro heq
  have hsame : s'.event.registered.count listener = s.event.registered.count listener :=
    Nat.le_antisymm h.listens (heq ▸ h'.listens)
  have hfirst := h.scheduled hsame
  have hsecond := h'.scheduled (heq.trans hsame.symm)
  rw [hsame] at hsecond
  omega

theorem Steady.trans (h : Steady s s') (h' : Steady s' s'') : Steady s s'' :=
  ⟨fun hc => h'.created (h.created hc), fun hu => h'.up (h.up hu),
    fun hu => (h.tally hu).trans (h'.tally (h.tally hu).undisturbed)⟩

theorem Quiet.refl (s : Session) : Quiet s s := ⟨rfl, rfl, rfl⟩

theorem Quiet.trans (h : Quiet s s') (h' : Quiet s' s'') : Quiet s s'' :=
  ⟨h'.stage.trans h.stage, h'.event.trans h.event, h'.scheduled.trans h.scheduled⟩

theorem Quiet.steady (h : Quiet s s') : Steady s s' := by
  obtain ⟨hs, he, hj⟩ := h
  refine ⟨fun h => hs ▸ h, fun h => hs ▸ h, fun h => ?_⟩
  rw [← he] at h
  exact ⟨h, Nat.le_of_eq (by rw [he]), Nat.le_of_eq (by rw [he]), fun _ => by rw [he, hj]⟩

theorem Steady.refl (s : Session) : Steady s s := (Quiet.refl s).steady

/-- An entry that schedules nothing. -/
theorem quiet_of_concat (hs : s'.stage = s.stage) (he : s'.event = s.event) {e : Entry}
    (hj : s'.journal = s.journal ++ [e]) (hw : e.what.isScheduling = false) : Quiet s s' := by
  refine ⟨hs, he, ?_⟩
  rw [hj]
  exact Journal.scheduled_append_of_not (by simpa using hw)

theorem scheduleTimes_fields (n : Nat) (s : Session) :
    (scheduleTimes n s).event = s.event ∧ (scheduleTimes n s).stage = s.stage ∧
      (scheduleTimes n s).journal.scheduled.length = s.journal.scheduled.length + n := by
  induction n generalizing s with
  | zero => exact ⟨rfl, rfl, rfl⟩
  | succ n ih =>
    obtain ⟨he, hs, hj⟩ := ih s.schedule.1
    refine ⟨he, hs, hj.trans ?_⟩
    show (Journal.scheduled (s.journal ++ [_])).length + n = _
    rw [Journal.scheduled_append]
    simp [Journal.scheduled]
    omega

/-- A notification schedules a cycle for each emission. -/
theorem steady_notify : Steady s s.notify.1 := by
  have heq : s.notify.1 = scheduleTimes
      (({ s.event with calls := [] } : Event).emit.1.calls.count listener)
      (s.withEvent ({ s.event with calls := [] } : Event).emit.1) := rfl
  obtain ⟨he, hs, hj⟩ := scheduleTimes_fields
    (({ s.event with calls := [] } : Event).emit.1.calls.count listener)
    (s.withEvent ({ s.event with calls := [] } : Event).emit.1)
  rw [← heq] at he hs hj
  refine ⟨fun h => hs ▸ h, fun h => hs ▸ h, fun h => ?_⟩
  have hu : Event.Undisturbed { s.event with calls := [] } listener := h
  obtain ⟨-, hemit⟩ := Event.emits_emit hu
  have hevent : s.notify.1.event = ({ s.event with calls := [] } : Event).emit.1 := he
  generalize ({ s.event with calls := [] } : Event).emit.1 = e at hemit hevent hj
  have hcalls := hemit.calls
  have hregistered := hemit.registered
  rw [← hevent] at hemit hregistered
  refine ⟨hemit.undisturbed, Nat.le_of_eq hregistered, hemit.emitted, fun _ => ?_⟩
  rw [hj, hevent]
  simp only [List.count_nil] at hcalls
  show s.journal.scheduled.length + _ + _ = _
  omega

theorem lt_emitted_notify (h : s.event.Undisturbed listener) :
    s.event.emitted < s.notify.1.event.emitted := by
  have he : s.notify.1.event = ({ s.event with calls := [] } : Event).emit.1 :=
    (scheduleTimes_fields _ (s.withEvent ({ s.event with calls := [] } : Event).emit.1)).1
  rw [he]
  exact Event.lt_emitted_emit (e := { s.event with calls := [] }) h

theorem steady_stop : Steady s s.stop := by
  refine ⟨id, id, fun h => ⟨h, List.erase_sublist.count_le _, Nat.le_refl _, fun _ => rfl⟩⟩

theorem quiet_record {w : Happening} (hw : w.isScheduling = false) : Quiet s (s.record a w) :=
  quiet_of_concat rfl rfl rfl hw

theorem quiet_worked {α : Type} (w : Worked α) : Quiet s (s.worked a w).1 := by
  unfold worked
  dsimp only
  rw [recordAll_eq]
  refine ⟨rfl, rfl, Journal.scheduled_append_of_not fun e he => ?_⟩
  obtain ⟨what, hw, rfl⟩ := List.mem_map.1 he
  rcases List.mem_append.1 hw with hw | hw
  · obtain ⟨x, -, rfl⟩ := List.mem_map.1 hw
    rfl
  · obtain ⟨l, -, rfl⟩ := List.mem_map.1 hw
    rfl

theorem quiet_reset : Quiet s (s.reset a).1 := by
  have hforget : ∀ s : Session, Quiet s (s.forget a) := fun s => quiet_of_concat rfl rfl rfl rfl
  unfold reset
  split_ifs
  · exact .refl s
  · split
    · exact hforget s
    · next r _ =>
      have hw := quiet_worked (s := s) (a := a) (r.close s.host.bench)
      generalize s.worked a (r.close s.host.bench) = q at hw ⊢
      obtain ⟨s', _ | f⟩ := q
      · refine hw.trans (Quiet.trans ?_ (hforget _))
        cases r.isClosable
        · exact .refl s'
        · exact quiet_record rfl
      · exact hw

theorem quiet_attach : Quiet s (s.attach t).1 := by
  have hensure : Quiet s s.ensureLoading.1 := by
    unfold ensureLoading
    split
    · exact .refl s
    · exact ⟨rfl, rfl, rfl⟩
  exact hensure.trans (quiet_record rfl)

/-- A move is a notification, a start or a stop, changes the stage, or is quiet. -/
theorem Move.event_cases (m : Move k a s s') : Quiet s s' ∨ s' = s.notify.1 ∨ s' = s.stop ∨
    (∃ x, s.stage.leads k x ∧ s' = s.withStage x) ∨ k = .start ∧ s' = s.firstCycle.1 := by
  cases m with
  | mark what h =>
    refine .inl (quiet_record ?_)
    cases what <;> simp_all [Happening.isMark, Happening.isScheduling]
  | notify => exact .inr (.inl rfl)
  | stop => exact .inr (.inr (.inl rfl))
  | stage x h => exact .inr (.inr (.inr (.inl ⟨x, h, rfl⟩)))
  | listen hs => exact .inr (.inr (.inr (.inr ⟨hs, rfl⟩)))
  | attach => exact .inl quiet_attach
  | reset => exact .inl quiet_reset
  | queue | receive | compiled => exact .inl (quiet_of_concat rfl rfl rfl rfl)
  | host | want | join => exact .inl ⟨rfl, rfl, rfl⟩

/-- A move that is not part of a start. -/
theorem Move.steady (m : Move k a s s') (hk : k ≠ .start) : Steady s s' := by
  rcases m.event_cases with h | rfl | rfl | ⟨x, h, rfl⟩ | ⟨hs, -⟩
  · exact h.steady
  · exact steady_notify
  · exact steady_stop
  · refine ⟨fun _ => ?_, fun _ => ?_, fun hu => ?_⟩
    · rintro rfl
      cases h
    · show x.isUp
      cases x <;> simp_all [Stage.leads, Stage.isUp]
    · exact ⟨hu, Nat.le_refl _, Nat.le_refl _, fun _ => rfl⟩
  · exact absurd hs hk

theorem Moves.steady (m : Moves k a s s') (hk : k ≠ .start) : Steady s s' := by
  induction m with
  | refl => exact .refl s
  | tail _ m ih => exact ih.trans (m.steady hk)

/-- The runner is created once. -/
theorem Moves.created (m : Moves k a s s') (h : s.stage ≠ .created) : s'.stage ≠ .created := by
  refine m.keep (P := fun s => s.stage ≠ .created) ?_ h
  intro s s' m h
  rcases m.event_cases with hq | rfl | rfl | ⟨x, hl, rfl⟩ | ⟨-, rfl⟩
  · exact hq.steady.created h
  · exact steady_notify.created h
  · exact h
  · rintro rfl
    cases hl
  · exact h

/-- What is not done by a task is quiet, or a move that is not part of a start. -/
theorem Aside.quiet_or_move (m : Aside s s') : Quiet s s' ∨ Move .close none s s' := by
  cases m with
  | move m => exact .inr m
  | spawn | turns => exact .inl ⟨rfl, rfl, rfl⟩
  | tell | note => exact .inl (quiet_of_concat rfl rfl rfl rfl)

theorem Aside.steady (m : Aside s s') : Steady s s' := by
  rcases m.quiet_or_move with hq | m
  · exact hq.steady
  · exact m.steady (by decide)

theorem quiet_heed : Quiet s (s.heed t) := ⟨rfl, rfl, rfl⟩

theorem quiet_suspend (p : Phase) (w : Wait) (due : List Due) (verdict : Verdict) :
    Quiet s (s.suspend t p w due verdict) := by
  obtain ⟨ready, he⟩ := suspend_eq s t p w due verdict
  rw [he]
  exact ⟨rfl, rfl, rfl⟩

theorem quiet_finish (o : Outcome) : Quiet s (s.finish t o) := by
  obtain ⟨-, new, hj, hnew⟩ := extends_finish (s := s) (t := t) (o := o)
  refine ⟨by rw [finish_eq]; rfl, by rw [finish_eq]; rfl, ?_⟩
  rw [hj]
  refine Journal.scheduled_append_of_not fun e he => ?_
  obtain ⟨x, rfl⟩ := hnew e he
  rfl

/-- Once the runner was created and started, another start is refused. -/
theorem start_of_ne_created (h : s.stage ≠ .created) :
    s.start t = (s, .ends (.error .startedTwice)) := by
  unfold start
  rw [if_neg h]

theorem Call.eq_start_of_kind {c : Call} (h : c.kind = .start) : c = .start := by
  cases c <;> simp_all [Call.kind]

theorem Phase.of_kind_start {p : Phase} (h : p.kind = .start) :
    p = .eligibility ∨ ∃ cycle, p = .firstCycle cycle := by
  cases p <;> simp_all [Phase.kind]

/-- The turn of a task that has no start under way and can begin none keeps what quiet changes keep
and moves that are not part of a start. -/
theorem Turn.unstarted {P : Session → Prop} {task : Task} (turn : Turn s t task)
    (hs : s.stage ≠ .created) (hp : task.phase ≠ some .eligibility)
    (hquiet : ∀ s₁ s₂, Quiet s₁ s₂ → P s₁ → P s₂)
    (hmoves : ∀ k s₁ s₂, k ≠ .start → Moves k (some t) s₁ s₂ → P s₁ → P s₂) (h : P s) :
    P (s.resume t) := by
  have hheed : (s.heed t).stage ≠ .created ∧ P (s.heed t) := ⟨hs, hquiet _ _ quiet_heed h⟩
  have hblock : ∀ (s₁ : Session) (r : Session × Progress) (k : Kind), k ≠ .start →
      s₁.stage ≠ .created ∧ P s₁ → Block k t s₁ r →
      Leads t task.role (fun s₂ => s₂.stage ≠ .created ∧ P s₂) P r := by
    rintro s₁ ⟨s₂, p⟩ k hk ⟨hc, h₁⟩ hb
    have h₂ := hmoves k s₁ s₂ hk hb.moves h₁
    cases p with
    | ends o => exact ⟨hb.moves.created hc, h₂⟩
    | waits p w => exact fun due verdict _ => hquiet _ _ (quiet_suspend p w due verdict) h₂
  refine resume_keeps (P := fun s₂ => s₂.stage ≠ .created ∧ P s₂) (Q := P) turn (fun _ => hheed)
    ?_ ?_ ?_ fun s₁ o h₁ => hquiet _ _ (quiet_finish o) h₁.2
  · intro p hphase hc
    by_cases hk : p.kind = .start
    · rcases Phase.of_kind_start hk with rfl | ⟨cycle, rfl⟩
      · exact absurd hphase hp
      · exact hheed
    · exact hblock _ _ _ hk hheed
        (block_continueCall p fun load hl => turn.loaded_heed hphase hl hc)
  · intro p hphase hc
    by_cases hk : p.kind = .start
    · rcases Phase.of_kind_start hk with rfl | ⟨cycle, rfl⟩
      · exact absurd hphase hp
      · exact hheed
    · exact hblock _ _ _ hk hheed (block_abandonCall p)
  · intro s₁ c _ h₁
    by_cases hk : c.kind = .start
    · rw [Call.eq_start_of_kind hk]
      show Leads t task.role _ P (s₁.start t)
      rw [start_of_ne_created h₁.1]
      exact h₁
    · exact hblock _ _ _ hk h₁ (block_beginCall c)

theorem Turn.steady {task : Task} (turn : Turn s t task) (hs : s.stage ≠ .created)
    (hp : task.phase ≠ some .eligibility) : Steady s (s.resume t) :=
  turn.unstarted hs hp (fun _ _ hq h => h.trans hq.steady)
    (fun _ _ _ hk m h => h.trans (m.steady hk)) (.refl s)

end Steady

end Session

end Snippets
