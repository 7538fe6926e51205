import Snippets.Proofs.Session.Suppression

/-!
# What a suppressed runner leaves behind

A start asks for the external runner before it knows whether the page is exempt, and leaves that to
a task of its own. If that task has its first turn only after the gateway was closed, the runner is
loaded and kept all the same, though nobody is left to close it (`not_stays_closed`).

Otherwise closing is final (`stays_closed`): once the runner is suppressed with no cycle under way
and the gateway has been closed, nothing is fetched or compiled, and no external runner is kept, as
long as no task asks for it. Cycles may still be begun, for they are dismissed before they ask.
-/

namespace Snippets

/-- The work of a loading: it fetches the source of the external runner and compiles it. -/
def Happening.isLoadWork : Happening → Bool
  | .fetching _ | .compiling _ | .compiled _ => true
  | _ => false

namespace Session

/-- Since `s₀` no task but a cycle has asked for the external runner. -/
def Unasked (s₀ s : Session) : Prop :=
  ∀ new, s.journal = s₀.journal ++ new →
    ∀ t load, ⟨some t, .attached load⟩ ∈ new → s.role? t ≠ some .other

/-- The gateway is empty, and has not been worked for since `s₀`. -/
structure Closed (s₀ s : Session) : Prop where
  loading : s.loading = none
  runner : s.runner = none
  growth : Extends (fun e => e.what.isLoadWork = false) s₀ s

section Closed

variable {s₀ s s' : Session} {k : Kind} {a : Option TaskId} {t : TaskId} {task : Task}

/-- What was not done by a later time was not done before. -/
theorem Unasked.before (h : Unasked s₀ s') {ok : Entry → Prop} (hx : Extends ok s s')
    (hr : ∀ t r, s.role? t = some r → s'.role? t = some r) : Unasked s₀ s := by
  obtain ⟨-, more, hj, -⟩ := hx
  intro new hnew t load ht hrole
  refine h (new ++ more) ?_ t load (List.mem_append_left _ ht) (hr t _ hrole)
  rw [hj, hnew, List.append_assoc]

theorem Closed.same (h : Closed s₀ s) (hl : s'.loading = s.loading) (hr : s'.runner = s.runner)
    (hx : Extends (fun e => e.what.isLoadWork = false) s s') : Closed s₀ s' :=
  ⟨hl.trans h.loading, hr.trans h.runner, h.growth.trans hx⟩

theorem not_isLoadWork_of_isOf {w : Happening} (hk : k ≠ .load) (h : w.isOf k) :
    w.isLoadWork = false := by
  cases w <;> simp_all [Happening.isOf, Happening.isLoadWork]

/-- An empty gateway stays empty when it is reset. -/
theorem reset_of_empty (hl : s.loading = none) (hr : s.runner = none) :
    (s.reset a).1 = s.forget a := by
  unfold reset
  rw [if_neg (by simp [isLoading, hl]), hr]

/-- The gateway stays empty in every move but that of a task that asks for the runner. -/
theorem Closed.move (h : Unasked s₀ s → Closed s₀ s) (m : Move k a s s') (hk : k ≠ .load)
    (ha : ∀ t, a = some t → k = .plain ∨ s.role? t = some .other) (hu : Unasked s₀ s') :
    Closed s₀ s' := by
  have hclosed := h (hu.before m.extends fun t r => Moves.role? (.single m))
  have hx : Extends (fun e => e.what.isLoadWork = false) s s' :=
    m.extends.mono fun e he => not_isLoadWork_of_isOf hk he.isOf
  cases m with
  | attach t hat hkc =>
    obtain ⟨-, new, hj, -⟩ := hclosed.growth
    rcases ha t hat with rfl | hr
    · rcases hkc with hkc | hkc <;> cases hkc
    · have hentry : (s.attach t).1.journal =
          s₀.journal ++ (new ++ [⟨some t, .attached (s.attach t).2⟩]) := by
        show s.ensureLoading.1.journal ++ _ = _
        rw [(setup_ensureLoading s).2, hj, List.append_assoc]
        rfl
      have hrole : (s.attach t).1.role? t = some .other :=
        Moves.role? (.single (.attach s t hat hkc)) hr
      exact absurd hrole (hu _ hentry t (s.attach t).2 (by simp))
  | compiled r hkc => exact absurd hkc hk
  | reset hkc =>
    rw [reset_of_empty hclosed.loading hclosed.runner] at hx ⊢
    exact ⟨rfl, rfl, hclosed.growth.trans hx⟩
  | notify =>
    have hfields : s.notify.1.loading = s.loading ∧ s.notify.1.runner = s.runner :=
      notify_keeps (P := fun s' => s'.loading = s.loading ∧ s'.runner = s.runner) ⟨rfl, rfl⟩
        (fun _ _ h => h) fun _ h => h
    exact hclosed.same hfields.1 hfields.2 hx
  | mark | host | stop | stage | listen | want | join | queue | receive =>
    exact hclosed.same rfl rfl hx

theorem Closed.moves (h : Unasked s₀ s → Closed s₀ s) (m : Moves k a s s') (hk : k ≠ .load)
    (ha : ∀ t, a = some t → k = .plain ∨ s.role? t = some .other) (hu : Unasked s₀ s') :
    Closed s₀ s' := by
  induction m with
  | refl => exact h hu
  | tail ms m ih =>
    refine Closed.move ih m hk (fun t hat => ?_) hu
    exact (ha t hat).imp_right fun hr => Moves.role? ms hr

theorem Closed.suspend (h : Closed s₀ s) (p : Phase) (w : Wait) (due : List Due)
    (verdict : Verdict) : Closed s₀ (s.suspend t p w due verdict) := by
  obtain ⟨ready, he⟩ := suspend_eq s t p w due verdict
  rw [he]
  exact h.same rfl rfl (.of_eq rfl rfl)

theorem Closed.finish (h : Closed s₀ s) (o : Outcome) : Closed s₀ (s.finish t o) := by
  have hx : Extends (fun e => e.what.isLoadWork = false) s (s.finish t o) := by
    refine extends_finish.mono ?_
    rintro e ⟨x, rfl⟩
    rfl
  rw [finish_eq] at hx ⊢
  exact h.same rfl rfl hx

theorem Unasked.before_suspend {p : Phase} {w : Wait} {due : List Due} {verdict : Verdict}
    (h : Unasked s₀ (s.suspend t p w due verdict)) : Unasked s₀ s :=
  h.before extends_suspend fun _ _ hr => role?_suspend.trans hr

theorem Unasked.before_finish {o : Outcome} (h : Unasked s₀ (s.finish t o)) : Unasked s₀ s :=
  h.before extends_finish fun _ _ hr => role?_finish.trans hr

theorem Closed.aside (h : Unasked s₀ s → Closed s₀ s) (m : Aside s s') (hu : Unasked s₀ s') :
    Closed s₀ s' := by
  have hclosed := h (hu.before m.extends fun t r hr => ?_)
  · cases m with
    | move m => exact Closed.move h m (by decide) nofun hu
    | spawn | turns => exact hclosed.same rfl rfl (.of_eq rfl rfl)
    | tell | note => exact hclosed.same rfl rfl (.of_concat rfl rfl rfl)
  · cases m with
    | move m => exact Moves.role? (.single m) hr
    | spawn => exact role?_spawn hr
    | tell => exact role?_tell hr
    | note | turns => exact hr

theorem Unasked.before_heed (h : Unasked s₀ (s.heed t)) : Unasked s₀ s :=
  h.before (.of_eq rfl rfl : Extends (fun _ => False) s (s.heed t))
    fun u _ hr => (role?_heed u).trans hr

theorem Unasked.before_resume (turn : Turn s t task) (h : Unasked s₀ (s.resume t)) :
    Unasked s₀ s := by
  refine resume_of_moves (P := fun s₁ => Unasked s₀ s₁ → Unasked s₀ s)
    (Q := fun s₁ => Unasked s₀ s₁ → Unasked s₀ s) turn Unasked.before_heed ?_ ?_ ?_ h
  · exact fun k s₁ s₂ _ m _ hs hu => hs (hu.before m.extends fun _ _ => m.role?)
  · exact fun s₁ p w due verdict _ hs hu => hs hu.before_suspend
  · exact fun s₁ o _ hs hu => hs hu.before_finish

theorem Closed.heed (h : Closed s₀ s) : Closed s₀ (s.heed t) := h.same rfl rfl (.of_eq rfl rfl)

/-- The turn of a task that is neither a loading nor a cycle. -/
theorem Closed.resume_other (h : Closed s₀ s) (turn : Turn s t task) (hr : task.role = .other)
    (hu : Unasked s₀ (s.resume t)) : Closed s₀ (s.resume t) := by
  refine resume_of_moves (P := fun s => Unasked s₀ s → Closed s₀ s)
    (Q := fun s => Unasked s₀ s → Closed s₀ s) turn (fun _ => h.heed) ?_ ?_ ?_ hu
  · intro k s₁ s₂ hk m ht hs
    have hne : k ≠ .load := Role.ne_load_of_allows (by simp [hr]) hk
    refine Closed.moves hs m hne ?_
    rintro u ⟨⟩
    exact .inr (by simp [role?, ht, hr])
  · exact fun s₁ p w due verdict _ hs hq => (hs hq.before_suspend).suspend p w due verdict
  · exact fun s₁ o _ hs hq => (hs hq.before_finish).finish o

/-- The turn of a cycle while the runner is suppressed. -/
theorem Closed.resume_cycle (h : Closed s₀ s) (hush : Hushed s₀ s) (turn : Turn s t task)
    {scheduled : Bool} (hr : task.role = .cycle scheduled) (hu : Unasked s₀ (s.resume t)) :
    Closed s₀ (s.resume t) := by
  obtain ⟨s₁, o, he, m, -, -⟩ :=
    turn.cycle_ends hr hush.stage ((hush.tasks t task turn.known).idle turn.live)
  rw [he] at hu ⊢
  exact (Closed.moves (fun _ => h.heed) m (by decide) (fun _ _ => .inl rfl)
    hu.before_finish).finish o

/-- No loading has a turn while the gateway is empty. -/
theorem Closed.resume (h : Closed s₀ s) (hush : Hushed s₀ s) (hsound : Sound s)
    (turn : Turn s t task) (hu : Unasked s₀ (s.resume t)) : Closed s₀ (s.resume t) := by
  cases hr : task.role with
  | load =>
    have hl := hsound.loading_of_turn turn hr
    rw [h.loading] at hl
    cases hl
  | cycle scheduled => exact h.resume_cycle hush turn hr hu
  | other => exact h.resume_other turn hr hu

/-- What holds of every session after a suppressed runner was left with an empty gateway. -/
structure Shut (s₀ s : Session) : Prop where
  recorded : Recorded none s
  owing : Owing s
  sound : Sound s
  hushed : Hushed s₀ s
  closed : Unasked s₀ s → Closed s₀ s

theorem Shut.aside (h : Shut s₀ s) (m : Aside s s') : Shut s₀ s' :=
  ⟨h.recorded.aside m, h.owing.aside h.recorded m, h.sound.aside m, h.hushed.aside m,
    Closed.aside h.closed m⟩

theorem Shut.resume (h : Shut s₀ s) (turn : Turn s t task) : Shut s₀ (s.resume t) :=
  ⟨h.recorded.resume turn, h.owing.resume h.recorded turn, h.sound.resume turn,
    h.hushed.resume h.owing turn, fun hu =>
      (h.closed (hu.before_resume turn)).resume h.hushed h.sound turn hu⟩

theorem Shut.steps (h : Shut s₀ s) (hreach : Reachable s) (steps : Steps s s') : Shut s₀ s' := by
  induction steps with
  | refl => exact h
  | tail k step ih =>
    exact step.keeps (fun _ _ m h => h.aside m) (fun _ _ _ turn h => h.resume turn)
      (tidy_of_reachable (hreach.steps k)) ih

end Closed

/-! ## Closing -/

section Closing

variable {s : Session} {t : TaskId}

theorem forget_empty (s : Session) (a : Option TaskId) :
    (s.forget a).loading = none ∧ (s.forget a).runner = none := ⟨rfl, rfl⟩

/-- A reset that succeeds leaves the gateway empty. -/
theorem reset_succeeded {a : Option TaskId} (h : (s.reset a).2 = none) :
    (s.reset a).1.loading = none ∧ (s.reset a).1.runner = none := by
  unfold reset at h ⊢
  split_ifs at h ⊢ with hl
  cases hr : s.runner with
  | none => exact forget_empty s a
  | some r =>
    rw [hr] at h
    dsimp only at h ⊢
    generalize s.worked a (r.close s.host.bench) = w at h ⊢
    obtain ⟨s', _ | f⟩ := w
    · exact forget_empty _ a
    · cases h

theorem resetNow_returned {o : Result} (h : (s.resetNow t).2 = .ends (.ok o)) :
    (s.resetNow t).1.loading = none ∧ (s.resetNow t).1.runner = none := by
  have hreset := reset_succeeded (s := s) (a := some t)
  unfold resetNow at h ⊢
  generalize s.reset (some t) = r at h hreset ⊢
  obtain ⟨s', _ | f⟩ := r
  · exact hreset rfl
  · cases h

/-- When closing returns, at once or after it has waited, the gateway is empty. -/
theorem close_returned {o : Result} {r : Session × Progress}
    (hr : r = s.close t ∨ ∃ load, r = s.closeAfter t load) (h : r.2 = .ends (.ok o)) :
    r.1.loading = none ∧ r.1.runner = none := by
  have hnow : ∀ q, q = s.resetNow t → q.2 = .ends (.ok o) →
      q.1.loading = none ∧ q.1.runner = none := by
    rintro q rfl
    exact resetNow_returned
  rcases hr with rfl | ⟨load, rfl⟩
  · unfold close at h ⊢
    split at h
    · split_ifs at h ⊢
      exact hnow _ rfl h
    · exact hnow _ rfl h
  · unfold closeAfter at h ⊢
    split at h
    · split_ifs at h ⊢
      · exact hnow _ rfl h
      · cases h
    · exact hnow _ rfl h

end Closing

/-- When closing returns the gateway is empty. If the runner is suppressed then and no cycle is
under way, the gateway stays empty for good, whatever follows: as long as no task asks for the
external runner, that of the start included, nothing is fetched or compiled, although cycles may
be begun. -/
theorem stays_closed (s : Session) :
    (∀ (t : TaskId) (o : Result) (r : Session × Progress),
      (r = s.close t ∨ ∃ load, r = s.closeAfter t load) → r.2 = .ends (.ok o) →
      r.1.loading = none ∧ r.1.runner = none) ∧
    ∀ s' : Session, Reachable s → s.stage = .suppressed → s.isIdle → s.loading = none →
      s.runner = none → Steps s s' → Unasked s s' →
      s'.loading = none ∧ s'.runner = none ∧
        ∃ new, s'.journal = s.journal ++ new ∧ ∀ e ∈ new, e.what.isLoadWork = false := by
  refine ⟨fun t o r => close_returned, ?_⟩
  intro s' h hs hi hl hr steps hu
  have hshut : Shut s s :=
    ⟨recorded_of_reachable h, owing_of_reachable h, sound_of_reachable h, hushed_of_isIdle hs hi,
      fun _ => ⟨hl, hr, .refl s⟩⟩
  obtain ⟨hloading, hrunner, -, hgrowth⟩ := (hshut.steps h steps).closed hu
  exact ⟨hloading, hrunner, hgrowth⟩

/-! ## An exempt page -/

/-- The small session on an exempt page, after the runner was suppressed and the gateway closed. -/
def sampleClosed : Session :=
  ((sampleExempt .whitelist).acts [.spawn .other [⟨.close, false⟩]]).settle

/-- After that, a notification and one more cycle. -/
def sampleAfterwards : Session :=
  (sampleClosed.acts [.emit, .spawn (.cycle false) [⟨.cycle, false⟩]]).settle

theorem reachable_sampleClosed : Reachable sampleClosed :=
  ((reachable_sampleExempt .whitelist).steps (steps_acts (by simp [admits, Call.isOpen]) _)).steps
    (steps_settle _)

theorem unasked_sampleAfterwards : Unasked sampleClosed sampleAfterwards := by
  intro new hnew t load ht
  have hdrop : sampleAfterwards.journal.drop sampleClosed.journal.length = new := by
    rw [hnew, List.drop_left]
  have hnone : (sampleAfterwards.journal.drop sampleClosed.journal.length).all
      (fun e => !e.what.isStage || e.what.isLate) := by decide +kernel
  rw [hdrop, List.all_eq_true] at hnone
  exact absurd (hnone _ ht) (by simp [Happening.isStage, Happening.isLate])

theorem stays_closed_sampleClosed :
    sampleClosed.stage = .suppressed ∧ sampleClosed.isIdle ∧ sampleClosed.loading = none ∧
      sampleClosed.runner = none ∧ sampleClosed.journal.compiled.length = 1 ∧
      sampleAfterwards.hasEnded 4 ∧ sampleAfterwards.loading = none ∧
      sampleAfterwards.runner = none := by
  have hs : sampleClosed.stage = .suppressed := by decide +kernel
  have hi : sampleClosed.isIdle := by decide +kernel
  have hl : sampleClosed.loading = none := by decide +kernel
  have hr : sampleClosed.runner = none := by decide +kernel
  have steps : Steps sampleClosed sampleAfterwards :=
    (steps_acts (by simp [admits]) _).trans (steps_settle _)
  obtain ⟨hloading, hrunner, -⟩ := (stays_closed sampleClosed).2 sampleAfterwards
    reachable_sampleClosed hs hi hl hr steps unasked_sampleAfterwards
  exact ⟨hs, hi, hl, hr, by decide +kernel, by decide +kernel, hloading, hrunner⟩

/-- The small session on an exempt page, where one task starts the runner and then closes the
gateway, when that task has ended. -/
def sampleHasty : Session :=
  runWhile (fun _ => true) 1 (sample.acts [.arrange (.whitelisted (.bool true)),
    .spawn .other [⟨.start, false⟩, ⟨.close, true⟩]])

theorem reachable_sampleHasty : Reachable sampleHasty := by
  have hnew : Reachable sample := .new sample.setup sample.host {}
  exact (hnew.steps (steps_acts (by simp [admits, Call.isOpen]) _)).steps (steps_runWhile _ _ _)

/-- A start has found the page exempt, the gateway was closed, and nobody does anything any more;
still the external runner is fetched, compiled and kept, by the task that the start has left. -/
theorem not_stays_closed :
    ¬ ∀ (s : Session) (t : TaskId), Reachable s → s.outcome? t = some (.ok .nothing) →
      s.stage = .suppressed → s.isIdle → ⟨some t, .reset⟩ ∈ s.journal → s.loading = none →
      s.runner = none → s.settle.runner = none := by
  intro h
  have hreset : ⟨some 0, .reset⟩ ∈ sampleHasty.journal := List.mem_of_getElem? (i := 2) rfl
  have hend := h sampleHasty 0 reachable_sampleHasty (by decide +kernel) (by decide +kernel)
    (by decide +kernel) hreset (by decide +kernel) (by decide +kernel)
  exact absurd hend (by decide +kernel)

end Session

end Snippets
