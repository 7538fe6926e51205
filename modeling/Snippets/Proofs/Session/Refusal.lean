import Snippets.Proofs.Session.Launch
import Snippets.Proofs.Session.Suppression

/-!
# When a start is refused

Whether the runner was started is not kept; it is told from the stage, which cycles change as well.
A session has left its first stage exactly if a start has asked whether the page is exempt, or a
cycle has queued rules (`Tracked`). So a start is refused if there was one before, but also if rules
were collected without one (`start_refused_iff`, `not_start_refused_iff`); a refused start changes
nothing.
-/

namespace Snippets

/-- A start asks whether the page is exempt. -/
def Happening.isStart : Happening → Bool
  | .effect e => e = .askWhitelist
  | _ => false

/-- What is done in leaving the first stage. -/
def Happening.isOpening (w : Happening) : Bool := w.isStart || w.isQueueing

namespace Session

/-- A start was accepted. -/
def WasStarted (s : Session) : Prop := ∃ e ∈ s.journal, e.what.isStart

/-- A cycle has queued rules. -/
def HasQueued (s : Session) : Prop := ∃ e ∈ s.journal, e.what.isQueueing

instance (s : Session) : Decidable s.WasStarted :=
  inferInstanceAs (Decidable (∃ e ∈ s.journal, _))

/-- A start by `t` is refused. -/
def Refuses (s : Session) (t : TaskId) : Prop := (s.start t).2 = .ends (.error .startedTwice)

/-- The runner was started, or rules were collected. -/
def Underway (s : Session) : Prop := ∃ e ∈ s.journal, e.what.isOpening

theorem underway_iff {s : Session} : s.Underway ↔ s.WasStarted ∨ s.HasQueued := by
  simp only [Underway, WasStarted, HasQueued, Happening.isOpening, Bool.or_eq_true, and_or_left,
    exists_or]

/-- The first stage was left if and only if that shows in the journal. -/
def Tracked (s : Session) : Prop := s.stage ≠ .created ↔ s.Underway

section Tracked

variable {s s' : Session} {k : Kind} {a : Option TaskId} {t : TaskId} {task : Task} {role : Role}
  {p : Entry → Prop}

theorem Underway.extends (h : s.Underway) (hx : Extends p s s') : s'.Underway := by
  obtain ⟨e, he, hw⟩ := h
  exact ⟨e, hx.mem he, hw⟩

theorem Tracked.same (h : Tracked s) (hs : s'.stage = s.stage) (hx : Extends p s s')
    (hp : ∀ e, p e → e.what.isOpening = false) : Tracked s' := by
  have hunderway : s'.Underway ↔ s.Underway := by
    refine ⟨?_, fun h => h.extends hx⟩
    obtain ⟨-, new, hj, hnew⟩ := hx
    rintro ⟨e, he, hw⟩
    rw [hj] at he
    rcases List.mem_append.1 he with he | he
    · exact ⟨e, he, hw⟩
    · rw [hp e (hnew e he)] at hw
      cases hw
  unfold Tracked
  rw [hs, hunderway]
  exact h

/-- One more entry, which opens nothing. -/
theorem Tracked.concat {e : Entry} (h : Tracked s) (hs : s'.stage = s.stage)
    (hset : s'.setup = s.setup) (hj : s'.journal = s.journal ++ [e])
    (hw : e.what.isOpening = false) : Tracked s' :=
  h.same (p := fun x => x = e) hs (.of_concat hset hj rfl) fun _ hx => hx ▸ hw

/-- Whoever has left the first stage does not come back to it. -/
theorem tracked_of_underway (hs : s.stage ≠ .created) (ho : s.Underway) (m : Moves k a s s') :
    Tracked s' :=
  ⟨fun _ => ho.extends m.extends, fun _ => m.created hs⟩

theorem Tracked.moves (h : Tracked s) (m : Moves k a s s') (hs : s.stage ≠ .created) :
    Tracked s' :=
  tracked_of_underway hs (h.1 hs) m

theorem not_isOpening_of_isOf {w : Happening} (hs : k ≠ .start) (hc : k ≠ .cycle) (h : w.isOf k) :
    w.isOpening = false := by
  cases w with
  | effect e =>
    cases e <;> simp_all [Happening.isOf, Happening.isOpening, Happening.isStart,
      Happening.isQueueing, Effect.isBy]
  | _ => simp_all [Happening.isOf, Happening.isOpening, Happening.isStart, Happening.isQueueing]

/-- Only starts and cycles change the stage. -/
theorem Move.stage_eq (m : Move k a s s') (hs : k ≠ .start) (hc : k ≠ .cycle) :
    s'.stage = s.stage := by
  rcases m.event_cases with hq | rfl | rfl | ⟨x, hl, rfl⟩ | ⟨hk, -⟩
  · exact hq.stage
  · exact (scheduleTimes_fields _ _).2.1
  · rfl
  · cases x <;> simp_all [Stage.leads]
  · exact absurd hk hs

theorem Moves.tracked (m : Moves k a s s') (hs : k ≠ .start) (hc : k ≠ .cycle) (h : Tracked s) :
    Tracked s' :=
  m.keep (fun _ _ m h => h.same (m.stage_eq hs hc) m.extends fun _ he =>
    not_isOpening_of_isOf hs hc he.isOf) h

theorem tracked_suspend (h : Tracked s) (p : Phase) (w : Wait) (due : List Due)
    (verdict : Verdict) : Tracked (s.suspend t p w due verdict) :=
  h.same (quiet_suspend p w due verdict).stage extends_suspend fun _ => False.elim

theorem tracked_finish (h : Tracked s) (o : Outcome) : Tracked (s.finish t o) := by
  refine h.same (quiet_finish o).stage extends_finish ?_
  rintro e ⟨x, rfl⟩
  rfl

theorem Aside.tracked (m : Aside s s') (h : Tracked s) : Tracked s' := by
  cases m with
  | move m => exact Moves.tracked (.single m) (by decide) (by decide) h
  | spawn | turns => exact h.same (p := fun _ => False) rfl (.of_eq rfl rfl) fun _ => False.elim
  | tell | note => exact h.concat rfl rfl rfl rfl

/-! ### Starts -/

/-- A start that is not refused asks whether the page is exempt. -/
theorem start_of_created (hs : s.stage = .created) :
    (s.start t).1.stage ≠ .created ∧ ⟨some t, .effect .askWhitelist⟩ ∈ (s.start t).1.journal ∧
      ¬ s.Refuses t := by
  obtain ⟨s₁, hs₁⟩ : ∃ s₁, s₁ = ((s.withStage .initializing).spawn .other
    [⟨.get, false⟩]).1.effect (some t) .askWhitelist := ⟨_, rfl⟩
  have hstart : s.start t = if s₁.host.isHeld .whitelist then
      (s₁, .waits .eligibility (.answer .whitelist)) else s₁.takeEligibility t := by
    unfold start
    rw [if_pos hs, hs₁]
  have hstage : s₁.stage ≠ .created := by rw [hs₁]; nofun
  have hask : ⟨some t, .effect .askWhitelist⟩ ∈ s₁.journal := by
    rw [hs₁]
    exact List.mem_append_right _ List.mem_cons_self
  have m : Moves .start (some t) s₁ (s₁.takeEligibility t).1 := block_takeEligibility.moves
  unfold Refuses
  rw [hstart]
  split_ifs
  · exact ⟨hstage, hask, nofun⟩
  · refine ⟨m.created hstage, m.extends.mem hask, ?_⟩
    unfold takeEligibility
    split
    · split_ifs <;> nofun
    · next f _ =>
      split_ifs
      · nofun
      · unfold Failure.ofFault
        split <;> nofun

theorem tracked_start (h : Tracked s) : Tracked (s.start t).1 := by
  by_cases hs : s.stage = .created
  · obtain ⟨hstage, hask, -⟩ := start_of_created (t := t) hs
    exact ⟨fun _ => ⟨_, hask, rfl⟩, fun _ => hstage⟩
  · rw [start_of_ne_created hs]
    exact h

theorem refuses_of_ne_created (hs : s.stage ≠ .created) : s.Refuses t := by
  unfold Refuses
  rw [start_of_ne_created hs]

theorem refuses_iff (h : Tracked s) : s.Refuses t ↔ s.Underway :=
  Iff.trans ⟨fun hr hs => (start_of_created hs).2.2 hr, refuses_of_ne_created⟩ h

/-- The turn of a task that is no loading and no cycle. -/
theorem Turn.leads_tracked (turn : Turn s t task) (hr : task.role = .other) (hsole : Sole s)
    (h : Tracked s) :
    Tracked (s.heed t) ∧
    (∀ p, task.phase = some p → task.cancelRequested = false →
      Leads t task.role Tracked Tracked ((s.heed t).continueCall t p)) ∧
    (∀ p, task.phase = some p → task.cancelRequested = true →
      Leads t task.role Tracked Tracked ((s.heed t).abandonCall t p)) ∧
    ∀ s c, task.role.allows c.kind → Tracked s →
      Leads t task.role Tracked Tracked (s.beginCall t c) := by
  have hheed : Tracked (s.heed t) := h
  have hleads : ∀ r : Session × Progress, Tracked r.1 → Leads t task.role Tracked Tracked r := by
    rintro ⟨s₁, p | o⟩ h₁
    · exact fun due verdict _ => tracked_suspend h₁ _ _ due verdict
    · exact h₁
  have hblock : ∀ (s₁ : Session) (r : Session × Progress) (k : Kind), task.role.allows k →
      k ≠ .start → Block k t s₁ r → Tracked s₁ → Leads t task.role Tracked Tracked r := by
    intro s₁ r k hk hs hb h₁
    have hc : k ≠ .cycle := Role.ne_cycle_of_allows (by simp [hr]) hk
    exact hleads r (hb.moves.tracked hs hc h₁)
  refine ⟨hheed, fun p hp hc => ?_, fun p hp hc => ?_, fun s₁ c hk h₁ => ?_⟩
  · by_cases hs : p.kind = .start
    · rcases Phase.of_kind_start hs with rfl | ⟨cycle, rfl⟩
      · -- the runner has been started by the task itself
        have hup := hsole.up t (turn.awaiting_iff.2 hp)
        exact hleads _ (hheed.moves block_takeEligibility.moves (Stage.ne_created_of_isUp hup))
      · exact hheed
    · exact hblock _ _ _ (turn.fits.phase p hp) hs
        (block_continueCall p fun load hl => turn.loaded_heed hp hl hc) hheed
  · by_cases hs : p.kind = .start
    · rcases Phase.of_kind_start hs with rfl | ⟨cycle, rfl⟩
      · exact hheed
      · exact hheed
    · exact hblock _ _ _ (turn.fits.phase p hp) hs (block_abandonCall p) hheed
  · by_cases hs : c.kind = .start
    · rw [Call.eq_start_of_kind hs]
      exact hleads _ (tracked_start h₁)
    · exact hblock _ _ _ hk hs (block_beginCall c) h₁

/-! ### Cycles -/

theorem tracked_takeRules (h : Tracked s) : Tracked (s.takeRules t).1 := by
  have hnote : ∀ l, Tracked (s.note (some t) l) := fun l =>
    Moves.tracked (k := .plain) (moves_note (a := some t) l) (by decide) (by decide) h
  cases hv : s.host.snippets with
  | error f =>
    unfold takeRules
    rw [hv]
    dsimp only
    split_ifs
    · exact hnote _
    · exact h
  | ok v =>
    cases hrules : v.items? with
    | none =>
      unfold takeRules
      simp only [hv, hrules]
      exact hnote _
    | some rules =>
      -- the stage is set and the rules are queued at once
      refine tracked_of_underway (s := s.queueRules t rules) nofun ?_ (moves_queued hv hrules)
      exact ⟨⟨some t, .queued rules⟩, List.mem_append_right _ List.mem_cons_self, rfl⟩

theorem tracked_cycle (h : Tracked s) : Tracked (s.cycle t).1 := by
  unfold cycle
  split_ifs
  · exact h
  · have hask : Tracked (s.effect (some t) .askSnippets) := h.concat rfl rfl rfl rfl
    dsimp only
    split_ifs
    · exact hask
    · exact tracked_takeRules hask

/-- A cycle that has got beyond its rules has queued them. -/
theorem Course.underway {p : Phase} (h : s.Course t (some p)) (hp : p ≠ .rules) : s.Underway := by
  have hmem : ∀ rules, .queued rules ∈ s.journal.trail t → s.Underway :=
    fun rules hq => ⟨_, (Journal.mem_trail.1 hq).1, rfl⟩
  cases p with
  | rules => exact absurd rfl hp
  | loading parsed load =>
    obtain ⟨rules, -, hs⟩ := h
    exact hmem rules (by simp [hs])
  | gate parsed e =>
    obtain ⟨rules, load, o, -, hs⟩ := h
    exact hmem rules (by simp [hs, opening])
  | dispatched r failure =>
    obtain ⟨rules, load, o, before, after, -, hs, -⟩ := h
    exact hmem rules (by simp [hs, opening])
  | _ => cases h

theorem Turn.tracked_cycle {scheduled : Bool} (turn : Turn s t task)
    (hr : task.role = .cycle scheduled) (hcourse : s.Course t task.phase) (h : Tracked s) :
    Tracked (s.resume t) := by
  have hkind : ∀ p, task.phase = some p → p.kind = .cycle :=
    fun p hp => Role.kind_of_allows (hr ▸ turn.fits.phase p hp)
  have hmoves : Moves .cycle (some t) (s.heed t) ((s.heed t).blockOf t task .cycle).1 :=
    (block_blockOf (c := .cycle) hkind fun p load => turn.loaded_heed).moves
  have hheed : Tracked (s.heed t) := h
  have hblock : Tracked ((s.heed t).blockOf t task .cycle).1 := by
    cases hc : task.cancelRequested with
    | true =>
      rw [blockOf_cancelled hc hkind]
      exact hheed
    | false =>
      cases hp : task.phase with
      | none =>
        simp only [blockOf, hp, hc]
        exact Session.tracked_cycle hheed
      | some p =>
        rw [hp] at hcourse
        by_cases hrules : p = .rules
        · subst hrules
          simp only [blockOf, hp, hc]
          exact tracked_takeRules hheed
        · exact hheed.moves hmoves (h.2 (hcourse.underway hrules))
  rw [resume_single turn (c := .cycle) (by rw [hr]; rfl)]
  cases ((s.heed t).blockOf t task .cycle).2 with
  | waits p w => exact tracked_suspend hblock p w _ _
  | ends o => exact tracked_finish hblock o

theorem Turn.tracked_load (turn : Turn s t task) (hr : task.role = .load) (h : Tracked s) :
    Tracked (s.resume t) := by
  refine resume_of_moves (P := Tracked) turn h ?_ ?_ ?_
  · intro k s₁ s₂ hk m _ h₁
    have hload : k = .load := by simpa [hr, Role.allows] using hk
    exact m.tracked (by simp [hload]) (by simp [hload]) h₁
  · exact fun s₁ p w due verdict _ h₁ => tracked_suspend h₁ p w due verdict
  · exact fun s₁ o _ h₁ => tracked_finish h₁ o

theorem Turn.tracked (turn : Turn s t task) (hsole : Sole s) (hrec : Recorded none s)
    (h : Tracked s) : Tracked (s.resume t) := by
  cases hr : task.role with
  | load => exact turn.tracked_load hr h
  | cycle scheduled =>
    exact turn.tracked_cycle hr (hrec.live t task scheduled turn.known nofun hr turn.live) h
  | other =>
    obtain ⟨hheed, hcontinue, habandon, hbegin⟩ := turn.leads_tracked hr hsole h
    exact resume_keeps turn (fun _ => hheed) hcontinue habandon hbegin
      fun s₁ o h₁ => tracked_finish h₁ o

theorem tracked_of_reachable (h : Reachable s) : Tracked s := by
  have hall : Sole s ∧ Recorded none s ∧ Tracked s := by
    refine h.keeps (P := fun s => Sole s ∧ Recorded none s ∧ Tracked s) ?_ ?_ ?_
    · intro setup host event
      have hnew : Reachable { setup, host, event } := .new setup host event
      refine ⟨sole_of_reachable hnew, recorded_of_reachable hnew, ?_⟩
      exact ⟨fun hs => absurd rfl hs, fun ⟨e, he, _⟩ => by cases he⟩
    · exact fun s s' m h => ⟨h.1.aside m, h.2.1.aside m, m.tracked h.2.2⟩
    · exact fun s t task turn h =>
        ⟨h.1.resume turn, h.2.1.resume turn, turn.tracked h.1 h.2.1 h.2.2⟩
  exact hall.2.2

end Tracked

/-- When a start is refused. In the middle of any turn of a task that can start the runner, a start
is refused if and only if there was a start before, or a cycle has queued rules. A refused start
changes nothing, and one that is not refused counts as a start from then on. -/
theorem start_refused_iff {s u : Session} {t : TaskId} {before after : List Job} (h : Reachable s)
    (hr : s.ready = before ++ .resume t :: after) (hrole : s.role? t = some .other)
    (hu : Amid { s with ready := before ++ after } t u) :
    (u.Refuses t ↔ u.WasStarted ∨ u.HasQueued) ∧ (u.Refuses t → (u.start t).1 = u) ∧
      (¬ u.Refuses t → (u.start t).1.WasStarted) := by
  obtain ⟨task, turn⟩ := (tidy_of_reachable h).turn hr
  have hready : Aside s { s with ready := before ++ after } :=
    .turns s s.waiting (before ++ after) s.pending
  have htracked : Tracked u := by
    obtain ⟨hheed, hcontinue, habandon, hbegin⟩ := turn.leads_tracked (role_eq turn.known hrole)
      ((sole_of_reachable h).aside hready) (hready.tracked (tracked_of_reachable h))
    exact hu.keeps turn.known hheed hcontinue habandon hbegin
  refine ⟨(refuses_iff htracked).trans underway_iff, fun hrefused => ?_, fun haccepted => ?_⟩
  · rw [start_of_ne_created (htracked.2 ((refuses_iff htracked).1 hrefused))]
  · have hs : u.stage = .created := by
      by_contra hne
      exact haccepted ((refuses_iff htracked).2 (htracked.1 hne))
    exact ⟨_, (start_of_created hs).2.1, rfl⟩

/-! ## A start that is not the first thing done -/

/-- The small session after a task has run, with a start that is about to begin. -/
def sampleSecond (role : Role) (c : Call) : Session :=
  (sample.acts [.spawn role [⟨c, false⟩]]).settle.acts [.spawn .other [⟨.start, false⟩]]

/-- The runner was started. -/
def sampleRestart : Session := sampleSecond .other .start

/-- Rules were collected, but the runner was not started. -/
def sampleCollected : Session := sampleSecond (.cycle false) .cycle

theorem reachable_sampleSecond {role : Role} {c : Call}
    (h : ∀ s : Session, s.admits (.spawn role [⟨c, false⟩])) :
    Reachable (sampleSecond role c) := by
  have hnew : Reachable sample := .new sample.setup sample.host {}
  refine (hnew.steps (steps_acts ?_ _)).steps (steps_settled_acts ?_ _)
  · simpa using h
  · simp [admits, Call.isOpen]

theorem WasStarted.begins {s : Session} (h : s.WasStarted) (ready : List Job) (t : TaskId) :
    (({ s with ready } : Session).heed t).WasStarted := h

theorem start_refused_iff_sampleRestart :
    sampleRestart.WasStarted ∧
      (({ sampleRestart with ready := [] } : Session).heed 4).Refuses 4 := by
  have hreach : Reachable sampleRestart := reachable_sampleSecond (by simp [admits, Call.isOpen])
  have hready : sampleRestart.ready = [] ++ .resume 4 :: [] := by decide +kernel
  have hstarted : sampleRestart.WasStarted := by decide +kernel
  obtain ⟨hrefused, -⟩ := start_refused_iff hreach hready (by decide +kernel) .begins
  exact ⟨hstarted, hrefused.2 (.inl (hstarted.begins [] 4))⟩

/-- Rules that were collected before the runner was ever started are enough for a start to be
refused. -/
theorem not_start_refused_iff :
    ¬ ∀ (s u : Session) (t : TaskId) (before after : List Job), Reachable s →
      s.ready = before ++ .resume t :: after → s.role? t = some .other →
      Amid { s with ready := before ++ after } t u → (u.Refuses t ↔ u.WasStarted) := by
  intro h
  have hreach : Reachable sampleCollected := reachable_sampleSecond (by simp [admits])
  have hready : sampleCollected.ready = [] ++ .resume 2 :: [] := by decide +kernel
  have hstage : sampleCollected.stage ≠ .created := by decide +kernel
  have hstarted : sampleCollected.WasStarted :=
    (h _ _ 2 [] [] hreach hready (by decide +kernel) .begins).1 (refuses_of_ne_created hstage)
  exact absurd hstarted (by decide +kernel)

end Session

end Snippets
