import Snippets.Proofs.Session.Askers
import Snippets.Proofs.Session.Suppression

/-!
# Draining

The end of a task is processed by a job of its own, after the task has ended. A scheduled cycle is
pending until then, and nothing else is (`Accounted`). Whoever drains waits for the cycles that are
pending, and looks again when all of them have ended; no cycle among these can end without a job
that tells of it (`Joining`). So to drain is to wait until every cycle has ended that was scheduled
by then, and how they ended makes no difference to it (`drain_drains`).
-/

namespace Snippets

/-- The task whose end a job processes. -/
def Job.settles? : Job → Option TaskId
  | .settled t => some t
  | _ => none

namespace Session

/-- The tasks that have ended and whose end is still to be processed. -/
def settling (s : Session) : List TaskId := s.ready.filterMap Job.settles?

/-- Whether a task has ended and its end has been processed. -/
def isSettled (s : Session) (t : TaskId) : Bool := s.hasEnded t && !s.settling.contains t

/-! ## What is added -/

/-- From `s` to `s'` the cycles that are pending and the jobs were only added to, no end of a task
is to be processed that was not before, and the same tasks wait. -/
structure Adds (s s' : Session) : Prop where
  waiting : s'.waiting = s.waiting
  pending : s.pending <+: s'.pending
  ready : ∃ new, s'.ready = s.ready ++ new ∧ ∀ j ∈ new, j.settles? = none

section Adds

variable {s s' s'' : Session} {k : Kind} {a : Option TaskId} {t : TaskId}

theorem Adds.same (hw : s'.waiting = s.waiting) (hp : s'.pending = s.pending)
    (hr : s'.ready = s.ready) : Adds s s' :=
  ⟨hw, hp ▸ List.prefix_refl _, [], by simp [hr], by simp⟩

theorem Adds.trans (h : Adds s s') (h' : Adds s' s'') : Adds s s'' := by
  obtain ⟨hw, hp, new, hr, hnew⟩ := h
  obtain ⟨hw', hp', new', hr', hnew'⟩ := h'
  refine ⟨hw'.trans hw, hp.trans hp', new ++ new', by rw [hr', hr, List.append_assoc], ?_⟩
  intro j hj
  rcases List.mem_append.1 hj with hj | hj
  · exact hnew j hj
  · exact hnew' j hj

theorem adds_spawn (role : Role) (due : List Due) : Adds s (s.spawn role due).1 :=
  ⟨rfl, List.prefix_refl _, [.resume s.tasks.length], rfl, by simp [Job.settles?]⟩

theorem adds_schedule : Adds s s.schedule.1 :=
  ⟨rfl, List.prefix_append _ _, [.resume s.tasks.length], rfl, by simp [Job.settles?]⟩

theorem Move.adds (m : Move k a s s') : Adds s s' := by
  cases m with
  | notify =>
    exact notify_keeps (P := Adds s) (.same rfl rfl rfl) (fun _ _ h => h.trans (.same rfl rfl rfl))
      fun _ h => h.trans adds_schedule
  | listen => exact adds_schedule.trans (.same rfl rfl rfl)
  | want => exact adds_spawn _ _
  | join t cs => exact ⟨rfl, List.prefix_refl _, cs.map (.joined t), rfl, by simp [Job.settles?]⟩
  | attach t =>
    have hensure : Adds s s.ensureLoading.1 := by
      unfold ensureLoading
      split
      · exact .same rfl rfl rfl
      · exact (adds_spawn _ _).trans (.same rfl rfl rfl)
    exact hensure.trans (.same rfl rfl rfl)
  | reset =>
    obtain ⟨-, hw, hr, hp, -⟩ := reset_fields s a
    exact .same hw hp hr
  | mark | host | stop | stage | queue | receive | compiled => exact .same rfl rfl rfl

theorem Moves.adds (m : Moves k a s s') : Adds s s' := by
  induction m with
  | refl => exact .same rfl rfl rfl
  | tail _ m ih => exact ih.trans m.adds

theorem Adds.settling (h : Adds s s') : s'.settling = s.settling := by
  obtain ⟨new, hr, hnew⟩ := h.ready
  rw [Session.settling, hr, List.filterMap_append, List.filterMap_eq_nil_iff.2 hnew,
    List.append_nil]
  rfl

theorem settling_suspend (p : Phase) (w : Wait) (due : List Due) (verdict : Verdict) :
    (s.suspend t p w due verdict).settling = s.settling := by
  unfold suspend
  dsimp only
  split
  · show (s.ready ++ [Job.relay t]).filterMap Job.settles? = _
    rw [List.filterMap_append]
    exact List.append_nil _
  · rfl

/-- To tell those who wait that a task has ended is not to process its end. -/
theorem settles?_wakeUp (waiting : List (TaskId × Wait)) :
    (waiting.filterMap (wakeUp? t)).filterMap Job.settles? = [] := by
  refine List.filterMap_eq_nil_iff.2 fun j hj => ?_
  obtain ⟨⟨u, w⟩, -, hw⟩ := List.mem_filterMap.1 hj
  cases w <;> simp [wakeUp?] at hw <;> (obtain ⟨-, rfl⟩ := hw; rfl)

theorem settling_finish (o : Outcome) : (s.finish t o).settling = s.settling ++ [t] := by
  rw [finish_eq]
  show (s.ready ++ [Job.settled t] ++ s.waiting.filterMap (wakeUp? t)).filterMap Job.settles? = _
  rw [List.filterMap_append, List.filterMap_append, settles?_wakeUp, List.append_nil]
  rfl

theorem pending_suspend (p : Phase) (w : Wait) (due : List Due) (verdict : Verdict) :
    (s.suspend t p w due verdict).pending = s.pending := by
  obtain ⟨ready, he⟩ := suspend_eq s t p w due verdict
  rw [he]
  rfl

theorem pending_finish (o : Outcome) : (s.finish t o).pending = s.pending := by
  rw [finish_eq]
  rfl

/-- In its turn a task adds to the pending cycles only. -/
theorem Turn.pending {task : Task} (turn : Turn s t task) : s.pending <+: (s.resume t).pending := by
  refine resume_of_moves (P := fun s₁ => s.pending <+: s₁.pending)
    (Q := fun s₁ => s.pending <+: s₁.pending) turn (List.prefix_refl _) ?_ ?_ ?_
  · exact fun k s₁ s₂ _ m _ h => h.trans m.adds.pending
  · exact fun s₁ p w due verdict _ h => (pending_suspend p w due verdict).symm ▸ h
  · exact fun s₁ o _ h => (pending_finish (t := t) o).symm ▸ h

end Adds

/-! ## Commands -/

/-- A change that a command makes or the relay of a shared end: a move, a new task that is no
scheduled cycle, or a task that is told to give up or is woken. -/
inductive Nudge : Session → Session → Prop where
  | move {s s' : Session} (m : Move .close none s s') : Nudge s s'
  | spawn (s : Session) (role : Role) (due : List Due) (hr : role ≠ .cycle true) :
      Nudge s (s.spawn role due).1
  | tell (s : Session) (t : TaskId) : Nudge s (s.tell t)
  | wake (s : Session) (t : TaskId) : Nudge s (s.wake t)

abbrev Nudges : Session → Session → Prop := Relation.ReflTransGen Nudge

section Nudge

variable {s s' : Session}

theorem Moves.nudges (m : Moves .close none s s') : Nudges s s' :=
  Relation.ReflTransGen.mono (fun _ _ m => Nudge.move m) s s' m

theorem nudges_cancelOne (s : Session) (t : TaskId) : Nudges s (s.cancelOne t) := by
  have htell : Nudges s (s.tell t) := .single (.tell s t)
  rcases cancelOne_cases s t with ⟨-, he⟩ | ⟨-, he | ⟨he, -⟩⟩ <;> rw [he]
  · exact htell
  · exact htell.tail (.wake _ t)

theorem nudges_cancel (t : TaskId) : Nudges s (s.cancel t) := by
  have hall : ∀ (cs : List TaskId) (s : Session), Nudges s (cs.foldl cancelOne s) := by
    intro cs
    induction cs with
    | nil => exact fun s => .refl
    | cons c cs ih => exact fun s => (nudges_cancelOne s c).trans (ih _)
  unfold cancel
  split
  · exact nudges_cancelOne s _
  · exact (nudges_cancelOne s t).trans (hall _ _)
  · exact nudges_cancelOne s t

theorem nudges_release (q : Question) : Nudges s (s.release q) := by
  have hall : ∀ (ws : List (TaskId × Wait)) (s : Session),
      Nudges s (ws.foldl (fun s w => s.wake w.1) s) := by
    intro ws
    induction ws with
    | nil => exact fun s => .refl
    | cons w ws ih => exact fun s => .head (.wake s w.1) (ih _)
  exact (Relation.ReflTransGen.single (.move (.host s _ (.refl _) (.inl rfl)))).trans (hall _ _)

theorem nudges_act {c : Command} (hc : s.admits c) : Nudges s (s.act c).1 := by
  cases c with
  | spawn role due => exact .single (.spawn s role due (fits_of_admits hc).2.2)
  | cancel t => exact nudges_cancel t
  | stop => exact moves_stop.nudges
  | reset => exact .single (.move (.reset s rfl))
  | emit => exact moves_notify.nudges
  | reload snippets => exact (moves_reload snippets).nudges
  | arrange a => exact .single (.move (.host s _ (precedes_arrange s.host a) (.inl rfl)))
  | mutate => exact (moves_onPage _).nudges
  | hold q => exact .single (.move (.host s _ (.refl _) (.inl rfl)))
  | release q => exact nudges_release q

theorem nudges_relay (t : TaskId) : Nudges s (s.relay t) := by
  unfold relay
  split
  · exact .single (.wake s t)
  · split_ifs
    · exact .single (.wake s t)
    · exact .refl
  · exact .refl

end Nudge

/-! ## The pending cycles -/

/-- The pending cycles are those that were scheduled and are not settled; and the end of a task is
processed once, after it has ended. -/
structure Accounted (s : Session) : Prop where
  nodup : s.pending.Nodup
  mem : ∀ c, c ∈ s.pending ↔ s.role? c = some (.cycle true) ∧ s.isSettled c = false
  once : s.settling.Nodup
  ended : ∀ t ∈ s.settling, s.hasEnded t

section Accounted

variable {s s' : Session} {k : Kind} {a : Option TaskId} {t u : TaskId} {task : Task}
  {before after : List Job} {j : Job}

theorem Accounted.congr (h : Accounted s) (hp : s'.pending = s.pending)
    (hr : ∀ c, s'.role? c = some (.cycle true) ↔ s.role? c = some (.cycle true))
    (he : ∀ c, s'.hasEnded c = s.hasEnded c) (hs : s'.settling = s.settling) : Accounted s' := by
  refine ⟨hp ▸ h.nodup, fun c => ?_, hs ▸ h.once, fun t ht => ?_⟩
  · rw [hp, h.mem c, hr c, isSettled, isSettled, he c, hs]
  · rw [he t]
    exact h.ended t (hs ▸ ht)

theorem hasEnded_of_tasks (h : s'.tasks = s.tasks) (t : TaskId) :
    s'.hasEnded t = s.hasEnded t := by
  rw [hasEnded, hasEnded, outcome?, outcome?, h]

/-- The account is a matter of the tasks, the pending cycles and the ends to be processed. -/
theorem Accounted.same (h : Accounted s) (ht : s'.tasks = s.tasks) (hp : s'.pending = s.pending)
    (hs : s'.settling = s.settling) : Accounted s' := by
  refine h.congr hp (fun c => ?_) (hasEnded_of_tasks ht) hs
  rw [role?, role?, ht]

theorem Accounted.modify (h : Accounted s) {f : Task → Task}
    (hrole : ∀ task, (f task).role = task.role) (hout : ∀ task, (f task).outcome = task.outcome) :
    Accounted (s.modifyTask t f) :=
  h.congr rfl (fun c => by rw [role?_modifyTask hrole]) (fun c => hasEnded_modifyTask hout) rfl

theorem Accounted.spawn (h : Accounted s) {role : Role} (hr : role ≠ .cycle true)
    (due : List Due) : Accounted (s.spawn role due).1 := by
  refine h.congr rfl (fun c => ?_) (hasEnded_spawn s role due) (adds_spawn role due).settling
  rw [role?_spawn_iff]
  constructor
  · rintro (hc | ⟨-, hc⟩)
    · exact hc
    · exact absurd hc.symm hr
  · exact .inl

theorem Accounted.schedule (h : Accounted s) : Accounted s.schedule.1 := by
  have hended : ∀ c, s.schedule.1.hasEnded c = s.hasEnded c := hasEnded_spawn s _ _
  have hsettling : s.schedule.1.settling = s.settling := adds_schedule.settling
  have hnew : s.hasEnded s.tasks.length = false := by simp [hasEnded, outcome?]
  have hlt : ∀ c ∈ s.pending, c < s.tasks.length := fun c hc => lt_of_role? ((h.mem c).1 hc).1
  refine ⟨?_, fun c => ?_, hsettling ▸ h.once, fun t ht => ?_⟩
  · show (s.pending ++ [s.tasks.length]).Nodup
    refine List.nodup_append.2 ⟨h.nodup, by simp, ?_⟩
    rintro c hc d hd rfl
    exact Nat.ne_of_lt (hlt c hc) (List.mem_singleton.1 hd)
  · have hrole : s.schedule.1.role? c = some (.cycle true) ↔
        s.role? c = some (.cycle true) ∨ c = s.tasks.length := by
      show (s.spawn (.cycle true) [⟨.cycle, false⟩]).1.role? c = _ ↔ _
      rw [role?_spawn_iff]
      simp
    show c ∈ s.pending ++ [s.tasks.length] ↔ _
    rw [List.mem_append, List.mem_singleton, hrole, isSettled, hended, hsettling, h.mem c,
      isSettled]
    constructor
    · rintro (⟨hr, hc⟩ | rfl)
      · exact ⟨.inl hr, hc⟩
      · exact ⟨.inr rfl, by simp [hnew]⟩
    · rintro ⟨hr | rfl, hc⟩
      · exact .inl ⟨hr, hc⟩
      · exact .inr rfl
  · rw [hended]
    exact h.ended t (hsettling ▸ ht)

theorem Move.accounted (m : Move k a s s') (h : Accounted s) : Accounted s' := by
  cases m with
  | notify => exact notify_keeps h (fun _ _ h => h.same rfl rfl rfl) fun _ h => h.schedule
  | listen => exact h.schedule.same rfl rfl rfl
  | want => exact h.spawn (by decide) _
  | join t cs =>
    have hadds := (Move.join (k := k) (a := a) s t cs).adds
    exact h.same rfl rfl hadds.settling
  | attach t =>
    have hensure : Accounted s.ensureLoading.1 := by
      unfold ensureLoading
      split
      · exact h
      · exact (h.spawn (by decide) _).same rfl rfl rfl
    exact hensure.same rfl rfl rfl
  | reset hk =>
    obtain ⟨ht, -, -, hp, -⟩ := reset_fields s a
    exact h.same ht hp (Move.adds (.reset (k := k) s hk)).settling
  | mark | host | stop | stage | queue | receive | compiled => exact h.same rfl rfl rfl

theorem Moves.accounted (m : Moves k a s s') (h : Accounted s) : Accounted s' :=
  m.keep (fun _ _ m h => m.accounted h) h

theorem Accounted.suspend (h : Accounted s) (p : Phase) (w : Wait) (due : List Due)
    (verdict : Verdict) : Accounted (s.suspend t p w due verdict) := by
  refine h.congr (pending_suspend p w due verdict) (fun c => by rw [role?_suspend]) (fun c => ?_)
    (settling_suspend p w due verdict)
  obtain ⟨ready, he⟩ := suspend_eq s t p w due verdict
  rw [he]
  exact hasEnded_modifyTask (s := s) (by simp)

/-- The end of a task does not settle it. -/
theorem Accounted.finish (h : Accounted s) (ht : s.tasks[t]? = some task)
    (ho : task.outcome = none) (o : Outcome) : Accounted (s.finish t o) := by
  have hlive : s.hasEnded t = false := by simp [hasEnded, outcome?, ht, ho]
  have hended : ∀ c, (s.finish t o).hasEnded c = (s.hasEnded c || t == c) := by
    intro c
    unfold hasEnded
    rw [outcome?_finish ht]
    by_cases hc : t = c <;> simp [hc]
  have hnot : t ∉ s.settling := fun hm => Bool.false_ne_true (hlive.symm.trans (h.ended t hm))
  refine ⟨(pending_finish o).symm ▸ h.nodup, fun c => ?_, ?_, fun c hc => ?_⟩
  · have hsame : (s.finish t o).isSettled c = s.isSettled c := by
      unfold isSettled
      rw [hended, settling_finish]
      by_cases hc : t = c
      · subst hc
        simp [hlive]
      · rw [beq_false_of_ne hc]
        simp [Ne.symm hc]
    rw [pending_finish, role?_finish, hsame]
    exact h.mem c
  · rw [settling_finish]
    refine List.nodup_append.2 ⟨h.once, by simp, ?_⟩
    rintro c hc d hd rfl
    exact hnot (List.mem_singleton.1 hd ▸ hc)
  · rw [settling_finish] at hc
    rw [hended]
    rcases List.mem_append.1 hc with hc | hc
    · simp [h.ended c hc]
    · simp [List.mem_singleton.1 hc]

theorem Accounted.resume (h : Accounted s) (turn : Turn s t task) : Accounted (s.resume t) := by
  refine resume_of_moves (P := Accounted) turn (h.modify (by simp) (by simp)) ?_ ?_ ?_
  · exact fun k s₁ s₂ _ m _ h => m.accounted h
  · exact fun s₁ p w due verdict _ h => h.suspend p w due verdict
  · exact fun s₁ o htask h => h.finish htask turn.live o

/-- A job that does not process the end of a task is taken. -/
theorem Accounted.take (h : Accounted s) (hr : s.ready = before ++ j :: after)
    (hj : j.settles? = none) : Accounted { s with ready := before ++ after } := by
  refine h.same rfl rfl ?_
  show (before ++ after).filterMap Job.settles? = _
  rw [settling, hr, List.filterMap_append, List.filterMap_append, List.filterMap_cons_none hj]

/-- To process the end of a task takes it from the pending cycles, and else leaves a note at
most. -/
theorem settled_fields (h : ∀ c ∈ s.pending, s.role? c = some (.cycle true)) (t : TaskId) :
    (s.settled t).pending = s.pending.erase t ∧ (s.settled t).tasks = s.tasks ∧
      (s.settled t).waiting = s.waiting ∧ (s.settled t).ready = s.ready ∧
      (s.settled t).queue = s.queue ∧
      ∃ new, (s.settled t).journal = s.journal ++ new ∧ ∀ e ∈ new, ∃ l, e.what = .log l := by
  have hnot : ∀ r, s.role? t = r → r ≠ some (.cycle true) → s.pending.erase t = s.pending := by
    rintro r rfl hne
    exact List.erase_of_not_mem fun hm => hne (h t hm)
  unfold settled
  cases ht : s.tasks[t]? with
  | none =>
    exact ⟨(hnot none (by simp [role?, ht]) nofun).symm, rfl, rfl, rfl, rfl, [], by simp, by simp⟩
  | some task =>
    have hrole : s.role? t = some task.role := by simp [role?, ht]
    dsimp only
    split
    · next hr _ =>
      refine ⟨(hnot _ hrole (by simp [hr])).symm, rfl, rfl, rfl, rfl, _, rfl, ?_⟩
      simp
    · exact ⟨rfl, rfl, rfl, rfl, rfl, [], by simp, by simp⟩
    · exact ⟨rfl, rfl, rfl, rfl, rfl, _, rfl, by simp⟩
    · next hload hnone hsome =>
      refine ⟨(hnot _ hrole ?_).symm, rfl, rfl, rfl, rfl, [], by simp, by simp⟩
      intro hc
      have hcycle := Option.some.inj hc
      rcases Option.eq_none_or_eq_some _ with hf | ⟨f, hf⟩
      · exact hnone hcycle hf
      · exact hsome f hcycle hf

/-- The end of a task is processed. -/
theorem Accounted.settled (h : Accounted s) (hr : s.ready = before ++ .settled t :: after) :
    Accounted ({ s with ready := before ++ after }.settled t) := by
  obtain ⟨s₀, hs₀⟩ : ∃ s₀ : Session, s₀ = { s with ready := before ++ after } := ⟨_, rfl⟩
  have hpending : s₀.pending = s.pending := by rw [hs₀]
  have hrole : ∀ c, s₀.role? c = s.role? c := fun c => by rw [hs₀]; rfl
  have hended : ∀ c, s₀.hasEnded c = s.hasEnded c := fun c => by rw [hs₀]; rfl
  have hsettling : s.settling.Perm (t :: s₀.settling) := by
    rw [settling, settling, hr, hs₀, List.filterMap_append, List.filterMap_append]
    exact List.perm_middle
  obtain ⟨hnot, honce⟩ := List.nodup_cons.1 (hsettling.nodup_iff.1 h.once)
  have hend : s.hasEnded t := h.ended t (hsettling.mem_iff.2 List.mem_cons_self)
  obtain ⟨hp, ht, -, hready, -⟩ :=
    settled_fields (s := s₀) (fun c hc => by rw [hrole c]; exact ((h.mem c).1 (hpending ▸ hc)).1) t
  rw [← hs₀]
  -- what remains is about `s₀` without `t` among the pending cycles
  suffices hacc : Accounted { s₀ with pending := s.pending.erase t } by
    refine hacc.same ht (hp.trans (by rw [hpending])) ?_
    rw [settling, settling, hready]
  refine ⟨h.nodup.erase t, fun c => ?_, honce, fun c hc => ?_⟩
  · show c ∈ s.pending.erase t ↔ s₀.role? c = some (.cycle true) ∧ s₀.isSettled c = false
    rw [h.nodup.mem_erase_iff, h.mem c, hrole c, isSettled, isSettled, hended c]
    by_cases hc : c = t
    · subst hc
      simp [hend, hnot]
    · have hmem : c ∈ s.settling ↔ c ∈ s₀.settling := by
        rw [hsettling.mem_iff, List.mem_cons]
        simp [hc]
      simp [hc, hmem]
  · exact (hended c).trans (h.ended c (hsettling.mem_iff.2 (List.mem_cons_of_mem t hc)))

theorem Nudge.accounted (m : Nudge s s') (h : Accounted s) : Accounted s' := by
  cases m with
  | move m => exact m.accounted h
  | spawn role due hr => exact h.spawn hr due
  | tell t =>
    exact Accounted.same (h.modify (t := t) (f := fun task => { task with cancelRequested := true })
      (by simp) (by simp)) rfl rfl rfl
  | wake t =>
    refine h.same rfl rfl ?_
    show (s.ready ++ [Job.resume t]).filterMap Job.settles? = _
    rw [List.filterMap_append]
    exact List.append_nil _

theorem Nudges.accounted (m : Nudges s s') (h : Accounted s) : Accounted s' := by
  induction m with
  | refl => exact h
  | tail _ m ih => exact m.accounted ih

theorem Accounted.joined (h : Accounted s) (t ended : TaskId) : Accounted (s.joined t ended) := by
  unfold Session.joined
  split
  · split_ifs
    · exact (Nudge.wake s t).accounted h
    · exact h.same rfl rfl rfl
  · exact h

theorem Accounted.perform (h : Accounted s) (htidy : Tidy none s)
    (hr : s.ready = before ++ j :: after) :
    Accounted ({ s with ready := before ++ after }.perform j) := by
  cases j with
  | resume t =>
    obtain ⟨task, turn⟩ := htidy.turn hr
    exact (h.take hr rfl).resume turn
  | relay t => exact (nudges_relay t).accounted (h.take hr rfl)
  | joined t ended => exact (h.take hr rfl).joined t ended
  | settled t => exact h.settled hr

theorem accounted_of_reachable (h : Reachable s) : Accounted s := by
  induction h with
  | new setup host event =>
    exact ⟨List.nodup_nil, fun c => by simp [role?], List.nodup_nil, by simp [settling]⟩
  | step hreach step ih =>
    cases step with
    | act c hc => exact (nudges_act hc).accounted ih
    | perform before j after hr => exact ih.perform (tidy_of_reachable hreach) hr

end Accounted

/-! ## Nobody waits in vain -/

/-- Whoever waits for all of `cs` waits for somebody, and there is a job that tells it of each of
them that has ended. -/
structure Joins (s : Session) (t : TaskId) (cs : List TaskId) : Prop where
  nodup : cs.Nodup
  ne_nil : cs ≠ []
  told : ∀ c ∈ cs, s.hasEnded c → .joined t c ∈ s.ready

def Joining (s : Session) : Prop := ∀ t cs, (t, .all cs) ∈ s.waiting → Joins s t cs

section Joining

variable {s s' : Session} {k : Kind} {t : TaskId} {task : Task} {before after : List Job} {j : Job}
  {cs : List TaskId}

theorem Joins.mono (h : Joins s t cs) (he : ∀ c, s'.hasEnded c → s.hasEnded c)
    (hr : ∀ c, .joined t c ∈ s.ready → .joined t c ∈ s'.ready) : Joins s' t cs :=
  ⟨h.nodup, h.ne_nil, fun c hc hend => hr c (h.told c hc (he c hend))⟩

/-- Nobody new waits, nobody ends, and no job is taken. -/
theorem Joining.mono (h : Joining s) (hw : ∀ w ∈ s'.waiting, w ∈ s.waiting)
    (he : ∀ c, s'.hasEnded c → s.hasEnded c) (hr : ∀ j ∈ s.ready, j ∈ s'.ready) : Joining s' :=
  fun t cs hm => (h t cs (hw _ hm)).mono he fun _ => hr _

theorem Moves.hasEnded_eq {a : Option TaskId} (m : Moves k a s s') (t : TaskId) :
    s'.hasEnded t = s.hasEnded t := by
  rw [hasEnded, hasEnded, m.outcome?_eq]

theorem Moves.joining {a : Option TaskId} (m : Moves k a s s') (h : Joining s) : Joining s' := by
  have hadds := m.adds
  obtain ⟨new, hr, -⟩ := hadds.ready
  refine h.mono (fun w hw => hadds.waiting ▸ hw) (fun c hc => m.hasEnded_eq c ▸ hc) fun j hj => ?_
  rw [hr]
  exact List.mem_append_left _ hj

theorem Nudge.joining (m : Nudge s s') (h : Joining s) : Joining s' := by
  cases m with
  | move m => exact Moves.joining (.single m) h
  | spawn role due =>
    exact h.mono (fun w hw => hw) (fun c hc => hasEnded_spawn s role due c ▸ hc)
      fun j hj => List.mem_append_left _ hj
  | tell t =>
    have he : ∀ c, (s.tell t).hasEnded c = s.hasEnded c :=
      fun c => hasEnded_modifyTask (s := s) (by simp)
    exact h.mono (fun w hw => hw) (fun c hc => he c ▸ hc) fun j hj => hj
  | wake t =>
    exact h.mono (fun w hw => (List.mem_filter.1 hw).1) (fun c hc => hc)
      fun j hj => List.mem_append_left _ hj

theorem Nudges.joining (m : Nudges s s') (h : Joining s) : Joining s' := by
  induction m with
  | refl => exact h
  | tail _ m ih => exact m.joining ih

/-- To drain is to return at once or to wait for all pending cycles. -/
theorem drain_cases (s : Session) (t : TaskId) :
    s.pending = [] ∧ s.drain t = (s, .ends (.ok .nothing)) ∨
      s.pending ≠ [] ∧ s.drain t = (s.enqueueAll ((s.pending.filter s.hasEnded).map (.joined t)),
        .waits .draining (.all s.pending)) := by
  unfold drain
  split_ifs with hp
  · exact .inl ⟨List.isEmpty_iff.1 hp, rfl⟩
  · exact .inr ⟨fun hn => hp (by simp [hn]), rfl⟩

theorem joins_drain (h : s.pending.Nodup) {p : Phase}
    (hw : (s.drain t).2 = .waits p (.all cs)) : Joins (s.drain t).1 t cs := by
  rcases drain_cases s t with ⟨-, he⟩ | ⟨hne, he⟩ <;> rw [he] at hw ⊢ <;> cases hw
  refine ⟨h, hne, fun c hc hend => List.mem_append_right _ ?_⟩
  exact List.mem_map_of_mem (List.mem_filter.2 ⟨hc, hend⟩)

theorem Phase.eq_draining_of_isWait {p : Phase} (h : p.isWait (.all cs)) : p = .draining := by
  cases p <;> simp_all [Phase.isWait]

/-- Only draining waits for several tasks. -/
theorem joins_beginCall (h : s.pending.Nodup) {c : Call} {p : Phase}
    (hw : (s.beginCall t c).2 = .waits p (.all cs)) : Joins (s.beginCall t c).1 t cs := by
  obtain ⟨hk, hawaits⟩ := (block_beginCall (t := t) (s := s) c).waits _ _ hw
  rw [Phase.eq_draining_of_isWait hawaits.isWait] at hk
  cases c with
  | drain => exact joins_drain h hw
  | invoke world filters =>
    unfold beginCall at hw
    dsimp only at hw
    split at hw <;> cases hw
  | stop | fail => cases hw
  | _ => cases hk

theorem joins_continueCall (h : s.pending.Nodup) {p q : Phase}
    (hover : ∀ load, p.load? = some load → s.hasEnded load)
    (hw : (s.continueCall t p).2 = .waits q (.all cs)) : Joins (s.continueCall t p).1 t cs := by
  obtain ⟨hk, hawaits⟩ := (block_continueCall (t := t) p hover).waits _ _ hw
  rw [Phase.eq_draining_of_isWait hawaits.isWait] at hk
  cases p with
  | draining => exact joins_drain h hw
  | invoked failure => cases failure <;> cases hw
  | _ => cases hk

theorem Joining.suspend (h : Joining s) {p : Phase} {w : Wait}
    (hw : ∀ cs, w = .all cs → Joins s t cs) (due : List Due) (verdict : Verdict) :
    Joining (s.suspend t p w due verdict) := by
  have hend : ∀ c, (s.suspend t p w due verdict).hasEnded c = s.hasEnded c := by
    intro c
    obtain ⟨ready, he⟩ := suspend_eq s t p w due verdict
    rw [he]
    exact hasEnded_modifyTask (s := s) (by simp)
  have hready : ∀ j ∈ s.ready, j ∈ (s.suspend t p w due verdict).ready := by
    intro j hj
    unfold Session.suspend
    dsimp only
    split
    · exact List.mem_append_left _ hj
    · exact hj
  intro u cs hm
  have hmem : (u, Wait.all cs) ∈ s.waiting ++ [(t, w)] := by
    obtain ⟨ready, he⟩ := suspend_eq s t p w due verdict
    rw [he] at hm
    exact hm
  rcases List.mem_append.1 hmem with hm | hm
  · exact (h u cs hm).mono (fun c hc => hend c ▸ hc) fun c => hready _
  · obtain ⟨rfl, rfl⟩ : u = t ∧ .all cs = w := by simpa using hm
    exact (hw cs rfl).mono (fun c hc => hend c ▸ hc) fun c => hready _

/-- Those who wait for a task among others are told of its end. -/
theorem Joining.finish (h : Joining s) (ht : s.tasks[t]? = some task) (o : Outcome) :
    Joining (s.finish t o) := by
  intro u cs hm
  have hready : (s.finish t o).ready =
      s.ready ++ [.settled t] ++ s.waiting.filterMap (wakeUp? t) := by rw [finish_eq]; rfl
  have hwait : (u, Wait.all cs) ∈ s.waiting := by
    rw [finish_eq] at hm
    exact (List.mem_filter.1 hm).1
  have hjoins := h u cs hwait
  refine ⟨hjoins.nodup, hjoins.ne_nil, fun c hc hend => ?_⟩
  rw [hready]
  unfold hasEnded at hend
  rw [outcome?_finish ht] at hend
  split_ifs at hend with he
  · refine List.mem_append_right _ (List.mem_filterMap.2 ⟨_, hwait, ?_⟩)
    simp [wakeUp?, he, hc]
  · exact List.mem_append_left _ (List.mem_append_left _ (hjoins.told c hc hend))

theorem Joining.resume (h : Joining s) (hacc : Accounted s) (turn : Turn s t task) :
    Joining (s.resume t) := by
  have hheed : Accounted (s.heed t) ∧ Joining (s.heed t) := by
    have he : ∀ c, (s.heed t).hasEnded c = s.hasEnded c := fun c => hasEnded_modifyTask (by simp)
    exact ⟨hacc.modify (by simp) (by simp), h.mono (fun w hw => hw) (fun c hc => he c ▸ hc)
      fun j hj => hj⟩
  have hknown : (s.heed t).tasks[t]? = some { task with cancelRequested := false } :=
    task_heed turn.known
  have hblock : ∀ (s₁ : Session) (r : Session × Progress) (k : Kind),
      s₁.tasks[t]? = some { task with cancelRequested := false } ∧ Accounted s₁ ∧ Joining s₁ →
      Block k t s₁ r → (∀ p cs, r.2 = .waits p (.all cs) → Joins r.1 t cs) →
      Leads t task.role (fun s₁ => s₁.tasks[t]? = some { task with cancelRequested := false } ∧
        Accounted s₁ ∧ Joining s₁) Joining r := by
    rintro s₁ ⟨s₂, p⟩ k ⟨htask, hacc₁, h₁⟩ hb hall
    have h₂ := hb.moves.joining h₁
    cases p with
    | ends o => exact ⟨hb.moves.task htask, hb.moves.accounted hacc₁, h₂⟩
    | waits p w =>
      refine fun due verdict _ => h₂.suspend (fun cs hw => ?_) due verdict
      subst hw
      exact hall p cs rfl
  refine resume_keeps
    (P := fun s₁ => s₁.tasks[t]? = some { task with cancelRequested := false } ∧
      Accounted s₁ ∧ Joining s₁) turn (fun _ => ⟨hknown, hheed⟩) ?_ ?_ ?_ ?_
  · intro p hp hc
    have hover : ∀ load, p.load? = some load → (s.heed t).hasEnded load :=
      fun load hl => turn.loaded_heed hp hl hc
    exact hblock _ _ _ ⟨hknown, hheed⟩ (block_continueCall p hover)
      fun q cs hw => joins_continueCall hheed.1.nodup hover hw
  · intro p hp hc
    refine hblock _ _ _ ⟨hknown, hheed⟩ (block_abandonCall p) fun q cs hw => ?_
    cases p <;> cases hw
  · intro s₁ c hc h₁
    exact hblock _ _ _ h₁ (block_beginCall c) fun q cs hw => joins_beginCall h₁.2.1.nodup hw
  · exact fun s₁ o h₁ => h₁.2.2.finish h₁.1 o

/-- A job is taken that tells nobody. -/
theorem Joining.take (h : Joining s) (hr : s.ready = before ++ j :: after)
    (hj : ∀ t c, j ≠ .joined t c) : Joining { s with ready := before ++ after } := by
  intro t cs hw
  refine (h t cs hw).mono (fun c hc => hc) fun c hm => ?_
  rw [hr] at hm
  have hne : Job.joined t c ≠ j := (hj t c).symm
  simpa [hne] using hm

/-- A task is told of an end. -/
theorem Joining.joined (h : Joining s) (htidy : Tidy none s) {ended : TaskId}
    (hr : s.ready = before ++ .joined t ended :: after) :
    Joining ({ s with ready := before ++ after }.joined t ended) := by
  have hkeep : ∀ u c, (u, c) ≠ (t, ended) → Job.joined u c ∈ s.ready →
      Job.joined u c ∈ before ++ after := by
    intro u c hne hm
    rw [hr] at hm
    have : Job.joined u c ≠ .joined t ended := fun he => hne (by cases he; rfl)
    simpa [this] using hm
  have hothers : ∀ u cs, u ≠ t → (u, .all cs) ∈ s.waiting →
      Joins { s with ready := before ++ after } u cs := by
    intro u cs hne hw
    exact (h u cs hw).mono (fun c hc => hc) fun c => hkeep u c fun he => hne (by cases he; rfl)
  unfold Session.joined
  split
  · next tasks hwait =>
    have hw : (t, .all tasks) ∈ s.waiting := mem_waiting_of_wait? (s := s) hwait
    have hjoins := h t tasks hw
    split_ifs with hlast
    · intro u cs hm
      obtain ⟨hm, hne⟩ := List.mem_filter.1 hm
      refine (hothers u cs (by simpa using hne) hm).mono (fun c hc => hc) fun c hc => ?_
      exact List.mem_append_left _ hc
    · intro u cs hm
      obtain ⟨⟨v, w⟩, hv, he⟩ := List.mem_map.1 hm
      dsimp only at he
      split_ifs at he with hvt
      · cases he
        refine ⟨hjoins.nodup.erase ended, hlast, fun c hc hend => ?_⟩
        obtain ⟨hne, hc⟩ := hjoins.nodup.mem_erase_iff.1 hc
        exact hkeep t c (fun he => hne (by cases he; rfl)) (hjoins.told c hc hend)
      · cases he
        exact (hothers u cs hvt hv).mono (fun c hc => hc) fun c hc => hc
  · next hnone =>
    intro u cs hm
    refine hothers u cs ?_ hm
    rintro rfl
    exact hnone cs (htidy.wait?_eq hm)

theorem Joining.perform (h : Joining s) (hacc : Accounted s) (htidy : Tidy none s)
    (hr : s.ready = before ++ j :: after) :
    Joining ({ s with ready := before ++ after }.perform j) := by
  cases j with
  | resume t =>
    obtain ⟨task, turn⟩ := htidy.turn hr
    exact (h.take hr nofun).resume (hacc.take hr rfl) turn
  | relay t => exact (nudges_relay t).joining (h.take hr nofun)
  | joined t ended => exact h.joined htidy hr
  | settled t =>
    obtain ⟨-, ht, hw, hready, -⟩ := settled_fields (s := { s with ready := before ++ after })
      htidy.pending t
    exact (h.take hr nofun).mono (fun w hm => hw ▸ hm) (fun c hc => hasEnded_of_tasks ht c ▸ hc)
      fun j hj => hready ▸ hj

theorem joining_of_reachable (h : Reachable s) : Joining s := by
  induction h with
  | new setup host event => exact fun t cs hm => by cases hm
  | step hreach step ih =>
    cases step with
    | act c hc => exact (nudges_act hc).joining ih
    | perform before j after hr =>
      exact ih.perform (accounted_of_reachable hreach) (tidy_of_reachable hreach) hr

end Joining

/-! ## A task that drains -/

/-- What a task is like that was created to drain: it has not begun, it waits, or it has returned.
It has ended otherwise only if it was told to give up. -/
inductive Drains (told : Prop) : Task → Prop where
  | begins (always cancel : Bool) :
      Drains told { due := [⟨.drain, always⟩], cancelRequested := cancel }
  | waits (cancel : Bool) :
      Drains told { phase := some .draining, due := [], cancelRequested := cancel }
  | ends (p : Option Phase) (cancel : Bool) (o : Outcome)
      (ho : o = .ok .nothing ∨ o = .error .cancelled ∧ told) :
      Drains told { phase := p, due := [], cancelRequested := cancel, outcome := some o }

/-- A task that was created to drain does nothing else. -/
def Drainer (t : TaskId) (s : Session) : Prop :=
  ∃ task : Task, s.tasks[t]? = some task ∧ Drains (⟨some t, .cancelled⟩ ∈ s.journal) task

section Drainer

variable {s s' : Session} {t : TaskId} {task : Task}

theorem Drains.mono {p q : Prop} (h : Drains p task) (hpq : p → q) : Drains q task := by
  cases h with
  | begins always cancel => exact .begins always cancel
  | waits cancel => exact .waits cancel
  | ends p cancel o ho => exact .ends p cancel o (ho.imp_right (And.imp_right hpq))

theorem Drainer.spares {who : Option TaskId} (h : Drainer t s) (hx : Spares who s s')
    (hw : who ≠ some t) : Drainer t s' := by
  obtain ⟨task, ht, hd⟩ := h
  exact ⟨task, hx.tasks t task hw ht, hd.mono (hx.mem _)⟩

theorem Drainer.aside (h : Drainer t s) (m : Aside s s') : Drainer t s' := by
  rcases m.spares with ⟨u, role, hr, -, rfl⟩ | hx
  · by_cases he : u = t
    · subst he
      obtain ⟨task, ht, hd⟩ := h
      refine ⟨{ task with cancelRequested := true }, ?_, ?_⟩
      · show (s.modifyTask u _).tasks[u]? = _
        rw [tasks_modifyTask, if_pos rfl, ht]
        rfl
      · cases hd with
        | begins always => exact .begins always true
        | waits => exact .waits true
        | ends p cancel o ho =>
          exact .ends p true o (ho.imp_right (And.imp_right (List.mem_append_left _)))
    · exact h.spares (spares_tell (lt_of_role? hr)) fun hn => he (Option.some.inj hn)
  · exact h.spares hx nofun

theorem drainer_finish {p : Option Phase} {due : List Due}
    (ht : s.tasks[t]? = some { phase := p, due }) {o : Outcome}
    (ho : o = .ok .nothing ∨ o = .error .cancelled ∧ ⟨some t, .cancelled⟩ ∈ s.journal) :
    Drainer t (s.finish t o) :=
  ⟨_, task_finish ht, .ends p false o (ho.imp_right (And.imp_right extends_finish.mem))⟩

/-- The task drains, and returns or waits. -/
theorem drainer_drain {p : Option Phase} {due : List Due}
    (ht : s.tasks[t]? = some { phase := p, due }) :
    Drainer t ((s.drain t).1.conclude t (s.drain t).2) := by
  rcases drain_cases s t with ⟨-, he⟩ | ⟨-, he⟩ <;> rw [he]
  · exact drainer_finish ht (.inl rfl)
  · exact ⟨_, task_suspend (s := s.enqueueAll _) ht, .waits false⟩

theorem Drainer.resume (h : Drainer t s) (howing : Owing s) (turn : Turn s t task) :
    Drainer t (s.resume t) := by
  obtain ⟨task', ht, hd⟩ := h
  rw [turn.known] at ht
  cases ht
  have hheed := task_heed turn.known
  have htold := (howing t task turn.known).told
  unfold Session.resume
  rw [turn.known]
  cases hd with
  | begins always cancel =>
    cases cancel with
    | true => exact drainer_finish hheed (.inr ⟨rfl, htold rfl⟩)
    | false =>
      have hdrain := drainer_drain (s := s.heed t) hheed
      show Drainer t ((s.heed t).pursue t (.ok none) [⟨.drain, always⟩])
      simp only [pursue, beginCall]
      generalize (s.heed t).drain t = r at hdrain ⊢
      obtain ⟨s', p | o⟩ := r
      · exact hdrain
      · simpa only [conclude, outcome_judge] using hdrain
  | waits cancel =>
    cases cancel with
    | true => exact drainer_finish hheed (.inr ⟨rfl, htold rfl⟩)
    | false =>
      have hdrain := drainer_drain (s := s.heed t) hheed
      show Drainer t (((s.heed t).drain t).1.proceed t _ ((s.heed t).drain t).2)
      generalize (s.heed t).drain t = r at hdrain ⊢
      obtain ⟨s', p | o⟩ := r
      · exact hdrain
      · simpa only [conclude, proceed, pursue, outcome_judge] using hdrain
  | ends p cancel o => cases turn.live

theorem Drainer.steps (h : Drainer t s) (hreach : Reachable s) (steps : Steps s s') :
    Drainer t s' := by
  induction steps with
  | refl => exact h
  | @tail s₁ s₂ k step ih =>
    have hreach₁ := hreach.steps k
    have hall : Recorded none s₂ ∧ Owing s₂ ∧ Drainer t s₂ := by
      refine step.keeps (P := fun s => Recorded none s ∧ Owing s ∧ Drainer t s) ?_ ?_
        (tidy_of_reachable hreach₁)
        ⟨recorded_of_reachable hreach₁, owing_of_reachable hreach₁, ih⟩
      · exact fun s s' m h => ⟨h.1.aside m, h.2.1.aside h.1 m, h.2.2.aside m⟩
      · intro s u task turn h
        refine ⟨h.1.resume turn, h.2.1.resume h.1 turn, ?_⟩
        by_cases he : u = t
        · subst he
          exact h.2.2.resume h.2.1 turn
        · exact h.2.2.spares turn.spares fun hn => he (Option.some.inj hn)
    exact hall.2.2

theorem Drainer.outcome (h : Drainer t s) {o : Outcome} (ho : s.outcome? t = some o) :
    o = .ok .nothing ∨ o = .error .cancelled ∧ ⟨some t, .cancelled⟩ ∈ s.journal := by
  obtain ⟨task, ht, hd⟩ := h
  have hout : task.outcome = some o := by simpa [outcome?, ht] using ho
  cases hd with
  | begins | waits => cases hout
  | ends p cancel o' ho' =>
    cases hout
    exact ho'

end Drainer

/-! ## Draining -/

/-- From `s` to `s'` only `c` has gone on: what was queued stays in front, and the other tasks and
what they went through are as they were. -/
structure Isolated (c : TaskId) (s s' : Session) : Prop where
  queue : s.queue <+: s'.queue
  tasks : ∀ (u : TaskId) (task : Task), u ≠ c → s.tasks[u]? = some task → s'.tasks[u]? = some task
  trail : ∀ u, u ≠ c → s'.journal.trail u = s.journal.trail u

section Isolated

variable {s s' u : Session} {t c : TaskId} {before after : List Job}

/-- What was queued stays in front. -/
theorem Step.queue_prefix (h : Reachable s) (step : Step s s') : s.queue <+: s'.queue := by
  obtain ⟨-, new, hj, -⟩ := Steps.extends h (.single step)
  rw [(recorded_of_reachable h).queue, (recorded_of_reachable (.step h step)).queue, hj,
    Journal.queue_append]
  exact List.prefix_append _ _

theorem isolated_resume (h : Reachable s) (hr : s.ready = before ++ .resume c :: after) :
    s.pending <+: ({ s with ready := before ++ after }.perform (.resume c)).pending ∧
      Isolated c s ({ s with ready := before ++ after }.perform (.resume c)) := by
  obtain ⟨task, turn⟩ := (tidy_of_reachable h).turn hr
  have hne : ∀ u, u ≠ c → (some c : Option TaskId) ≠ some u :=
    fun u hu he => hu (Option.some.inj he).symm
  exact ⟨turn.pending, Step.queue_prefix h (.perform s before _ after hr),
    fun u task hu ht => turn.spares.tasks u task (hne u hu) ht,
    fun u hu => turn.spares.trail u (hne u hu)⟩

theorem isolated_settled (h : Reachable s) (hr : s.ready = before ++ .settled c :: after) :
    ({ s with ready := before ++ after }.perform (.settled c)).pending = s.pending.erase c ∧
      Isolated c s ({ s with ready := before ++ after }.perform (.settled c)) := by
  obtain ⟨hp, ht, -, -, hq, new, hj, hnew⟩ :=
    settled_fields (s := { s with ready := before ++ after }) (tidy_of_reachable h).pending c
  refine ⟨hp, Step.queue_prefix h (.perform s before _ after hr), fun u task _ hu => ?_, ?_⟩
  · rw [← hu]
    exact congrArg (·[u]?) ht
  · intro u _
    show Journal.trail (Session.settled _ c).journal u = _
    rw [hj]
    refine Journal.trail_append_of_not fun e he _ => ?_
    obtain ⟨l, hl⟩ := hnew e he
    rw [hl]
    rfl

/-- In the middle of any turn the pending cycles are those that were scheduled and are not
settled. -/
theorem mem_pending_amid (h : Reachable s) (hr : s.ready = before ++ .resume t :: after)
    (hu : Amid { s with ready := before ++ after } t u) (c : TaskId) :
    c ∈ u.pending ↔ c ∈ u.journal.scheduled ∧ u.isSettled c = false := by
  obtain ⟨task, turn⟩ := (tidy_of_reachable h).turn hr
  have hboth : Accounted u ∧ Enlisted u := by
    refine hu.of_moves (P := fun u => Accounted u ∧ Enlisted u) turn ⟨?_, ?_⟩ fun k u v _ m h =>
      ⟨m.accounted h.1, m.keep (fun _ _ m h => m.enlisted h) h.2⟩
    · exact ((accounted_of_reachable h).take hr rfl).modify (by simp) (by simp)
    · exact (enlisted_of_reachable h).same rfl fun c => by rw [role?_heed]; rfl
  rw [hboth.1.mem c, hboth.2.mem c]

end Isolated

/-- To drain is to wait for all scheduled cycles, however they end. In every session that can come
about the pending cycles are those that were scheduled and whose end has not been processed. At any
point of any turn, draining either waits for the pending cycles, of which there is one, or returns,
and then every cycle has ended that was scheduled so far. Whoever waits so waits for some cycles,
and there is a job that tells it of each of them that has ended. A task that was created to drain
ends by returning, unless it was told to give up. The turn of a cycle, also the one in which it
fails, leaves the pending cycles, what was queued before and all other tasks as they are; and when
its end is processed it is the only one that is not pending any more. -/
theorem drain_drains {s : Session} (h : Reachable s) :
    (s.pending.Nodup ∧ ∀ c, c ∈ s.pending ↔ c ∈ s.journal.scheduled ∧ s.isSettled c = false) ∧
    (∀ before t after u, s.ready = before ++ .resume t :: after →
      Amid { s with ready := before ++ after } t u →
      (u.drain t).2 = .waits .draining (.all u.pending) ∧
          (∃ c ∈ u.journal.scheduled, u.isSettled c = false) ∨
        u.drain t = (u, .ends (.ok .nothing)) ∧ ∀ c ∈ u.journal.scheduled, u.hasEnded c) ∧
    (∀ t cs, (t, .all cs) ∈ s.waiting →
      cs ≠ [] ∧ ∀ c ∈ cs, s.hasEnded c → .joined t c ∈ s.ready) ∧
    (∀ t always s' o, s.tasks[t]? = some { due := [⟨.drain, always⟩] } → Steps s s' →
      s'.outcome? t = some o →
      o = .ok .nothing ∨ o = .error .cancelled ∧ ⟨some t, .cancelled⟩ ∈ s'.journal) ∧
    (∀ before c after, s.ready = before ++ .resume c :: after →
      s.pending <+: ({ s with ready := before ++ after }.perform (.resume c)).pending ∧
        Isolated c s ({ s with ready := before ++ after }.perform (.resume c))) ∧
    ∀ before c after, s.ready = before ++ .settled c :: after →
      ({ s with ready := before ++ after }.perform (.settled c)).pending = s.pending.erase c ∧
        Isolated c s ({ s with ready := before ++ after }.perform (.settled c)) := by
  have hacc := accounted_of_reachable h
  refine ⟨⟨hacc.nodup, fun c => ?_⟩, ?_, ?_, ?_, fun before c after => isolated_resume h,
    fun before c after => isolated_settled h⟩
  · rw [hacc.mem c, (enlisted_of_reachable h).mem c]
  · intro before t after u hr hu
    have hmem := mem_pending_amid h hr hu
    rcases drain_cases u t with ⟨hp, he⟩ | ⟨hp, he⟩
    · refine .inr ⟨he, fun c hc => ?_⟩
      have hsettled : u.isSettled c = true := by
        by_contra hn
        simpa [hp] using (hmem c).2 ⟨hc, by simpa using hn⟩
      exact (Bool.and_eq_true_iff.1 hsettled).1
    · obtain ⟨c, hc⟩ := List.exists_mem_of_ne_nil _ hp
      exact .inl ⟨by rw [he], c, (hmem c).1 hc⟩
  · intro t cs hw
    have hjoins := joining_of_reachable h t cs hw
    exact ⟨hjoins.ne_nil, hjoins.told⟩
  · intro t always s' o ht steps ho
    have hdrainer : Drainer t s := ⟨_, ht, .begins always false⟩
    exact (hdrainer.steps h steps).outcome ho

/-! ## Cycles that fail -/

/-- The small session with a started runner whose first cycle waits for its rules, and a task that
is to drain. -/
def sampleDrain : Session :=
  (sample.acts [.hold .snippets, .spawn .other [⟨.start, false⟩]]).settle.acts
    [.spawn .other [⟨.drain, false⟩]]

/-- While that task waits a second cycle is scheduled, and the rule source fails whoever asks. -/
def sampleFailing : Session :=
  sampleDrain.settle.acts [.emit, .arrange (.snippetsFault (some ⟨text "Halt", [], .fatal⟩)),
    .release .snippets]

theorem reachable_sampleDrain : Reachable sampleDrain := by
  have hnew : Reachable sample := .new sample.setup sample.host {}
  refine Reachable.steps ?_ (steps_acts (by simp [admits, Call.isOpen]) _)
  refine Reachable.steps ?_ (steps_settle _)
  exact hnew.steps (steps_acts (by simp [admits, Call.isOpen]) _)

theorem steps_sampleFailing : Steps sampleDrain sampleFailing :=
  (steps_settle _).trans (steps_acts (by simp [admits]) _)

theorem drain_drains_sampleFailing :
    sampleFailing.pending = [2, 5] ∧ sampleFailing.isSettled 2 = false ∧
      sampleFailing.settle.outcome? 2 = some (.error (.fault ⟨text "Halt", [], .fatal⟩)) ∧
      sampleFailing.settle.outcome? 4 = some (.ok .nothing) ∧
      Isolated 2 sampleFailing
        ({ sampleFailing with ready := [.resume 5] }.perform (.resume 2)) := by
  have hpending : sampleFailing.pending = [2, 5] := by decide +kernel
  have hready : sampleFailing.ready = [.resume 5] ++ .resume 2 :: [] := by decide +kernel
  have hlength : (sample.acts [.hold .snippets,
      .spawn .other [⟨.start, false⟩]]).settle.tasks.length = 4 := by decide +kernel
  have htask : sampleDrain.tasks[4]? = some { due := [⟨.drain, false⟩] } := by
    rw [← hlength]
    simp [sampleDrain, acts, act, tasks_spawn]
  have hreturned : (sampleFailing.settle.outcome? 4).any Except.isOk := by decide +kernel
  obtain ⟨o, ho, hok⟩ := (Option.any_eq_true _ _).1 hreturned
  have hdrain := drain_drains reachable_sampleDrain
  have hfailing := drain_drains (reachable_sampleDrain.steps steps_sampleFailing)
  refine ⟨hpending, ((hfailing.1.2 2).1 (by simp [hpending])).2, by decide +kernel, ?_,
    (hfailing.2.2.2.2.1 [.resume 5] 2 [] hready).2⟩
  rcases hdrain.2.2.2.1 4 false _ o htask (steps_sampleFailing.trans (steps_settle _)) ho with
    rfl | ⟨rfl, -⟩
  · exact ho
  · cases hok

end Session

end Snippets
