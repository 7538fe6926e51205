import Snippets.Proofs.Session.Blocks
import Snippets.Proofs.Session.Draining

/-!
# The account of one cycle

While a cycle runs and nobody else changes the queue or the stage (`Solo`), it has at most five
turns, each of which brings it further: past the rules, past the loading, past the gate, past the
batch, to its end. Its report and what becomes of the queue and the stage are determined by the
answers that it met on the way (`Determined`): the one of the rule source in the turn that took it
past the rules, how the loading had ended in the turn that took it past that, and the one of the
gate and what the handlers and the external runner did in the turn that took it past the gate
(`solo_accounting`).
-/

namespace Snippets

/-- How far a cycle has come: it has not begun, waits for the rules, for the loading, for the gate,
or for its turn after the batch, or has ended. -/
def Progress.reaches : Progress → Nat
  | .waits .rules _ => 1
  | .waits (.loading _ _) _ => 2
  | .waits (.gate _ _) _ => 3
  | .waits _ _ => 4
  | .ends _ => 5

/-- How far a task has come that is a cycle. -/
def Task.reached (task : Task) : Nat :=
  match task.outcome, task.phase with
  | some _, _ => 5
  | none, none => 0
  | none, some p => Progress.reaches (.waits p .turn)

namespace Session

def reached (s : Session) (t : TaskId) : Nat := ((s.tasks[t]?).map Task.reached).getD 0

/-! ## Turns that are due -/

/-- Who waits for its turn gets it. -/
def Prompt (s : Session) : Prop := ∀ t, (t, .turn) ∈ s.waiting → Job.relay t ∈ s.ready

section Prompt

variable {s s' : Session} {t : TaskId} {before after : List Job} {j : Job}

theorem Prompt.mono (h : Prompt s) (hw : ∀ t, (t, .turn) ∈ s'.waiting → (t, .turn) ∈ s.waiting)
    (hr : ∀ j ∈ s.ready, j ∈ s'.ready) : Prompt s' := fun t ht => hr _ (h t (hw t ht))

theorem Prompt.adds (h : Prompt s) (m : Adds s s') : Prompt s' := by
  obtain ⟨new, hr, -⟩ := m.ready
  refine h.mono (fun t ht => m.waiting ▸ ht) fun j hj => ?_
  rw [hr]
  exact List.mem_append_left _ hj

theorem Prompt.wake (h : Prompt s) (t : TaskId) : Prompt (s.wake t) :=
  h.mono (fun _ hu => (List.mem_filter.1 hu).1) fun _ hj => List.mem_append_left _ hj

theorem Prompt.nudges (h : Prompt s) (m : Nudges s s') : Prompt s' := by
  induction m with
  | refl => exact h
  | tail _ m ih =>
    cases m with
    | move m => exact ih.adds m.adds
    | spawn role due => exact ih.adds (adds_spawn role due)
    | tell => exact ih.mono (fun _ hu => hu) fun _ hj => hj
    | wake t => exact ih.wake t

/-- A job that is no relay, or the relay of somebody who does not wait for its turn, is done
with. -/
theorem Prompt.take (h : Prompt s) (hr : s.ready = before ++ j :: after)
    (hj : ∀ t, j = .relay t → (t, .turn) ∉ s.waiting) :
    Prompt { s with ready := before ++ after } := by
  intro t ht
  have hmem := h t ht
  rw [hr] at hmem
  rcases List.mem_append.1 hmem with hmem | hmem
  · exact List.mem_append_left _ hmem
  · rcases List.mem_cons.1 hmem with hmem | hmem
    · exact absurd ht (hj t hmem.symm)
    · exact List.mem_append_right _ hmem

theorem Prompt.suspend (h : Prompt s) (p : Phase) (w : Wait) (due : List Due) (verdict : Verdict) :
    Prompt (s.suspend t p w due verdict) := by
  unfold Session.suspend
  dsimp only
  split
  · next hw =>
    intro u hu
    rcases List.mem_append.1 hu with hu | hu
    · exact List.mem_append_left _ (h u hu)
    · obtain rfl : u = t := congrArg Prod.fst (List.mem_singleton.1 hu)
      exact List.mem_append_right _ List.mem_cons_self
  · next hw =>
    refine h.mono (fun u hu => ?_) fun _ hj => hj
    rcases List.mem_append.1 hu with hu | hu
    · exact hu
    · exact absurd (congrArg Prod.snd (List.mem_singleton.1 hu)).symm hw

theorem Prompt.finish (h : Prompt s) (o : Outcome) : Prompt (s.finish t o) := by
  rw [finish_eq]
  refine h.mono (fun u hu => (List.mem_filter.1 hu).1) fun j hj => ?_
  exact List.mem_append_left _ (List.mem_append_left _ hj)

theorem Prompt.resume {task : Task} (h : Prompt s) (turn : Turn s t task) :
    Prompt (s.resume t) := by
  refine resume_of_moves (P := Prompt) turn (h.mono (fun _ hu => hu) fun _ hj => hj) ?_ ?_ ?_
  · exact fun k s₁ s₂ _ m _ hs => hs.adds m.adds
  · exact fun s₁ p w due verdict _ hs => hs.suspend p w due verdict
  · exact fun s₁ o _ hs => hs.finish o

theorem Prompt.perform (h : Prompt s) (htidy : Tidy none s) (hr : s.ready = before ++ j :: after) :
    Prompt ({ s with ready := before ++ after }.perform j) := by
  have htake : (∀ t, j ≠ .relay t) → Prompt { s with ready := before ++ after } :=
    fun hj => h.take hr fun t ht => absurd ht (hj t)
  cases j with
  | resume t =>
    obtain ⟨task, turn⟩ := htidy.turn hr
    exact (htake nofun).resume turn
  | settled t =>
    have hs := htake nofun
    show Prompt (Session.settled _ t)
    unfold Session.settled
    split
    · exact hs
    · dsimp only
      split <;> exact hs
  | joined t ended =>
    have hs := htake nofun
    show Prompt (Session.joined _ t ended)
    unfold Session.joined
    split
    · split
      · exact hs.wake t
      · refine hs.mono (fun u hu => ?_) fun _ hj => hj
        obtain ⟨w, hw, he⟩ := List.mem_map.1 hu
        split at he
        · cases he
        · exact he ▸ hw
    · exact hs
  | relay t =>
    have hother : s.wait? t ≠ some .turn → Prompt { s with ready := before ++ after } := by
      intro hw
      refine h.take hr fun u hu ht => ?_
      cases hu
      exact hw (htidy.wait?_eq ht)
    show Prompt (Session.relay _ t)
    unfold Session.relay
    have hwait : ({ s with ready := before ++ after } : Session).wait? t = s.wait? t := rfl
    rw [hwait]
    cases hw : s.wait? t with
    | none => exact hother (by simp [hw])
    | some w =>
      cases w with
      | turn =>
        -- the task is woken, so it waits no longer
        intro u hu
        obtain ⟨hu, hne⟩ := List.mem_filter.1 hu
        have hmem := h u hu
        rw [hr] at hmem
        have hut : u ≠ t := by simpa using hne
        simpa [hut, Session.wake, Session.enqueue] using hmem
      | shared load =>
        have hs := hother (by simp [hw])
        dsimp only
        split
        · exact hs.wake t
        · exact hs
      | answer | own | all => exact hother (by simp [hw])

end Prompt

/-! ## A cycle that runs alone -/

/-- The sessions before and after each turn of a task. -/
abbrev Legs := List (Session × Session)

/-- A run from `s` in which no cycle has a turn but `t`, and nobody else changes the stage, with the
turns of `t`. -/
inductive Solo (t : TaskId) (s : Session) : Legs → Session → Prop where
  | refl : Solo t s [] s
  | act {turns : Legs} {m : Session} (h : Solo t s turns m) (c : Command)
      (hc : m.admits c) : Solo t s turns (m.act c).1
  | turn {turns : Legs} {m m' : Session} {before after : List Job}
      (h : Solo t s turns m) (hr : m.ready = before ++ .resume t :: after)
      (hm : ({ m with ready := before ++ after } : Session).perform (.resume t) = m') :
      Solo t s (turns ++ [(m, m')]) m'
  | other {turns : Legs} {m m' : Session} {before after : List Job} {j : Job}
      (h : Solo t s turns m) (hr : m.ready = before ++ j :: after)
      (hj : ∀ u scheduled, j = .resume u → m.role? u ≠ some (.cycle scheduled))
      (hm : ({ m with ready := before ++ after } : Session).perform j = m')
      (hstage : m'.stage = m.stage) : Solo t s turns m'

/-- One of the turns begins in `m`. -/
def HasTurn (turns : Legs) (m : Session) : Prop := ∃ m', (m, m') ∈ turns

/-- One of the turns begins in `m` and takes the cycle past `i`. -/
def Crosses (t : TaskId) (turns : Legs) (i : Nat) (m : Session) : Prop :=
  ∃ m', (m, m') ∈ turns ∧ m.reached t ≤ i ∧ i < m'.reached t

/-- The report of a cycle that began when the session was `s`, and the queue and the stage after it,
by the answers it met in `m₁`, `m₂` and `m₃`. -/
def Determined (t : TaskId) (s s' m₁ m₂ m₃ : Session) (r : Report) : Prop :=
  match m₁.host.rules? with
  | none =>
    r = { status := .noRules, queued := s.queue.length } ∧ s'.queue = s.queue ∧ s'.stage = s.stage
  | some rules =>
    s'.queue = s.queue ++ Script.parseAll rules ∧
      if m₃.host.gate.opens then
        s'.stage = .ready ∧ ∃ (e : Option Text) (d : Session),
          Tells (m₂.outcomeOf m₁.shares) e ∧ Scene m₃ d ∧ d.queue = s'.queue ∧
          (d.handled t d.partition.locals).map Prod.fst = d.partition.locals ∧
          r = d.account t (Script.parseAll rules).length e
      else
        s'.stage = .gated ∧ r = { status := .disabled, parsed := (Script.parseAll rules).length,
                                  queued := s'.queue.length }

/-- What is known of a cycle that has come to an outcome: it reports, unless something was raised
that cannot be contained, or it was told to give up. -/
def Explained (t : TaskId) (s : Session) (turns : Legs) (s' : Session) : Outcome → Prop
  | .error f => f.isContained = false ∧ ∃ m, HasTurn turns m ∧ Raises t m f
  | .ok result => ∃ r, result = .report r ∧ ∃ m₁ m₂ m₃, Crosses t turns 1 m₁ ∧
      Crosses t turns 2 m₂ ∧ Crosses t turns 3 m₃ ∧ Determined t s s' m₁ m₂ m₃ r

/-- What is known of a cycle that waits in a phase, or has not begun. -/
def Standing (t : TaskId) (s : Session) (turns : Legs) (m : Session) : Option Phase → Prop
  | none => m.queue = s.queue ∧ m.stage = s.stage
  | some .rules => m.queue = s.queue ∧ m.stage = s.stage
  | some (.loading parsed load) => ∃ m₁ rules, Crosses t turns 1 m₁ ∧ m₁.host.rules? = some rules ∧
      parsed = (Script.parseAll rules).length ∧ load = m₁.shares ∧
      m.queue = s.queue ++ Script.parseAll rules ∧ m.stage = .gated
  | some (.gate parsed e) => ∃ m₁ m₂ rules, Crosses t turns 1 m₁ ∧ Crosses t turns 2 m₂ ∧
      m₁.host.rules? = some rules ∧ parsed = (Script.parseAll rules).length ∧
      Tells (m₂.outcomeOf m₁.shares) e ∧ m.queue = s.queue ++ Script.parseAll rules ∧
      m.stage = .gated
  | some (.dispatched r failure) => ∃ m₁ m₂ m₃ rules d, Crosses t turns 1 m₁ ∧
      Crosses t turns 2 m₂ ∧ Crosses t turns 3 m₃ ∧ m₁.host.rules? = some rules ∧
      Tells (m₂.outcomeOf m₁.shares) none ∧
      m₃.host.gate.opens ∧ Scene m₃ d ∧ d.queue = m.queue ∧
      m.queue = s.queue ++ Script.parseAll rules ∧ m.stage = .ready ∧
      r = d.draft t (Script.parseAll rules).length ∧ failure = d.dispatchFailure t
  | some _ => False

/-- What is known of the task of a cycle. -/
structure Followed (t : TaskId) (s : Session) (turns : Legs) (m : Session) (task : Task) :
    Prop where
  known : m.tasks[t]? = some task
  cycle : ∃ scheduled, task.role = .cycle scheduled
  few : turns.length ≤ task.reached
  stands : task.outcome = none → Standing t s turns m task.phase
  ended : ∀ o, task.outcome = some o → Explained t s turns m o

section Solo

variable {s s' m m' m₁ m₂ d : Session} {t : TaskId} {turns turns' : Legs}
  {task task' : Task} {before after : List Job} {r : Session × Progress}

theorem Solo.reachable (h : Solo t s turns m) (hs : Reachable s) : Reachable m := by
  induction h with
  | refl => exact hs
  | act _ c hc ih => exact .step ih (.act _ c hc)
  | turn _ hr hm ih => exact hm ▸ .step ih (.perform _ _ _ _ hr)
  | other _ hr _ hm _ ih => exact hm ▸ .step ih (.perform _ _ _ _ hr)

theorem Crosses.mono {i : Nat} (h : Crosses t turns i m) (ht : turns ⊆ turns') :
    Crosses t turns' i m := by
  obtain ⟨m', hm, h⟩ := h
  exact ⟨m', ht hm, h⟩

theorem Standing.mono {p : Option Phase} (h : Standing t s turns m p) (ht : turns ⊆ turns') :
    Standing t s turns' m p := by
  unfold Standing at h ⊢
  split at h
  · exact h
  · exact h
  · obtain ⟨m₁, rules, h₁, h⟩ := h
    exact ⟨m₁, rules, h₁.mono ht, h⟩
  · obtain ⟨m₁, m₂, rules, h₁, h₂, h⟩ := h
    exact ⟨m₁, m₂, rules, h₁.mono ht, h₂.mono ht, h⟩
  · obtain ⟨m₁, m₂, m₃, rules, d, h₁, h₂, h₃, h⟩ := h
    exact ⟨m₁, m₂, m₃, rules, d, h₁.mono ht, h₂.mono ht, h₃.mono ht, h⟩
  · exact h.elim

theorem Standing.same {p : Option Phase} (h : Standing t s turns m p) (hq : m'.queue = m.queue)
    (hs : m'.stage = m.stage) : Standing t s turns m' p := by
  unfold Standing at h ⊢
  rw [hq, hs]
  exact h

theorem Explained.same {o : Outcome} (h : Explained t s turns m o) (hq : m'.queue = m.queue)
    (hs : m'.stage = m.stage) : Explained t s turns m' o := by
  unfold Explained Determined at h ⊢
  rw [hq, hs]
  exact h

theorem Followed.same (h : Followed t s turns m task) (ht : m'.tasks[t]? = some task')
    (hrole : task'.role = task.role) (hphase : task'.phase = task.phase)
    (hout : task'.outcome = task.outcome) (hq : m'.queue = m.queue) (hs : m'.stage = m.stage) :
    Followed t s turns m' task' := by
  refine ⟨ht, hrole ▸ h.cycle, ?_, ?_, ?_⟩
  · have hreached : task'.reached = task.reached := by rw [Task.reached, Task.reached, hphase, hout]
    rw [hreached]
    exact h.few
  · rw [hphase, hout]
    exact fun ho => (h.stands ho).same hq hs
  · rw [hout]
    exact fun o ho => (h.ended o ho).same hq hs

/-! ## Steps of the others -/

theorem Aside.queue_stage (m : Aside s s') : s'.queue = s.queue ∧ s'.stage = s.stage := by
  cases m with
  | move m =>
    obtain ⟨hq, hs⟩ := m.queue_stage (by decide)
    exact ⟨hq, hs (by decide)⟩
  | spawn | tell | note | turns => exact ⟨rfl, rfl⟩

/-- A change aside may at most tell the cycle to give up. -/
theorem Aside.followed (m : Aside s s') (h : s.tasks[t]? = some task) :
    ∃ c, s'.tasks[t]? = some { task with cancelRequested := c } := by
  rcases m.spares with ⟨u, role, hr, -, rfl⟩ | hx
  · show ∃ c, (s.modifyTask u _).tasks[t]? = _
    rw [tasks_modifyTask]
    split
    · exact ⟨true, by rw [h]; rfl⟩
    · exact ⟨task.cancelRequested, h⟩
  · exact ⟨task.cancelRequested, hx.tasks t task nofun h⟩

theorem Followed.asides (h : Followed t s turns m task) (k : Asides m m') :
    ∃ task', Followed t s turns m' task' := by
  induction k with
  | refl => exact ⟨task, h⟩
  | tail _ k ih =>
    obtain ⟨task', h'⟩ := ih
    obtain ⟨c, hc⟩ := k.followed h'.known
    obtain ⟨hq, hs⟩ := k.queue_stage
    exact ⟨_, h'.same hc rfl rfl rfl hq hs⟩

/-- Whoever is no cycle leaves the queue as it is. -/
theorem Turn.queue (turn : Turn s t task) (hr : ∀ scheduled, task.role ≠ .cycle scheduled) :
    (s.resume t).queue = s.queue := by
  refine resume_of_moves (P := fun s' => s'.queue = s.queue) (Q := fun s' => s'.queue = s.queue)
    turn rfl ?_ ?_ ?_
  · exact fun k s₁ s₂ hk m _ h => (m.queue_stage (Role.ne_cycle_of_allows hr hk)).1.trans h
  · intro s₁ p w due verdict _ h
    obtain ⟨ready, he⟩ := suspend_eq s₁ t p w due verdict
    rw [he]
    exact h
  · intro s₁ o _ h
    rw [finish_eq]
    exact h

theorem Followed.other {j : Job} (h : Followed t s turns m task) (htidy : Tidy none m)
    (hr : m.ready = before ++ j :: after)
    (hj : ∀ u scheduled, j = .resume u → m.role? u ≠ some (.cycle scheduled))
    (hstage : ({ m with ready := before ++ after }.perform j).stage = m.stage) :
    ∃ task', Followed t s turns ({ m with ready := before ++ after }.perform j) task' := by
  have htake : Asides m { m with ready := before ++ after } :=
    .single (.turns m m.waiting (before ++ after) m.pending)
  cases j with
  | resume u =>
    obtain ⟨other, turn⟩ := htidy.turn hr
    have hrole : ∀ scheduled, other.role ≠ .cycle scheduled := fun scheduled he =>
      hj u scheduled rfl (turn.role?.trans (congrArg some he))
    have hne : some u ≠ some t := by
      rintro ⟨⟩
      obtain ⟨scheduled, hcycle⟩ := h.cycle
      obtain rfl : other = task := Option.some.inj (turn.known.symm.trans h.known)
      exact hrole scheduled hcycle
    have hknown := turn.spares.tasks t task hne h.known
    exact ⟨task, h.same hknown rfl rfl rfl (turn.queue hrole) hstage⟩
  | relay | joined | settled => exact h.asides (htake.trans (asides_perform rfl))

/-! ## Turns of the cycle -/

/-- What is known after a block of the cycle: it waits in a phase, or has ended. -/
def Lands (t : TaskId) (s : Session) (turns : Legs) (r : Session × Progress) : Prop :=
  match r.2 with
  | .waits p _ => Standing t s turns r.1 (some p)
  | .ends o => Explained t s turns r.1 o

theorem GateBlock.reaches {queue : List (Snippet Text)} {parsed : Nat} {e : Option Text}
    (h : GateBlock t m queue parsed e r) : 4 ≤ r.2.reaches := by
  cases h <;> simp [Progress.reaches]

theorem LoadingBlock.reaches {queue : List (Snippet Text)} {parsed : Nat} {load : TaskId}
    (h : LoadingBlock t m queue parsed load r) : 3 ≤ r.2.reaches := by
  cases h with
  | goes _ h => exact Nat.le_of_succ_le h.reaches
  | broken | asks => simp [Progress.reaches]

theorem RulesBlock.reaches (h : RulesBlock t m r) : 2 ≤ r.2.reaches := by
  cases h with
  | goes _ h => exact Nat.le_of_succ_le h.reaches
  | broken | none | awaits => simp [Progress.reaches]

theorem CycleBlock.reaches (h : CycleBlock t m r) : 1 ≤ r.2.reaches := by
  cases h with
  | goes h => exact Nat.le_of_succ_le h.reaches
  | asks => exact Nat.le_refl 1

theorem GateBlock.lands {rules : List Value} {e : Option Text}
    (h : GateBlock t m (s.queue ++ Script.parseAll rules) (Script.parseAll rules).length e r)
    (hturn : HasTurn turns m) (h₁ : Crosses t turns 1 m₁) (hrules : m₁.host.rules? = some rules)
    (h₂ : Crosses t turns 2 m₂) (he : Tells (m₂.outcomeOf m₁.shares) e)
    (h₃ : Crosses t turns 3 m) : Lands t s turns r := by
  cases h with
  | broken hf h => exact ⟨hf, m, hturn, h⟩
  | @shut s' hgate hq hs =>
    refine ⟨_, rfl, m₁, m₂, m, h₁, h₂, h₃, ?_⟩
    show Determined t s s' m₁ m₂ m _
    rw [Determined, hrules]
    refine ⟨hq, ?_⟩
    rw [if_neg (by simp [hgate]), hq]
    exact ⟨hs, rfl⟩
  | @hands s' d hgate hnone hd hdq hq hs =>
    subst hnone
    exact ⟨m₁, m₂, m, rules, d, h₁, h₂, h₃, hrules, he, hgate, hd, hdq.trans hq.symm, hq, hs, rfl,
      rfl⟩
  | @done s' d hgate hd hdq hq hs =>
    refine ⟨_, rfl, m₁, m₂, m, h₁, h₂, h₃, ?_⟩
    show Determined t s s' m₁ m₂ m _
    rw [Determined, hrules]
    refine ⟨hq, ?_⟩
    rw [if_pos hgate]
    exact ⟨hs, e, d, he, hd, hdq.trans hq.symm, map_fst_handled _, rfl⟩

theorem LoadingBlock.lands {rules : List Value}
    (h : LoadingBlock t m (s.queue ++ Script.parseAll rules) (Script.parseAll rules).length
      m₁.shares r)
    (hturn : HasTurn turns m) (h₁ : Crosses t turns 1 m₁) (hrules : m₁.host.rules? = some rules)
    (hcross : ∀ i, 2 ≤ i → i < r.2.reaches → Crosses t turns i m) : Lands t s turns r := by
  have hreaches := h.reaches
  have h₂ := hcross 2 (Nat.le_refl 2) hreaches
  cases h with
  | broken hf h => exact ⟨hf, m, hturn, h⟩
  | asks he hq hs => exact ⟨m₁, m, rules, h₁, h₂, hrules, rfl, he, hq, hs⟩
  | goes he h => exact h.lands hturn h₁ hrules h₂ he (hcross 3 (by decide) h.reaches)

theorem RulesBlock.lands (h : RulesBlock t m r) (hq : m.queue = s.queue)
    (hs : m.stage = s.stage) (hturn : HasTurn turns m)
    (hcross : ∀ i, 1 ≤ i → i < r.2.reaches → Crosses t turns i m) : Lands t s turns r := by
  have hreaches := h.reaches
  have h₁ := hcross 1 (Nat.le_refl 1) hreaches
  cases h with
  | broken hf h => exact ⟨hf, m, hturn, h⟩
  | @none s' hrules hq' hs' =>
    have h₂ := hcross 2 (by decide) (show 2 < 5 by decide)
    have h₃ := hcross 3 (by decide) (show 3 < 5 by decide)
    refine ⟨_, rfl, m, m, m, h₁, h₂, h₃, ?_⟩
    show Determined t s s' m m m _
    rw [Determined, hrules]
    exact ⟨by rw [hq], hq'.trans hq, hs'.trans hs⟩
  | @awaits s' rules hrules hq' hs' =>
    rw [hq] at hq'
    exact ⟨m, rules, h₁, hrules, rfl, rfl, hq', hs'⟩
  | goes hrules h =>
    rw [hq] at h
    exact h.lands hturn h₁ hrules fun i hi => hcross i (Nat.le_of_succ_le hi)

theorem CycleBlock.lands (h : CycleBlock t m r) (hq : m.queue = s.queue)
    (hs : m.stage = s.stage) (hturn : HasTurn turns m)
    (hcross : ∀ i, i < r.2.reaches → Crosses t turns i m) : Lands t s turns r := by
  cases h with
  | asks hq' hs' => exact ⟨hq'.trans hq, hs'.trans hs⟩
  | goes h => exact h.lands hq hs hturn fun i _ => hcross i

theorem queue_stage_conclude (s : Session) (p : Progress) :
    (s.conclude t p).queue = s.queue ∧ (s.conclude t p).stage = s.stage := by
  cases p with
  | waits p w =>
    obtain ⟨ready, he⟩ := suspend_eq s t p w [] (.ok none)
    rw [conclude, he]
    exact ⟨rfl, rfl⟩
  | ends o =>
    rw [conclude, finish_eq]
    exact ⟨rfl, rfl⟩

theorem reached_conclude (ht : r.1.tasks[t]? = some task) (hlive : task.outcome = none) :
    (r.1.conclude t r.2).reached t = r.2.reaches := by
  obtain ⟨s₁, p⟩ := r
  cases p with
  | waits p w =>
    rw [reached, conclude, task_suspend ht]
    show Task.reached { task with phase := some p, due := [], verdict := .ok none } = _
    rw [Task.reached, hlive]
    cases p <;> rfl
  | ends o =>
    rw [reached, conclude, task_finish ht]
    rfl

/-- A cycle whose block came to `r` is where that leads. -/
theorem followed_conclude {scheduled : Bool} (ht : r.1.tasks[t]? = some task)
    (hlive : task.outcome = none) (hr : task.role = .cycle scheduled)
    (hn : turns.length ≤ r.2.reaches)
    (h : Lands t s turns r) : ∃ task', Followed t s turns (r.1.conclude t r.2) task' := by
  have hreached := reached_conclude ht hlive
  obtain ⟨s₁, p⟩ := r
  obtain ⟨hq, hs⟩ := queue_stage_conclude (t := t) s₁ p
  cases p with
  | waits p w =>
    have hknown : (s₁.suspend t p w [] (.ok none)).tasks[t]? =
        some { task with phase := some p, due := [], verdict := .ok none } := task_suspend ht
    rw [reached, conclude, hknown] at hreached
    refine ⟨_, hknown, ⟨scheduled, hr⟩, ?_, fun _ => Standing.same h hq hs, fun o ho => ?_⟩
    · exact Nat.le_trans hn (Nat.le_of_eq hreached.symm)
    · rw [hlive] at ho
      cases ho
  | ends o =>
    refine ⟨_, task_finish ht, ⟨scheduled, hr⟩, hn, fun ho => ?_, fun o' ho => ?_⟩
    · cases ho
    · cases ho
      exact Explained.same h hq hs

theorem reached_lt (hlive : task.outcome = none) : task.reached < 5 := by
  rw [Task.reached, hlive]
  cases task.phase with
  | none => simp
  | some p => cases p <;> simp [Progress.reaches]

/-- A loading that a session keeps, or would begin, fails in one way only. -/
theorem loadsOrBreaks_of_reachable (h : Reachable m) {load : TaskId}
    (hr : m.role? load = some .load ∨ m.outcome? load = none) : m.LoadsOrBreaks load := by
  intro f hf
  rcases hr with hr | hn
  · exact (told_of_reachable h).loaded load _ hr hf
  · rw [hn] at hf
    cases hf

theorem loadsOrBreaks_shares (h : Reachable m) : m.LoadsOrBreaks m.shares := by
  refine loadsOrBreaks_of_reachable h ?_
  unfold shares
  cases hl : m.loading with
  | some load => exact .inl ((tidy_of_reachable h).loads load hl)
  | none => exact .inr (by simp [outcome?])

/-- A turn of `t` that began in `m` has not done anything yet. -/
structure Outset (m d : Session) : Prop extends Scene m d where
  length : d.tasks.length = m.tasks.length
  loading : d.loading = m.loading
  queue : d.queue = m.queue
  stage : d.stage = m.stage

theorem outset_heed (m : Session) (ready : List Job) (t : TaskId) :
    Outset m (({ m with ready } : Session).heed t) where
  setup := rfl
  host := rfl
  event := rfl
  runner := rfl
  outcomes u := outcome?_modifyTask (s := { m with ready }) (t := t) (u := u) (by simp)
  length := List.length_modify ..
  loading := rfl
  queue := rfl
  stage := rfl

/-- The last turn of a cycle, after its batch. -/
theorem Standing.reportBatch {report : Report} {failure : Option Failure}
    (h : Standing t s turns m (some (.dispatched report failure))) (hd : Outset m d) :
    4 < (d.reportBatch t report failure).2.reaches ∧
      Lands t s turns (d.reportBatch t report failure) := by
  obtain ⟨m₁, m₂, m₃, rules, d₀, h₁, h₂, h₃, hrules, he, hgate, hd₀, hdq, hq, hs, rfl, rfl⟩ := h
  rcases reportBatch_account d d₀ t (Script.parseAll rules).length with
    ⟨s', hreport, hq', hs'⟩ | ⟨f, hf, hraised, hreport⟩
  · rw [hreport]
    refine ⟨Nat.lt_succ_self 4, _, rfl, m₁, m₂, m₃, h₁, h₂, h₃, ?_⟩
    show Determined t s s' m₁ m₂ m₃ _
    rw [Determined, hrules]
    refine ⟨hq'.trans (hd.queue.trans hq), ?_⟩
    rw [if_pos hgate]
    exact ⟨hs'.trans (hd.stage.trans hs), none, d₀, he, hd₀,
      hdq.trans (hd.queue.symm.trans hq'.symm), map_fst_handled _, rfl⟩
  · rw [hreport]
    obtain ⟨m₃', hm₃, -⟩ := h₃
    exact ⟨Nat.lt_succ_self 4, hf, m₃, ⟨m₃', hm₃⟩, .batch hd₀ hraised⟩

/-- What the turn of a cycle comes to, by the phase it was in. -/
theorem Followed.lands (h : Followed t s turns m task) (hreach : Reachable m)
    (hstage : s.stage ≠ .suppressed) (turn : Turn { m with ready := before ++ after } t task)
    (hd : Outset m d) (hturns : turns ⊆ turns') (hturn : HasTurn turns' m)
    (hcross : ∀ i, task.reached ≤ i → i < (d.blockOf t task .cycle).2.reaches →
      Crosses t turns' i m) :
    task.reached < (d.blockOf t task .cycle).2.reaches ∧
      Lands t s turns' (d.blockOf t task .cycle) := by
  obtain ⟨scheduled, hrole⟩ := h.cycle
  have hkind : ∀ p, task.phase = some p → p.kind = .cycle :=
    fun p hp => Role.kind_of_allows (hrole ▸ turn.fits.phase p hp)
  have hstands := (h.stands turn.live).mono hturns
  cases hc : task.cancelRequested with
  | true =>
    rw [blockOf_cancelled hc hkind]
    exact ⟨reached_lt turn.live, rfl, m, hturn, .told h.known hc⟩
  | false =>
    unfold blockOf at hcross ⊢
    rw [hc] at hcross ⊢
    cases hphase : task.phase with
    | none =>
      rw [hphase] at hstands hcross
      obtain ⟨hq, hs⟩ := hstands
      have hblock := cycleBlock_cycle (t := t) hd.toScene hd.length hd.loading hd.queue hd.stage
        (by rw [hs]; exact hstage) (loadsOrBreaks_shares hreach)
      have hreached : task.reached = 0 := by rw [Task.reached, turn.live, hphase]
      rw [hreached] at hcross ⊢
      exact ⟨hblock.reaches, hblock.lands hq hs hturn fun i => hcross i (Nat.zero_le i)⟩
    | some p =>
      rw [hphase] at hstands hcross
      have hreached : task.reached = Progress.reaches (.waits p .turn) := by
        rw [Task.reached, turn.live, hphase]
      rw [hreached] at hcross ⊢
      cases p with
      | rules =>
        obtain ⟨hq, hs⟩ := hstands
        have hblock := rulesBlock_takeRules (t := t) hd.toScene hd.length hd.loading hd.queue
          hd.stage (loadsOrBreaks_shares hreach)
        exact ⟨hblock.reaches, hblock.lands hq hs hturn hcross⟩
      | loading parsed load =>
        obtain ⟨m₁, rules, h₁, hrules, rfl, rfl, hq, hs⟩ := hstands
        have hrole := (tidy_of_reachable hreach).targets t task _ _ h.known hphase rfl
        have hblock := loadingBlock_takeLoading (t := t) hd.toScene (hd.stage.trans hs)
          (Script.parseAll rules).length (turn.loaded _ _ hphase rfl hc)
          (loadsOrBreaks_of_reachable hreach (.inl hrole))
        rw [hd.queue, hq] at hblock
        exact ⟨hblock.reaches, hblock.lands hturn h₁ hrules hcross⟩
      | gate parsed e =>
        obtain ⟨m₁, m₂, rules, h₁, h₂, hrules, rfl, he, hq, hs⟩ := hstands
        have hblock := gateBlock_takeGate (t := t) hd.toScene (hd.stage.trans hs)
          (Script.parseAll rules).length e
        rw [hd.queue, hq] at hblock
        exact ⟨hblock.reaches, hblock.lands hturn h₁ hrules h₂ he
          (hcross 3 (Nat.le_refl 3) hblock.reaches)⟩
      | dispatched r failure => exact hstands.reportBatch hd
      | _ => exact hstands.elim

theorem Followed.turn (h : Followed t s turns m task) (hreach : Reachable m)
    (hstage : s.stage ≠ .suppressed) (hr : m.ready = before ++ .resume t :: after)
    (hm : ({ m with ready := before ++ after } : Session).perform (.resume t) = m') :
    ∃ task', Followed t s (turns ++ [(m, m')]) m' task' := by
  obtain ⟨scheduled, hrole⟩ := h.cycle
  obtain ⟨task₀, turn⟩ := (tidy_of_reachable hreach).turn hr
  obtain rfl : task₀ = task := Option.some.inj (turn.known.symm.trans h.known)
  have hkind : ∀ p, task₀.phase = some p → p.kind = .cycle :=
    fun p hp => Role.kind_of_allows (hrole ▸ turn.fits.phase p hp)
  have hblock : Block .cycle t (({ m with ready := before ++ after } : Session).heed t)
      ((({ m with ready := before ++ after } : Session).heed t).blockOf t task₀ .cycle) :=
    block_blockOf (c := .cycle) hkind fun p load => turn.loaded_heed
  have htask := hblock.moves.task (task_heed turn.known)
  have he : m' = _ := hm.symm.trans (resume_single turn (c := .cycle) (by rw [hrole]; rfl))
  have hreached : m.reached t = task₀.reached := by rw [reached, h.known]; rfl
  have hreached' := reached_conclude htask turn.live
  rw [← he] at hreached'
  have hmem : (m, m') ∈ turns ++ [(m, m')] := by simp
  obtain ⟨hlt, hlands⟩ := h.lands hreach hstage turn (outset_heed m (before ++ after) t)
    (List.subset_append_left _ _) ⟨m', hmem⟩ fun i hi hi' =>
      ⟨m', hmem, hreached ▸ hi, hreached'.symm ▸ hi'⟩
  have hlength : (turns ++ [(m, m')]).length ≤ _ :=
    Nat.le_trans (by simp) (Nat.lt_of_le_of_lt h.few hlt)
  obtain ⟨task', hf⟩ := followed_conclude htask turn.live hrole hlength hlands
  rw [← he] at hf
  exact ⟨task', hf⟩

theorem Solo.followed (h : Solo t s turns m) (hreach : Reachable s) (ht : s.tasks[t]? = some task)
    (hr : ∃ scheduled, task.role = .cycle scheduled) (hp : task.phase = none)
    (ho : task.outcome = none) (hstage : s.stage ≠ .suppressed) :
    ∃ task', Followed t s turns m task' := by
  induction h with
  | refl =>
    refine ⟨task, ht, hr, Nat.zero_le _, fun _ => ?_, fun o ho' => ?_⟩
    · rw [hp]
      exact ⟨rfl, rfl⟩
    · rw [ho] at ho'
      cases ho'
  | act h c hc ih =>
    obtain ⟨task', hf⟩ := ih
    exact hf.asides (asides_act (tidy_of_reachable (h.reachable hreach)) hc)
  | turn h hready hm ih =>
    obtain ⟨task', hf⟩ := ih
    exact hf.turn (h.reachable hreach) hstage hready hm
  | other h hready hj hm hstage' ih =>
    subst hm
    obtain ⟨task', hf⟩ := ih
    exact hf.other (tidy_of_reachable (h.reachable hreach)) hready hj hstage'

/-- A report that does not say that the cycle was completed says nothing of snippets. -/
theorem Determined.bare {m₃ : Session} {r : Report} (h : Determined t s s' m₁ m₂ m₃ r)
    (hr : r.status ≠ .completed) :
    r.locals = [] ∧ r.externals = [] ∧ r.invoked = false ∧ r.errors = [] := by
  unfold Determined at h
  split at h
  · rw [h.1]
    exact ⟨rfl, rfl, rfl, rfl⟩
  · obtain ⟨-, h⟩ := h
    split at h
    · obtain ⟨-, e, d, -, -, -, -, rfl⟩ := h
      exact absurd rfl hr
    · rw [h.2]
      exact ⟨rfl, rfl, rfl, rfl⟩

end Solo

end Session

end Snippets
