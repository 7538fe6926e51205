import Snippets.Proofs.Session.Dispatch
import Snippets.Proofs.Session.Loading

/-!
# Sharing in a loading

Whoever shares in a loading and is not told to give up learns how it ended, once for each time that
it does so (`Owing`), and a task that only gets the runner ends with just what it learned (`Asks`).
To tell somebody to give up leaves every loading alone (`untouched_cancel`). With what is known of
the loadings themselves this says that the runner is loaded once for all who need it
(`single_flight`).
-/

namespace Snippets

/-- The loading of which a task has yet to learn how it ended. -/
def Task.shares? (task : Task) : Option TaskId :=
  if task.outcome.isNone then task.phase.bind Phase.shares? else none

theorem Phase.shares?_of_kind {p : Phase} (hc : p.kind ≠ .cycle) (hg : p.kind ≠ .get) :
    p.shares? = none := by
  cases p <;> simp_all [Phase.kind, Phase.shares?]

theorem Phase.kind_ne_get {p : Phase} (h : p.shares? = none) : p.kind ≠ .get := by
  cases p <;> simp_all [Phase.kind, Phase.shares?]

theorem Task.shares?_eq {task : Task} {p : Phase} (ho : task.outcome = none)
    (hp : task.phase = some p) : task.shares? = p.shares? := by
  simp [shares?, ho, hp]

theorem Owes.attached {stages : List Happening} (h : Owes stages none) (load : TaskId) :
    Owes (stages ++ [.attached load]) (some load) := by
  intro load'
  have hl := h load'
  simp [List.countP_append, List.countP_cons, Happening.isAttached, Happening.isReceived] at hl ⊢
  omega

theorem Owes.received {stages : List Happening} {load : TaskId} (h : Owes stages (some load))
    (o : Outcome) : Owes (stages ++ [.received load o]) none := by
  intro load'
  have hl := h load'
  simp [List.countP_append, List.countP_cons, Happening.isAttached, Happening.isReceived] at hl ⊢
  omega

theorem Owes.reported {stages : List Happening} {due : Option TaskId} (h : Owes stages due)
    (o : Except Failure Report) : Owes (stages ++ [.reported o]) due := by
  intro load
  simpa [List.countP_append, Happening.isAttached, Happening.isReceived] using h load

namespace Session

/-! ## The other tasks -/

/-- Only `who` may have gone on: the other tasks are as they were, and there may be new ones. -/
structure Spares (who : Option TaskId) (s s' : Session) : Prop where
  tasks : ∀ (u : TaskId) (task : Task), who ≠ some u → s.tasks[u]? = some task →
    s'.tasks[u]? = some task
  fresh : ∀ (u : TaskId) (task : Task), s.tasks.length ≤ u → s'.tasks[u]? = some task →
    ∃ role due, task = { role, due }
  trail : ∀ u, who ≠ some u → s'.journal.trail u = s.journal.trail u
  mem : ∀ e ∈ s.journal, e ∈ s'.journal

section Spares

variable {s s₁ s₂ : Session} {t : TaskId} {who : Option TaskId} {k : Kind}

theorem Spares.refl (s : Session) : Spares who s s := by
  refine ⟨fun _ _ _ hu => hu, ?_, fun _ _ => rfl, fun _ he => he⟩
  intro u task hle hu
  rw [List.getElem?_eq_none hle] at hu
  cases hu

/-- A task that does not go on is as it was, or new. -/
theorem Spares.cases (h : Spares who s s₁) {u : TaskId} {task : Task} (hu : who ≠ some u)
    (ht : s₁.tasks[u]? = some task) :
    s.tasks[u]? = some task ∨ s.tasks.length ≤ u ∧ ∃ role due, task = { role, due } := by
  cases hs : s.tasks[u]? with
  | some old =>
    have hsame := h.tasks u old hu hs
    rw [ht] at hsame
    exact .inl hsame.symm
  | none =>
    have hle : s.tasks.length ≤ u := List.getElem?_eq_none_iff.1 hs
    exact .inr ⟨hle, h.fresh u task hle ht⟩

theorem Spares.moves (h : Spares who s s₁) (m : Moves k who s₁ s₂) : Spares who s s₂ := by
  obtain ⟨new, htasks, hnew⟩ := m.tasks
  refine ⟨fun u task hu ht => m.task (h.tasks u task hu ht), ?_, ?_, ?_⟩
  · intro u task hle hu
    rw [htasks, List.getElem?_append] at hu
    split_ifs at hu
    · exact h.fresh u task hle hu
    · exact hnew task (List.mem_of_getElem? hu)
  · exact fun u hu => (m.trail_other hu).trans (h.trail u hu)
  · exact fun e he => m.extends.mem (h.mem e he)

theorem Spares.congr (h : Spares who s s₁) (ht : s₂.tasks = s₁.tasks)
    (hj : s₂.journal = s₁.journal) : Spares who s s₂ := by
  refine ⟨?_, ?_, ?_, ?_⟩
  · rw [ht]
    exact h.tasks
  · rw [ht]
    exact h.fresh
  · rw [hj]
    exact h.trail
  · rw [hj]
    exact h.mem

theorem Spares.modify (h : Spares (some t) s s₁) (ht : t < s.tasks.length) (f : Task → Task) :
    Spares (some t) s (s₁.modifyTask t f) := by
  refine ⟨?_, ?_, h.trail, h.mem⟩
  · intro u task hu hs
    rw [tasks_modifyTask, if_neg fun he => hu (congrArg some he)]
    exact h.tasks u task hu hs
  · intro u task hle hu
    rw [tasks_modifyTask, if_neg (Nat.ne_of_lt (Nat.lt_of_lt_of_le ht hle))] at hu
    exact h.fresh u task hle hu

theorem Spares.record (h : Spares who s s₁) {a : Option TaskId} {w : Happening}
    (hw : ∀ u, who ≠ some u → a = some u → w.isStage = false) : Spares who s (s₁.record a w) := by
  refine ⟨h.tasks, h.fresh, ?_, fun e he => List.mem_append_left _ (h.mem e he)⟩
  intro u hu
  refine (Journal.trail_append_of_not ?_).trans (h.trail u hu)
  intro e he ht
  rw [List.mem_singleton.1 he] at ht ⊢
  exact hw u hu ht

theorem Spares.spawn (h : Spares who s s₁) (role : Role) (due : List Due) :
    Spares who s (s₁.spawn role due).1 := by
  refine ⟨fun u task hu ht => tasks_spawn_of_some (h.tasks u task hu ht), ?_, h.trail, h.mem⟩
  intro u task hle hu
  rcases tasks_spawn_cases hu with hu | ⟨-, rfl⟩
  · exact h.fresh u task hle hu
  · exact ⟨role, due, rfl⟩

theorem Spares.suspend (h : Spares (some t) s s₁) (ht : t < s.tasks.length) (p : Phase) (w : Wait)
    (due : List Due) (verdict : Verdict) :
    Spares (some t) s (s₁.suspend t p w due verdict) := by
  obtain ⟨ready, he⟩ := suspend_eq s₁ t p w due verdict
  rw [he]
  exact (h.modify ht _).congr rfl rfl

theorem Spares.finish (h : Spares (some t) s s₁) (ht : t < s.tasks.length) (o : Outcome) :
    Spares (some t) s (s₁.finish t o) := by
  have hm : Spares (some t) s (s₁.ended t o) := (h.modify ht _).congr rfl rfl
  obtain ⟨-, new, hj, hnew⟩ := extends_finish (s := s₁) (t := t) (o := o)
  have htasks : (s₁.finish t o).tasks = (s₁.ended t o).tasks := by rw [finish_eq]
  refine ⟨htasks ▸ hm.tasks, htasks ▸ hm.fresh, ?_, ?_⟩
  · intro u hu
    rw [hj, Journal.trail_append_of_not, h.trail u hu]
    intro e he ht
    obtain ⟨x, rfl⟩ := hnew e he
    exact absurd ht hu
  · intro e he
    rw [hj]
    exact List.mem_append_left _ (h.mem e he)

/-- The turn of a task is no matter of the others. -/
theorem Turn.spares {task : Task} (turn : Turn s t task) : Spares (some t) s (s.resume t) := by
  refine resume_of_moves (P := Spares (some t) s) turn ((Spares.refl s).modify turn.lt _) ?_ ?_ ?_
  · exact fun k s₁ s₂ _ m _ h => h.moves m
  · exact fun s₁ p w due verdict _ h => h.suspend turn.lt p w due verdict
  · exact fun s₁ o _ h => h.finish turn.lt o

theorem Turn.role?_resume {task : Task} (turn : Turn s t task) :
    (s.resume t).role? t = some task.role := by
  refine resume_of_moves (P := fun s => s.role? t = some task.role)
    (Q := fun s => s.role? t = some task.role) turn ((role?_heed t).trans turn.role?) ?_ ?_ ?_
  · exact fun k s₁ s₂ _ m _ h => m.role? h
  · exact fun s₁ p w due verdict _ h => role?_suspend.trans h
  · exact fun s₁ o _ h => role?_finish.trans h

/-- A change aside lets nobody go on, but somebody may be told to give up. -/
theorem Aside.spares (m : Aside s s₁) : (∃ t role, s.role? t = some role ∧ role ≠ .load ∧
    s₁ = s.tell t) ∨ Spares none s s₁ := by
  cases m with
  | move m => exact .inr ((Spares.refl s).moves (.single m))
  | spawn role due hf hl => exact .inr ((Spares.refl s).spawn role due)
  | tell t role hr hl => exact .inl ⟨t, role, hr, hl, rfl⟩
  | note t l hlt => exact .inr ((Spares.refl s).record fun _ _ _ => rfl)
  | turns => exact .inr ((Spares.refl s).congr rfl rfl)

theorem spares_tell (ht : t < s.tasks.length) : Spares (some t) s (s.tell t) :=
  ((Spares.refl s).modify ht _).record fun _ _ _ => rfl

end Spares

/-! ## What is owed -/

/-- Unless it was told to give up, a task has learned how each loading ended that it shared in, but
for once of `due`. -/
def Lacks (s : Session) (t : TaskId) (due : Option TaskId) : Prop :=
  ⟨some t, .cancelled⟩ ∉ s.journal → Owes (s.journal.trail t) due

/-- A task that is to give up was told so, and one that was not lacks only what it waits for. -/
structure Pays (s : Session) (t : TaskId) (task : Task) : Prop where
  told : task.cancelRequested → ⟨some t, .cancelled⟩ ∈ s.journal
  lacks : s.Lacks t task.shares?

def Owing (s : Session) : Prop :=
  ∀ (t : TaskId) (task : Task), s.tasks[t]? = some task → s.Pays t task

section Owing

variable {s s' : Session} {t : TaskId} {task : Task} {due : Option TaskId} {ok : Entry → Prop}

theorem lacks_of_told (h : ⟨some t, .cancelled⟩ ∈ s.journal) (due : Option TaskId) :
    s.Lacks t due :=
  fun hn => absurd h hn

theorem Lacks.extends (h : s.Lacks t due) (hx : Extends ok s s')
    (ht : s'.journal.trail t = s.journal.trail t) : s'.Lacks t due := by
  intro hn
  rw [ht]
  exact h fun hm => hn (hx.mem hm)

theorem Lacks.attach (h : s.Lacks t none) : (s.attach t).1.Lacks t (some (s.attach t).2) := by
  intro hn
  rw [trail_attach rfl]
  have m : Move .get (some t) s (s.attach t).1 := .attach s t rfl (.inr rfl)
  exact Owes.attached (h fun hm => hn (m.extends.mem hm)) _

theorem Lacks.receive {load : TaskId} (h : s.Lacks t (some load)) :
    (s.receive t load).1.Lacks t none := by
  intro hn
  have ht : (s.receive t load).1.journal.trail t = _ := Journal.trail_concat rfl
  rw [ht]
  exact Owes.received (h fun hm => hn (List.mem_append_left _ hm)) _

theorem Lacks.suspend (ht : s.tasks[t]? = some task) (ho : task.outcome = none)
    (hc : task.cancelRequested = false) {p : Phase} (h : s.Lacks t p.shares?) (w : Wait)
    (calls : List Due) (verdict : Verdict) (new : Task)
    (hnew : (s.suspend t p w calls verdict).tasks[t]? = some new) :
    (s.suspend t p w calls verdict).Pays t new := by
  rw [task_suspend ht] at hnew
  cases hnew
  refine ⟨fun hc' => ?_, ?_⟩
  · rw [show task.cancelRequested = true from hc'] at hc
    cases hc
  · have hs : ({ task with phase := some p, due := calls, verdict } : Task).shares? = p.shares? :=
      Task.shares?_eq ho rfl
    obtain ⟨ready, he⟩ := suspend_eq s t p w calls verdict
    rw [hs, he]
    exact h

theorem Lacks.finish (ht : s.tasks[t]? = some task) (hc : task.cancelRequested = false)
    (h : s.Lacks t none) (o : Outcome) (new : Task)
    (hnew : (s.finish t o).tasks[t]? = some new) : (s.finish t o).Pays t new := by
  have hlacks : (s.finish t o).Lacks t none := by
    intro hn
    rw [finish_eq] at hn ⊢
    have hold := h fun hm => hn (List.mem_append_left _ hm)
    show Owes (Journal.trail (s.journal ++ _) t) none
    split
    · rw [Journal.trail_concat rfl]
      exact hold.reported _
    · rw [List.append_nil]
      exact hold
  rw [task_finish ht] at hnew
  cases hnew
  refine ⟨fun hc' => ?_, hlacks⟩
  rw [show task.cancelRequested = true from hc'] at hc
  cases hc

theorem Owing.spares {who : Option TaskId} (h : Owing s) (hrec : Recorded none s)
    (hx : Spares who s s') (hwho : ∀ (t : TaskId) (task : Task), who = some t →
      s'.tasks[t]? = some task → s'.Pays t task) : Owing s' := by
  intro u task hu
  by_cases hw : who = some u
  · exact hwho u task hw hu
  · rcases hx.cases hw hu with hs | ⟨hle, role, calls, rfl⟩
    · refine ⟨fun hc => hx.mem _ ((h u task hs).told hc), fun hn => ?_⟩
      rw [hx.trail u hw]
      exact (h u task hs).lacks fun hm => hn (hx.mem _ hm)
    · refine ⟨nofun, fun _ => ?_⟩
      rw [hx.trail u hw, hrec.trail_of_le hle]
      exact settles_nil.owes

theorem Owing.aside (h : Owing s) (hrec : Recorded none s) (m : Aside s s') : Owing s' := by
  rcases m.spares with ⟨t, role, hr, -, rfl⟩ | hx
  · refine h.spares hrec (spares_tell (lt_of_role? hr)) ?_
    rintro u new ⟨⟩ -
    have htold : ⟨some t, .cancelled⟩ ∈ (s.tell t).journal :=
      List.mem_append_right _ List.mem_cons_self
    exact ⟨fun _ => htold, lacks_of_told htold _⟩
  · exact h.spares hrec hx fun t task hn => absurd hn (by simp)

/-- A running task lacks nothing between two of its blocks. -/
structure Even (t : TaskId) (task : Task) (s : Session) : Prop where
  task : s.tasks[t]? = some { task with cancelRequested := false }
  lacks : s.Lacks t none

/-- Whatever has become of a task, it pays. -/
def Squares (t : TaskId) (s : Session) : Prop :=
  ∀ task : Task, s.tasks[t]? = some task → s.Pays t task

/-- A block that neither shares in a loading nor learns how one ended. -/
theorem Even.block {k : Kind} {r : Session × Progress} (h : Even t task s)
    (ho : task.outcome = none) (hb : Block k t s r) (hc : k ≠ .cycle) (hg : k ≠ .get) :
    Leads t task.role (Even t task) (Squares t) r := by
  obtain ⟨s', p⟩ := r
  have htask : s'.tasks[t]? = _ := hb.moves.task h.task
  have hlacks : s'.Lacks t none := h.lacks.extends hb.moves.extends
    (hb.moves.extends.trail fun _ he _ => not_isStage_of_isOf hc hg he.isOf)
  cases p with
  | ends o => exact ⟨htask, hlacks⟩
  | waits p w =>
    obtain ⟨hk, -⟩ := hb.waits p w rfl
    rw [← Phase.shares?_of_kind (p := p) (hk ▸ hc) (hk ▸ hg)] at hlacks
    exact fun calls verdict _ => hlacks.suspend htask ho rfl w calls verdict

/-- Getting the runner: the task learns how the loading ended, or waits for it. -/
theorem Even.get (h : Even t task s) (ho : task.outcome = none) :
    Leads t task.role (Even t task) (Squares t) (s.get t) := by
  have m : Moves .get (some t) s (s.attach t).1 := .single (.attach s t rfl (.inr rfl))
  have htask := m.task h.task
  have hlacks := h.lacks.attach
  unfold Session.get
  generalize s.attach t = r at htask hlacks ⊢
  obtain ⟨s', load⟩ := r
  dsimp only at htask hlacks ⊢
  split_ifs
  · exact ⟨htask, hlacks.receive⟩
  · intro calls verdict _
    exact Lacks.suspend (p := .getting load) htask ho rfl hlacks _ calls verdict

theorem Even.beginCall (h : Even t task s) (ho : task.outcome = none) {c : Call}
    (hc : c.kind ≠ .cycle) : Leads t task.role (Even t task) (Squares t) (s.beginCall t c) := by
  by_cases hg : c = .get
  · subst hg
    exact h.get ho
  · exact h.block ho (block_beginCall c) hc fun hk => hg (by cases c <;> first | rfl | cases hk)

/-- The turn of a task that is no cycle: it may get the runner any number of times. -/
theorem Owing.resume_other (h : Owing s) (hrec : Recorded none s) (turn : Turn s t task)
    (hr : ∀ scheduled, task.role ≠ .cycle scheduled) : Owing (s.resume t) := by
  have ht := turn.known
  have ho := turn.live
  have hf := turn.fits
  have hpays := h t task ht
  have heven : task.shares? = none → Even t task (s.heed t) :=
    fun hs => ⟨task_heed ht, hs ▸ hpays.lacks⟩
  refine h.spares hrec turn.spares ?_
  rintro u new ⟨⟩
  revert new
  refine resume_keeps (P := Even t task) (Q := Squares t) turn ?_ ?_ ?_ ?_ ?_
  · intro hp
    exact heven (by simp [Task.shares?, hp])
  · intro p hp hc
    cases hs : p.shares? with
    | none =>
      exact (heven ((Task.shares?_eq ho hp).trans hs)).block ho
        (block_continueCall p fun load hl => turn.loaded_heed hp hl hc)
        (Role.ne_cycle_of_allows hr (hf.phase p hp)) (Phase.kind_ne_get hs)
    | some load =>
      -- the task waited for the loading and learns how it ended
      have hlacks : (s.heed t).Lacks t (some load) := by
        rw [← hs, ← Task.shares?_eq ho hp]
        exact hpays.lacks
      have hk := Role.ne_cycle_of_allows hr (hf.phase p hp)
      cases p with
      | getting load' =>
        cases hs
        exact ⟨task_heed ht, hlacks.receive⟩
      | loading parsed load' => exact absurd rfl hk
      | _ => cases hs
  · intro p hp hc
    have htold : ⟨some t, .cancelled⟩ ∈ (s.heed t).journal := hpays.told hc
    have hb := block_abandonCall (t := t) (s := s.heed t) p
    have hends : ∃ o, ((s.heed t).abandonCall t p).2 = .ends o := by
      cases p <;> exact ⟨_, rfl⟩
    obtain ⟨o, hends⟩ := hends
    unfold Leads
    rw [hends]
    exact ⟨hb.moves.task (task_heed ht), lacks_of_told (hb.moves.extends.mem htold) _⟩
  · exact fun s' c hc heven' => heven'.beginCall ho (Role.ne_cycle_of_allows hr hc)
  · exact fun s' o heven' => Lacks.finish heven'.task rfl heven'.lacks o

/-- The turn of a cycle. -/
theorem Owing.resume_cycle {scheduled : Bool} (h : Owing s) (hrec : Recorded none s)
    (turn : Turn s t task) (hr : task.role = .cycle scheduled) : Owing (s.resume t) := by
  have hcourse := hrec.live t task scheduled turn.known nofun hr turn.live
  obtain ⟨r, he, m, hend⟩ := cycle_turn turn hr hcourse hrec.queue
  have htask := m.task (task_heed turn.known)
  refine h.spares hrec turn.spares ?_
  rintro u new ⟨⟩
  revert new
  rw [he]
  rcases hend with ⟨hc, rfl⟩ | ⟨-, hadv⟩
  · have htold : ⟨some t, .cancelled⟩ ∈ (s.heed t).journal := (h t task turn.known).told hc
    exact Lacks.finish htask rfl (lacks_of_told htold _) _
  · obtain ⟨s', p⟩ := r
    cases p with
    | waits p w =>
      exact Lacks.suspend htask turn.live rfl (fun _ => (Course.once_and_owes hadv).2) w [] _
    | ends o => exact Lacks.finish htask rfl (fun _ => hadv.1) o

theorem Owing.resume (h : Owing s) (hrec : Recorded none s) (turn : Turn s t task) :
    Owing (s.resume t) := by
  cases hr : task.role with
  | cycle scheduled => exact h.resume_cycle hrec turn hr
  | load | other => exact h.resume_other hrec turn (by simp [hr])

end Owing

theorem owing_of_reachable {s : Session} (h : Reachable s) : Owing s := by
  have hboth : Recorded none s ∧ Owing s := by
    refine Reachable.keeps (P := fun s => Recorded none s ∧ Owing s) ?_
      (fun s s' m h => ⟨h.1.aside m, h.2.aside h.1 m⟩)
      (fun s t task turn h => ⟨h.1.resume turn, h.2.resume h.1 turn⟩) h
    intro setup host event
    refine ⟨recorded_of_reachable (.new setup host event), ?_⟩
    intro t task ht
    cases ht
  exact hboth.2

/-! ## Callers -/

/-- What a task that gets the runner and does nothing else goes through, and how it stands then. -/
inductive Asks : List Happening → Task → Prop where
  | begins : Asks [] { due := [⟨.get, false⟩] }
  | waits (load : TaskId) : Asks [.attached load] { phase := some (.getting load), due := [] }
  | ends (p : Option Phase) (load : TaskId) (o : Outcome) :
      Asks [.attached load, .received load o] { phase := p, due := [], outcome := some o }

/-- A task that was created to get the runner goes on so, unless it is told to give up. -/
def Asking (t : TaskId) (s : Session) : Prop :=
  ⟨some t, .cancelled⟩ ∈ s.journal ∨
    ∃ task : Task, s.tasks[t]? = some task ∧ Asks (s.journal.trail t) task

section Asking

variable {s s' : Session} {t : TaskId}

theorem Asking.spares {who : Option TaskId} (h : Asking t s) (hx : Spares who s s')
    (hw : who ≠ some t) : Asking t s' := by
  rcases h with h | ⟨task, ht, ha⟩
  · exact .inl (hx.mem _ h)
  · refine .inr ⟨task, hx.tasks t task hw ht, ?_⟩
    rw [hx.trail t hw]
    exact ha

/-- The task learns how the loading ended, and ends so. -/
theorem asking_receive {load : TaskId} {p : Option Phase} {calls : List Due}
    (ht : s.tasks[t]? = some { phase := p, due := calls })
    (hs : s.journal.trail t = [.attached load]) :
    Asking t ((s.receive t load).1.finish t (s.outcomeOf load)) := by
  have hrole : (s.receive t load).1.role? t = some .other := by
    show s.role? t = _
    simp [role?, ht]
  have htask : ((s.receive t load).1.finish t (s.outcomeOf load)).tasks[t]? =
      some { phase := p, due := [], outcome := some (s.outcomeOf load) } := by
    rw [finish_eq]
    refine (tasks_modifyTask (s.receive t load).1 t t _).trans ?_
    rw [if_pos rfl, show (s.receive t load).1.tasks[t]? = _ from ht]
    rfl
  have htrail : ((s.receive t load).1.finish t (s.outcomeOf load)).journal.trail t =
      [.attached load, .received load (s.outcomeOf load)] := by
    rw [finish_eq, hrole]
    show Journal.trail (s.journal ++ [_] ++ []) t = _
    rw [List.append_nil, Journal.trail_concat rfl, hs]
    rfl
  exact .inr ⟨_, htask, htrail ▸ .ends p load _⟩

/-- The turn of the task itself. -/
theorem Asking.resume {task : Task} (h : Asking t s) (turn : Turn s t task) :
    Asking t (s.resume t) := by
  have ht := turn.known
  rcases h with h | ⟨task', ht', ha⟩
  · exact .inl (turn.spares.mem _ h)
  · rw [ht] at ht'
    cases ht'
    have hheed : (s.heed t).tasks[t]? = _ := task_heed ht
    generalize htrail : s.journal.trail t = stages at ha
    unfold Session.resume
    rw [ht]
    cases ha with
    | begins =>
      show Asking t ((s.heed t).pursue t (.ok none) [⟨.get, false⟩])
      have m : Moves .get (some t) (s.heed t) ((s.heed t).attach t).1 :=
        .single (.attach _ t rfl (.inr rfl))
      have htask := m.task hheed
      have hs := trail_attach (s := s.heed t) htrail
      simp only [pursue, Session.beginCall, Session.get]
      generalize (s.heed t).attach t = r at htask hs ⊢
      obtain ⟨s', load⟩ := r
      dsimp only at htask hs ⊢
      split_ifs
      · simp only [takeRunner, outcome_judge]
        exact asking_receive htask hs
      · show Asking t (s'.suspend t (.getting load) (.shared load) [] (.ok none))
        refine .inr ⟨{ phase := some (.getting load), due := [] }, ?_, ?_⟩
        · show (s'.modifyTask t _).tasks[t]? = _
          rw [tasks_modifyTask, if_pos rfl, htask]
          rfl
        · show Asks (s'.journal.trail t) _
          rw [hs]
          exact .waits load
    | waits load =>
      have hreceive := asking_receive hheed htrail
      rw [← outcome_judge ((s.heed t).outcomeOf load)] at hreceive
      exact hreceive
    | ends p load o => cases turn.live

/-- Whoever is created to get the runner gets it as long as it is not told to give up. -/
theorem asking_of_steps (h : Reachable s)
    (steps : Steps (s.act (.spawn .other [⟨.get, false⟩])).1 s') : Asking s.tasks.length s' := by
  have hreach : Reachable (s.act (.spawn .other [⟨.get, false⟩])).1 := .step h (.act s _ rfl)
  induction steps with
  | refl =>
    refine .inr ⟨{ due := [⟨.get, false⟩] }, ?_, ?_⟩
    · show (s.spawn .other [⟨.get, false⟩]).1.tasks[s.tasks.length]? = _
      simp [tasks_spawn]
    · show Asks (s.journal.trail s.tasks.length) _
      rw [(recorded_of_reachable h).trail_of_le (Nat.le_refl _)]
      exact .begins
  | tail k step ih =>
    refine step.keeps ?_ ?_ (tidy_of_reachable (hreach.steps k)) ih
    · intro s₁ s₂ m ha
      rcases m.spares with ⟨t, role, hr, -, rfl⟩ | hx
      · by_cases he : t = s.tasks.length
        · subst he
          exact .inl (List.mem_append_right _ List.mem_cons_self)
        · exact ha.spares (spares_tell (lt_of_role? hr)) fun hn => he (Option.some.inj hn)
      · exact ha.spares hx (by simp)
    · intro s₁ t task turn ha
      by_cases he : t = s.tasks.length
      · subst he
        exact ha.resume turn
      · exact ha.spares turn.spares fun hn => he (Option.some.inj hn)

end Asking

/-! ## Giving up -/

/-- A loading goes on as before, and so does whatever came of it. -/
structure Untouched (load : TaskId) (s s' : Session) : Prop where
  task : s'.tasks[load]? = s.tasks[load]?
  loading : s'.loading = s.loading
  runner : s'.runner = s.runner
  waiting : ∀ w, (load, w) ∈ s'.waiting ↔ (load, w) ∈ s.waiting
  ready : Job.resume load ∈ s'.ready ↔ Job.resume load ∈ s.ready

section Untouched

variable {s s' s'' : Session} {t load : TaskId}

theorem Untouched.refl (s : Session) : Untouched load s s :=
  ⟨rfl, rfl, rfl, fun _ => Iff.rfl, Iff.rfl⟩

theorem Untouched.trans (h : Untouched load s s') (h' : Untouched load s' s'') :
    Untouched load s s'' :=
  ⟨h'.task.trans h.task, h'.loading.trans h.loading, h'.runner.trans h.runner,
    fun w => (h'.waiting w).trans (h.waiting w), h'.ready.trans h.ready⟩

theorem untouched_tell (hne : t ≠ load) : Untouched load s (s.tell t) := by
  refine ⟨?_, rfl, rfl, fun _ => Iff.rfl, Iff.rfl⟩
  show (s.modifyTask t _).tasks[load]? = _
  rw [tasks_modifyTask, if_neg hne]

theorem untouched_wake (hne : t ≠ load) : Untouched load s (s.wake t) := by
  refine ⟨rfl, rfl, rfl, ?_, ?_⟩
  · intro w
    show (load, w) ∈ s.waiting.filter _ ↔ _
    simp [Ne.symm hne]
  · show Job.resume load ∈ s.ready ++ [Job.resume t] ↔ _
    simp [Ne.symm hne]

theorem untouched_cancelOne (hne : t ≠ load) : Untouched load s (s.cancelOne t) := by
  rcases cancelOne_cases s t with ⟨-, he⟩ | ⟨-, he | ⟨he, -⟩⟩ <;> rw [he]
  · exact .refl s
  · exact untouched_tell hne
  · exact (untouched_tell hne).trans (untouched_wake hne)

theorem untouched_cancelAll {cs : List TaskId} (hne : ∀ c ∈ cs, c ≠ load) :
    Untouched load s (cs.foldl cancelOne s) := by
  induction cs generalizing s with
  | nil => exact .refl s
  | cons c cs ih =>
    exact (untouched_cancelOne (hne c List.mem_cons_self)).trans
      (ih fun c hc => hne c (List.mem_cons_of_mem _ hc))

theorem ne_of_role? {role : Role} (hr : s.role? t = some role) (hrole : role ≠ .load)
    (hl : s.role? load = some .load) : t ≠ load := by
  rintro rfl
  rw [hr] at hl
  exact hrole (Option.some.inj hl)

/-- To tell a task to give up, and those it waits for as its own, leaves every loading alone. -/
theorem untouched_cancel (h : Tidy none s) {role : Role} (hr : s.role? t = some role)
    (hrole : role ≠ .load) (hl : s.role? load = some .load) : Untouched load s (s.cancel t) := by
  unfold cancel
  split
  · next c hw =>
    exact untouched_cancelOne (ne_of_role? (h.owns t c (mem_waiting_of_wait? hw)) (by simp) hl)
  · next cs hw =>
    refine (untouched_cancelOne (ne_of_role? hr hrole hl)).trans (untouched_cancelAll ?_)
    intro c hc
    exact ne_of_role? (h.alls t cs (mem_waiting_of_wait? hw) c hc) (by simp) hl
  · exact untouched_cancelOne (ne_of_role? hr hrole hl)

end Untouched

/-- Whoever was told to give up is no loading. -/
def Kept (s : Session) : Prop :=
  ∀ t, ⟨some t, .cancelled⟩ ∈ s.journal → ∃ role, s.role? t = some role ∧ role ≠ .load

section Kept

variable {s s' : Session} {t : TaskId} {k : Kind} {a : Option TaskId} {ok : Entry → Prop}

theorem Kept.extends (h : Kept s) (hx : Extends ok s s') (hok : ∀ e, ok e → e.what ≠ .cancelled)
    (hrole : ∀ u r, s.role? u = some r → s'.role? u = some r) : Kept s' := by
  obtain ⟨-, new, hj, hnew⟩ := hx
  intro u hu
  rw [hj] at hu
  rcases List.mem_append.1 hu with hu | hu
  · obtain ⟨role, hr, hl⟩ := h u hu
    exact ⟨role, hrole u role hr, hl⟩
  · exact absurd rfl (hok _ (hnew _ hu))

theorem Kept.moves (h : Kept s) (m : Moves k a s s') : Kept s' := by
  refine h.extends m.extends ?_ fun u r hr => m.role? hr
  intro e he hw
  have hof := he.isOf
  rw [hw] at hof
  cases hof

theorem Kept.aside (h : Kept s) (m : Aside s s') : Kept s' := by
  cases m with
  | move m => exact h.moves (.single m)
  | spawn role due hf hl =>
    have hx : Extends (fun _ => False) s (s.spawn role due).1 := .of_eq rfl rfl
    exact h.extends hx (fun _ he => he.elim) fun u r hr => role?_spawn hr
  | tell t role hr hl =>
    intro u hu
    rcases List.mem_append.1 hu with hu | hu
    · obtain ⟨role', hr', hl'⟩ := h u hu
      exact ⟨role', role?_tell hr', hl'⟩
    · obtain rfl : u = t := by simpa using hu
      exact ⟨role, role?_tell hr, hl⟩
  | note t l hlt =>
    have hx : Extends (fun e => e = ⟨some t, .log l⟩) s (s.note (some t) l) :=
      .of_concat rfl rfl rfl
    refine h.extends hx ?_ fun _ _ hr => hr
    rintro e rfl
    simp
  | turns => exact h

theorem kept_of_reachable {s : Session} (h : Reachable s) : Kept s := by
  refine h.keeps ?_ (fun s s' m h => h.aside m) ?_
  · intro setup host event t ht
    cases ht
  · intro s t task turn h
    have hheed : Kept (s.heed t) := by
      have hx : Extends (fun _ => False) s (s.heed t) := .of_eq rfl rfl
      exact h.extends hx (fun _ he => he.elim) fun u r hr => (role?_heed u).trans hr
    refine resume_of_moves (P := Kept) turn hheed ?_ ?_ ?_
    · exact fun k s s' _ m _ hs => hs.moves m
    · intro s p w due verdict _ hs
      exact hs.extends extends_suspend (fun _ he => he.elim) fun u r hr => role?_suspend.trans hr
    · intro s o _ hs
      refine hs.extends extends_finish ?_ fun u r hr => role?_finish.trans hr
      rintro e ⟨x, rfl⟩
      simp

end Kept

/-! ## One loading for all -/

/-- Whoever shared in a loading and was not told to give up has learned how it ended as often as it
shared, or is ready to learn it. -/
theorem received_or_ready {s : Session} (h : Reachable s) {t load : TaskId}
    (hc : ⟨some t, .cancelled⟩ ∉ s.journal) (he : s.hasEnded load) :
    (s.journal.trail t).countP (Happening.isAttached load) =
        (s.journal.trail t).countP (Happening.isReceived load) ∨
      (s.journal.trail t).countP (Happening.isAttached load) =
          (s.journal.trail t).countP (Happening.isReceived load) + 1 ∧
        (Job.resume t ∈ s.ready ∨ Job.relay t ∈ s.ready) := by
  have htidy := tidy_of_reachable h
  cases ht : s.tasks[t]? with
  | none =>
    rw [(recorded_of_reachable h).trail_of_le (List.getElem?_eq_none_iff.1 ht)]
    exact .inl rfl
  | some task =>
    have howes := (owing_of_reachable h t task ht).lacks hc load
    by_cases hs : task.shares? = some load
    · rw [if_pos hs] at howes
      refine .inr ⟨howes, ?_⟩
      obtain ⟨ho, p, hp, hsp⟩ : task.outcome = none ∧ ∃ p, task.phase = some p ∧
          p.shares? = some load := by
        unfold Task.shares? at hs
        split_ifs at hs with ho
        exact ⟨by simpa using ho, Option.bind_eq_some_iff.1 hs⟩
      -- the task is live and so has a turn: it is ready, or waits for a loading that has ended
      have hturn : t ∈ s.turns := by
        refine List.count_pos_iff.1 ?_
        rw [htidy.turns t, if_pos ⟨isLive_iff.2 ⟨task, ht, ho⟩, by simp⟩]
        exact Nat.one_pos
      rcases List.mem_append.1 hturn with hmem | hmem
      · obtain ⟨⟨u, w⟩, hw, rfl⟩ := List.mem_map.1 hmem
        obtain ⟨task', p', ht', hp', hpw⟩ := htidy.waits u w hw
        rw [ht] at ht'
        cases ht'
        rw [hp] at hp'
        cases hp'
        have hshared : w = .shared load := by
          cases p <;> simp_all [Phase.shares?, Phase.isWait]
        subst hshared
        exact .inr (htidy.relays u load hw he)
      · obtain ⟨j, hj, hju⟩ := List.mem_filterMap.1 hmem
        cases j <;> cases hju
        exact .inl hj
    · rw [if_neg hs] at howes
      exact .inl howes

/-- In every session that can come about: between two resets the external runner is fetched and
compiled at most once, by the one loading that everybody shares in who asks for it. No loading is
told to give up, and to tell others so leaves it alone. A loading comes to the runner that it
compiled or to a failure to load it, unless that cannot be contained. Whoever learns how a loading
ended learns what it came to; whoever shared in one that has ended and was not told to give up has
learned it, or is ready to; and a call that gets the runner ends with just that. -/
theorem single_flight {s : Session} (h : Reachable s) :
    (∀ epoch ∈ s.journal.epochs,
      epoch.countP (fun e => e.what.isFetching) ≤ 1 ∧
      epoch.countP (fun e => e.what.isCompiling) ≤ 1 ∧
      ∃ load, (∀ e ∈ epoch, e.what.isFetching ∨ e.what.isCompiling → e.task = load) ∧
        ∀ e ∈ epoch, ∀ l, e.what = .attached l → load = some l ∧ s.role? l = some .load) ∧
    (∀ load, s.role? load = some .load → ⟨some load, .cancelled⟩ ∉ s.journal ∧
      ∀ t, s.admits (.cancel t) → Untouched load s (s.act (.cancel t)).1) ∧
    (∀ load o, s.role? load = some .load → s.outcome? load = some o →
      (∃ r, o = .ok (.runner r) ∧ ⟨some load, .compiled r⟩ ∈ s.journal) ∨
        ∃ f, o = .error f ∧ (f.isContained → f.isLoading)) ∧
    (∀ t load o, ⟨some t, .received load o⟩ ∈ s.journal → s.outcome? load = some o) ∧
    (∀ t load, ⟨some t, .cancelled⟩ ∉ s.journal → s.hasEnded load →
      (s.journal.trail t).countP (Happening.isAttached load) =
          (s.journal.trail t).countP (Happening.isReceived load) ∨
        (s.journal.trail t).countP (Happening.isAttached load) =
            (s.journal.trail t).countP (Happening.isReceived load) + 1 ∧
          (Job.resume t ∈ s.ready ∨ Job.relay t ∈ s.ready)) ∧
    ∀ s' o, Steps (s.act (.spawn .other [⟨.get, false⟩])).1 s' →
      ⟨some s.tasks.length, .cancelled⟩ ∉ s'.journal → s'.outcome? s.tasks.length = some o →
      ∃ load, s'.journal.trail s.tasks.length = [.attached load, .received load o] ∧
        s'.role? load = some .load ∧ s'.outcome? load = some o := by
  have hflight := flight_of_reachable h
  have htold := told_of_reachable h
  refine ⟨?_, ?_, ?_, htold.received, fun t load => received_or_ready h, ?_⟩
  · intro epoch he
    obtain ⟨load, ha, hl⟩ := hflight.epoch he
    refine ⟨ha.fetches, ha.compiles, load, ha.actor, ?_⟩
    intro e hmem l hw
    have hload := ha.attached e hmem l hw
    exact ⟨hload, hl l hload⟩
  · intro load hload
    refine ⟨?_, ?_⟩
    · intro ht
      obtain ⟨role, hr, hrole⟩ := kept_of_reachable h load ht
      exact ne_of_role? hr hrole hload rfl
    · intro t ht
      obtain ⟨role, hr, hrole⟩ := role?_of_admits ht
      exact untouched_cancel (tidy_of_reachable h) hr hrole hload
  · intro load o hr ho
    have hloaded := htold.loaded load o hr ho
    cases o with
    | error f => exact .inr ⟨f, rfl, hloaded⟩
    | ok result =>
      obtain ⟨r, rfl, hmem⟩ := hloaded
      exact .inl ⟨r, rfl, hmem⟩
  · intro s' o steps hc ho
    have hreach' : Reachable s' :=
      .steps (.step h (.act s (.spawn .other [⟨.get, false⟩]) rfl)) steps
    rcases asking_of_steps h steps with ht | ⟨task, ht, ha⟩
    · exact absurd ht hc
    · have hout : task.outcome = some o := by simpa [outcome?, ht] using ho
      generalize htrail : s'.journal.trail s.tasks.length = stages at ha
      cases ha with
      | begins | waits => cases hout
      | ends p load o' =>
        cases hout
        have hattached : ⟨some s.tasks.length, .attached load⟩ ∈ s'.journal :=
          (Journal.mem_trail.1 (by rw [htrail]; exact List.mem_cons_self)).1
        have hreceived : ⟨some s.tasks.length, .received load o⟩ ∈ s'.journal :=
          (Journal.mem_trail.1 (by
            rw [htrail]
            exact List.mem_cons_of_mem _ List.mem_cons_self)).1
        obtain ⟨epoch, he, hmem⟩ := Journal.mem_epochs hattached rfl
        obtain ⟨load', hal, hl⟩ := (flight_of_reachable hreach').epoch he
        exact ⟨load, rfl, hl load (hal.attached _ hmem load rfl),
          (told_of_reachable hreach').received _ load o hreceived⟩

/-- In the small run the second cycle shares in the loading of the first and learns how it
ended. -/
theorem single_flight_sampleRun :
    ⟨some 1, .cancelled⟩ ∉ sampleRun.journal ∧ sampleRun.hasEnded 2 ∧ sampleRun.ready = [] ∧
      (sampleRun.journal.trail 1).countP (Happening.isAttached 2) = 1 ∧
      (sampleRun.journal.trail 1).countP (Happening.isReceived 2) = 1 := by
  have hc : ⟨some 1, .cancelled⟩ ∉ sampleRun.journal := by
    have hall : sampleRun.journal.all (fun e => match e.what with
      | .cancelled => false
      | _ => true) = true := by decide +kernel
    intro hm
    cases List.all_eq_true.1 hall _ hm
  have he : sampleRun.hasEnded 2 := by decide +kernel
  have hr : sampleRun.ready = [] := by decide +kernel
  have ha : (sampleRun.journal.trail 1).countP (Happening.isAttached 2) = 1 := by decide +kernel
  refine ⟨hc, he, hr, ha, ?_⟩
  rcases (single_flight reachable_sampleRun).2.2.2.2.1 1 2 hc he with heq | ⟨-, hready⟩
  · rw [← heq, ha]
  · simp [hr] at hready

end Session

end Snippets
