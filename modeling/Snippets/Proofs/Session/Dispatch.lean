import Snippets.Proofs.Session.Course

/-!
# The queue and its dispatch

The queue is what the cycles have queued, in the order in which they did it, and every cycle that
completed has dispatched all of it as it was at one moment (`queue_and_dispatch`). Others may queue
and dispatch between any two blocks of a cycle, but they leave its trail alone.
-/

namespace Snippets

namespace Session

/-! ## Runs -/

/-- What is known of a cycle that has ended. -/
structure Ended (s : Session) (t : TaskId) (o : Outcome) : Prop where
  once : (s.journal.trail t).countP Happening.isQueueing ≤ 1
  completed : ∀ r, o = .ok (.report r) → r.status = .completed →
    ∃ e, s.Dispatches t r e (closing s.setup.registry r e ++ [.reported (.ok r)])

/-- The journal tells the queue and the course of every cycle but the one that is running. -/
structure Recorded (run : Option TaskId) (s : Session) : Prop where
  queue : s.queue = s.journal.queue
  queues : ∀ e ∈ s.journal, e.what.isQueueing →
    ∃ t scheduled, e.task = some t ∧ s.role? t = some (.cycle scheduled)
  known : ∀ e ∈ s.journal, ∀ t, e.task = some t → t < s.tasks.length
  running : ∀ t, run = some t → t < s.tasks.length
  live : ∀ (t : TaskId) (task : Task) scheduled, s.tasks[t]? = some task → run ≠ some t →
    task.role = .cycle scheduled → task.outcome = none → s.Course t task.phase
  ended : ∀ (t : TaskId) (task : Task) scheduled o, s.tasks[t]? = some task → run ≠ some t →
    task.role = .cycle scheduled → task.outcome = some o → s.Ended t o

section Recorded

variable {s s' : Session} {t : TaskId} {run a : Option TaskId} {k : Kind} {ok : Entry → Prop}

theorem Ended.extends {o : Outcome} (h : s.Ended t o) (hx : Extends ok s s')
    (ht : s'.journal.trail t = s.journal.trail t) : s'.Ended t o := by
  refine ⟨by rw [ht]; exact h.once, ?_⟩
  intro r hr hc
  obtain ⟨e, he⟩ := h.completed r hr hc
  rw [hx.setup]
  exact ⟨e, he.extends hx ht⟩

theorem Recorded.trail_of_le (h : Recorded run s) (ht : s.tasks.length ≤ t) :
    s.journal.trail t = [] := by
  rw [List.eq_nil_iff_forall_not_mem]
  intro w hw
  exact Nat.not_lt.2 ht (h.known _ (Journal.mem_trail.1 hw).1 t rfl)

/-- A session goes on from one whose journal tells everything: there may be new tasks, and what is
new in the journal is no stage of a task other than the running one. -/
theorem Recorded.extends (h : Recorded run s) (hx : Extends ok s s')
    (hok : ∀ e, ok e → ∀ t, e.task = some t → t < s.tasks.length ∧
      (run ≠ some t → e.what.isStage = false))
    (hqs : ∀ e, ok e → e.what.isQueueing →
      ∃ t scheduled, e.task = some t ∧ s.role? t = some (.cycle scheduled))
    (hq : s'.queue = s'.journal.queue) {new : List Task} (htasks : s'.tasks = s.tasks ++ new)
    (hnew : ∀ task ∈ new, ∃ role due, task = { role, due }) : Recorded run s' := by
  have hlen : s.tasks.length ≤ s'.tasks.length := by simp [htasks]
  have htrail : ∀ t, run ≠ some t → s'.journal.trail t = s.journal.trail t :=
    fun t ht => hx.trail fun e he hu => (hok e he t hu).2 ht
  have hcases : ∀ (t : TaskId) (task : Task), s'.tasks[t]? = some task →
      s.tasks[t]? = some task ∨ s.tasks.length ≤ t ∧ ∃ role due, task = { role, due } := by
    intro t task ht
    rw [htasks, List.getElem?_append] at ht
    split_ifs at ht with hlt
    · exact .inl ht
    · exact .inr ⟨Nat.le_of_not_lt hlt, hnew task (List.mem_of_getElem? ht)⟩
  have hrole : ∀ (t : TaskId) role, s.role? t = some role → s'.role? t = some role := by
    intro t role hr
    obtain ⟨task, ht, rfl⟩ := Option.map_eq_some_iff.1 hr
    unfold role?
    rw [htasks, List.getElem?_append_left (List.getElem?_eq_some_iff.1 ht).1, ht]
    rfl
  refine ⟨hq, ?_, ?_, fun t ht => Nat.lt_of_lt_of_le (h.running t ht) hlen, ?_, ?_⟩
  · obtain ⟨-, entries, hj, hentries⟩ := hx
    intro e he hw
    have hold : ∃ t scheduled, e.task = some t ∧ s.role? t = some (.cycle scheduled) := by
      rw [hj] at he
      rcases List.mem_append.1 he with he | he
      · exact h.queues e he hw
      · exact hqs e (hentries e he) hw
    obtain ⟨t, scheduled, ht, hr⟩ := hold
    exact ⟨t, scheduled, ht, hrole t _ hr⟩
  · obtain ⟨-, entries, hj, hentries⟩ := hx
    intro e he t ht
    rw [hj] at he
    rcases List.mem_append.1 he with he | he
    · exact Nat.lt_of_lt_of_le (h.known e he t ht) hlen
    · exact Nat.lt_of_lt_of_le (hok e (hentries e he) t ht).1 hlen
  · intro t task scheduled ht hr hc ho
    rcases hcases t task ht with ht | ⟨hle, role, due, rfl⟩
    · exact (h.live t task scheduled ht hr hc ho).extends hx (htrail t hr)
    · exact (htrail t hr).trans (h.trail_of_le hle)
  · intro t task scheduled o ht hr hc ho
    rcases hcases t task ht with ht | ⟨hle, role, due, rfl⟩
    · exact (h.ended t task scheduled o ht hr hc ho).extends hx (htrail t hr)
    · cases ho

theorem Recorded.moves (h : Recorded a s) (m : Moves k a s s')
    (hk : k = .cycle → ∃ t scheduled, a = some t ∧ s.role? t = some (.cycle scheduled)) :
    Recorded a s' := by
  obtain ⟨new, htasks, hnew⟩ := m.tasks
  refine h.extends m.extends ?_ ?_ (m.queue_eq h.queue) htasks hnew
  · intro e he t ht
    exact ⟨h.running t (he.eq_some ht), fun hr => absurd (he.eq_some ht) hr⟩
  · intro e he hw
    obtain ⟨ha, hcycle⟩ := he.eq_cycle hw
    rw [ha]
    exact hk hcycle

theorem Recorded.congr (h : Recorded run s) (hs : s'.setup = s.setup) (hq : s'.queue = s.queue)
    (hj : s'.journal = s.journal) (ht : s'.tasks = s.tasks) : Recorded run s' := by
  have hx : Extends (fun _ => False) s s' := .of_eq hs hj
  exact h.extends hx (fun _ he => he.elim) (fun _ he => he.elim) (by rw [hq, hj, h.queue])
    (by rw [ht, List.append_nil]) (by simp)

/-- While a task is running nothing is said of it. -/
theorem Recorded.hold (h : Recorded none s) (ht : t < s.tasks.length) : Recorded (some t) s :=
  ⟨h.queue, h.queues, h.known, fun _ hu => Option.some.inj hu ▸ ht,
    fun u task scheduled hu _ => h.live u task scheduled hu nofun,
    fun u task scheduled o hu _ => h.ended u task scheduled o hu nofun⟩

theorem Recorded.modify (h : Recorded (some t) s) {f : Task → Task}
    (hf : ∀ task, (f task).role = task.role) : Recorded (some t) (s.modifyTask t f) := by
  have hother : ∀ (u : TaskId) (task : Task), (s.modifyTask t f).tasks[u]? = some task →
      some t ≠ some u → s.tasks[u]? = some task := by
    intro u task hu hne
    rcases modifyTask_cases hu with ⟨rfl, -⟩ | ⟨-, hu⟩
    · exact absurd rfl hne
    · exact hu
  have hlen : (s.modifyTask t f).tasks.length = s.tasks.length := List.length_modify _ _ _
  have hx : Extends (fun _ => False) s (s.modifyTask t f) := .of_eq rfl rfl
  have hqueues : ∀ e ∈ s.journal, e.what.isQueueing → ∃ u scheduled, e.task = some u ∧
      (s.modifyTask t f).role? u = some (.cycle scheduled) := by
    intro e he hw
    obtain ⟨u, scheduled, hu, hr⟩ := h.queues e he hw
    exact ⟨u, scheduled, hu, (role?_modifyTask hf).trans hr⟩
  exact ⟨h.queue, hqueues, fun e he u hu => hlen ▸ h.known e he u hu,
    fun u hu => hlen ▸ h.running u hu,
    fun u task scheduled hu hne => h.live u task scheduled (hother u task hu hne) hne,
    fun u task scheduled o hu hne hc ho =>
      (h.ended u task scheduled o (hother u task hu hne) hne hc ho).extends hx rfl⟩

theorem Recorded.letGo (h : Recorded (some t) s)
    (hlive : ∀ (task : Task) scheduled, s.tasks[t]? = some task → task.role = .cycle scheduled →
      task.outcome = none → s.Course t task.phase)
    (hended : ∀ (task : Task) scheduled o, s.tasks[t]? = some task → task.role = .cycle scheduled →
      task.outcome = some o → s.Ended t o) : Recorded none s := by
  refine ⟨h.queue, h.queues, h.known, nofun, ?_, ?_⟩
  · intro u task scheduled hu _
    by_cases he : t = u
    · subst he
      exact hlive task scheduled hu
    · exact h.live u task scheduled hu (fun hc => he (Option.some.inj hc))
  · intro u task scheduled o hu _
    by_cases he : t = u
    · subst he
      exact hended task scheduled o hu
    · exact h.ended u task scheduled o hu (fun hc => he (Option.some.inj hc))

/-- An entry of a task that is no stage. -/
theorem Recorded.record (h : Recorded run s) {w : Happening} (hw : w.isStage = false)
    (ht : t < s.tasks.length) : Recorded run (s.record (some t) w) := by
  have hx : Extends (fun e => e = ⟨some t, w⟩) s (s.record (some t) w) := .of_concat rfl rfl rfl
  have hnq : w.isQueueing = false := by
    cases w <;> simp_all [Happening.isStage, Happening.isQueueing]
  refine h.extends hx ?_ ?_ ?_ (List.append_nil s.tasks).symm (by simp)
  · rintro e rfl u ⟨⟩
    exact ⟨ht, fun _ => hw⟩
  · rintro e rfl hq
    rw [hnq] at hq
    cases hq
  · exact h.queue.trans (Journal.queue_append_of_not (by simpa using hnq)).symm

theorem Recorded.aside (h : Recorded none s) (m : Aside s s') : Recorded none s' := by
  cases m with
  | move m => exact h.moves (.single m) nofun
  | spawn role due hf hl =>
    have hx : Extends (fun _ => False) s (s.spawn role due).1 := .of_eq rfl rfl
    exact h.extends hx (fun _ he => he.elim) (fun _ he => he.elim) h.queue
      (tasks_spawn s role due) (by simp)
  | tell t role hr hl =>
    have hlt : t < s.tasks.length := by
      obtain ⟨task, ht, -⟩ := Option.map_eq_some_iff.1 hr
      exact (List.getElem?_eq_some_iff.1 ht).1
    have hlen : (s.modifyTask t fun task => { task with cancelRequested := true }).tasks.length =
        s.tasks.length := List.length_modify _ _ _
    have hx : Extends (fun e => e = ⟨some t, .cancelled⟩) s (s.tell t) := .of_concat rfl rfl rfl
    have htrail : (s.tell t).journal.trail t = s.journal.trail t :=
      hx.trail (by rintro e rfl _; rfl)
    refine (((h.hold hlt).modify (by simp)).record rfl (hlen ▸ hlt)).letGo ?_ ?_
    · intro task scheduled ht hc ho
      rcases modifyTask_cases ht with ⟨-, old, hold, rfl⟩ | ⟨hne, -⟩
      · exact (h.live t old scheduled hold nofun hc ho).extends hx htrail
      · exact absurd rfl hne
    · intro task scheduled o ht hc ho
      rcases modifyTask_cases ht with ⟨-, old, hold, rfl⟩ | ⟨hne, -⟩
      · exact (h.ended t old scheduled o hold nofun hc ho).extends hx htrail
      · exact absurd rfl hne
  | note t l hlt => exact h.record rfl hlt
  | turns => exact h.congr rfl rfl rfl rfl

theorem Recorded.suspend (h : Recorded (some t) s) {task : Task} (ht : s.tasks[t]? = some task)
    (ho : task.outcome = none) {p : Phase} (hc : ∀ scheduled, task.role = .cycle scheduled →
      s.Course t (some p)) (w : Wait) (due : List Due) (verdict : Verdict) :
    Recorded none (s.suspend t p w due verdict) := by
  have hgo : Recorded none
      (s.modifyTask t fun task => { task with phase := some p, due, verdict }) := by
    refine (h.modify (by simp)).letGo ?_ ?_
    · intro new scheduled hnew hr _
      rcases modifyTask_cases hnew with ⟨-, old, hold, rfl⟩ | ⟨hne, -⟩
      · rw [ht] at hold
        cases hold
        exact hc scheduled hr
      · exact absurd rfl hne
    · intro new scheduled o hnew _ ho'
      rcases modifyTask_cases hnew with ⟨-, old, hold, rfl⟩ | ⟨hne, -⟩
      · rw [ht] at hold
        cases hold
        rw [show task.outcome = some o from ho'] at ho
        cases ho
      · exact absurd rfl hne
  unfold Session.suspend
  dsimp only
  split_ifs
  · exact hgo.congr rfl rfl rfl rfl
  · exact hgo.congr rfl rfl rfl rfl

theorem Ends.reported {o : Outcome} (h : s.Ends t o) :
    (s.record (some t) (.reported (reportOf o))).Ended t o := by
  refine ⟨?_, ?_⟩
  · show (Journal.trail (s.journal ++ _) t).countP _ ≤ 1
    rw [Journal.trail_concat rfl, List.countP_append]
    exact h.once
  · intro r hr hc
    obtain ⟨e, he⟩ := h.completed r hr hc
    subst hr
    exact ⟨e, he.stage rfl⟩

theorem Recorded.finish (h : Recorded (some t) s) {task : Task} (ht : s.tasks[t]? = some task)
    {o : Outcome} (hc : ∀ scheduled, task.role = .cycle scheduled → s.Ends t o) :
    Recorded none (s.finish t o) := by
  have hlt := (List.getElem?_eq_some_iff.1 ht).1
  have hrole : s.role? t = some task.role := by simp [role?, ht]
  have hm : Recorded (some t)
      (s.modifyTask t fun task => { task with outcome := some o, due := [] }) :=
    h.modify (by simp)
  have hlive : ∀ (s' : Session) (new : Task), s'.tasks = (s.modifyTask t fun task =>
      { task with outcome := some o, due := [] }).tasks → s'.tasks[t]? = some new →
      new.outcome = some o ∧ new.role = task.role := by
    intro s' new hs hnew
    rw [hs] at hnew
    rcases modifyTask_cases hnew with ⟨-, old, hold, rfl⟩ | ⟨hne, -⟩
    · rw [ht] at hold
      cases hold
      exact ⟨rfl, rfl⟩
    · exact absurd rfl hne
  rw [finish_eq, hrole]
  cases hr : task.role with
  | cycle scheduled =>
    have hx : Extends (fun e => e = ⟨some t, .reported (reportOf o)⟩)
        (s.modifyTask t fun task => { task with outcome := some o, due := [] })
        ((s.modifyTask t fun task => { task with outcome := some o, due := [] }).record (some t)
          (.reported (reportOf o))) := .of_concat rfl rfl rfl
    have hended := (hc scheduled hr).reported
    refine Recorded.congr (Recorded.letGo
      (hm.extends hx ?_ ?_ ?_ (List.append_nil _).symm (by simp)) ?_ ?_) rfl rfl rfl rfl
    · rintro e rfl u ⟨⟩
      exact ⟨hm.running t rfl, fun hne => absurd rfl hne⟩
    · rintro e rfl ⟨⟩
    · exact hm.queue.trans (Journal.queue_append_of_not (by simp [Happening.isQueueing])).symm
    · intro new scheduled' hnew _ ho
      rw [(hlive _ new rfl hnew).1] at ho
      cases ho
    · intro new scheduled' o' hnew _ ho
      rw [(hlive _ new rfl hnew).1] at ho
      cases ho
      have hsame : Extends (fun _ => False) (s.record (some t) (.reported (reportOf o)))
          ((s.modifyTask t fun task => { task with outcome := some o, due := [] }).record (some t)
            (.reported (reportOf o))) := .of_eq rfl rfl
      exact hended.extends hsame rfl
  | load | other =>
    refine Recorded.congr (hm.letGo ?_ ?_) rfl rfl (List.append_nil _) rfl
    · intro new scheduled hnew hr'
      rw [(hlive _ new rfl hnew).2, hr] at hr'
      cases hr'
    · intro new scheduled o' hnew hr'
      rw [(hlive _ new rfl hnew).2, hr] at hr'
      cases hr'

/-- The turn of a cycle. -/
theorem Recorded.resume_cycle {task : Task} {scheduled : Bool} (turn : Turn s t task)
    (hr : task.role = .cycle scheduled) (h : Recorded none s) : Recorded none (s.resume t) := by
  have hcourse := h.live t task scheduled turn.known nofun hr turn.live
  have hheed : Recorded (some t) (s.heed t) := (h.hold turn.lt).modify (by simp)
  have hrole : (s.heed t).role? t = some (.cycle scheduled) := by rw [role?_heed, turn.role?, hr]
  obtain ⟨r, he, m, hend⟩ := cycle_turn turn hr hcourse h.queue
  have hrec := hheed.moves m fun _ => ⟨t, scheduled, rfl, hrole⟩
  have htask := m.task (task_heed turn.known)
  rw [he]
  rcases hend with ⟨-, rfl⟩ | ⟨-, hadv⟩
  · exact hrec.finish htask fun _ _ => ⟨hcourse.once_and_owes.1, nofun⟩
  · obtain ⟨s', p⟩ := r
    cases p with
    | waits p w => exact hrec.suspend htask turn.live (fun _ _ => hadv) w [] _
    | ends o => exact hrec.finish htask fun _ _ => hadv.2

/-- The turn of any other task. -/
theorem Recorded.resume_other {task : Task} (turn : Turn s t task)
    (hr : ∀ scheduled, task.role ≠ .cycle scheduled) (h : Recorded none s) :
    Recorded none (s.resume t) := by
  refine resume_of_moves (P := Recorded (some t)) turn ((h.hold turn.lt).modify (by simp)) ?_ ?_ ?_
  · exact fun k s s' hk m _ hs => hs.moves m fun hc => absurd hc (Role.ne_cycle_of_allows hr hk)
  · intro s p w due verdict htask hs
    exact hs.suspend htask turn.live (fun scheduled hc => absurd hc (hr scheduled)) w due verdict
  · intro s o htask hs
    exact hs.finish htask fun scheduled hc => absurd hc (hr scheduled)

theorem Recorded.resume {task : Task} (turn : Turn s t task) (h : Recorded none s) :
    Recorded none (s.resume t) := by
  cases hr : task.role with
  | cycle scheduled => exact h.resume_cycle turn hr
  | load | other => exact h.resume_other turn (by simp [hr])

end Recorded

theorem recorded_of_reachable {s : Session} (h : Reachable s) : Recorded none s := by
  refine h.keeps ?_ (fun s s' m h => h.aside m) ?_
  · intro setup host event
    exact ⟨rfl, by simp, by simp, by simp, by simp, by simp⟩
  · exact fun s t task turn h => h.resume turn

end Session

end Snippets
