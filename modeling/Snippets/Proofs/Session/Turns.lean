import Mathlib.Tactic.ByContra
import Snippets.Proofs.Session.Move

/-!
# Turns

Every task that has not ended waits in one place or is ready to go on in one place, and never
both; a task that waits for the loading of the external runner goes on only after that has ended,
unless it is cancelled; and nobody cancels a loading. This is `Tidy`, and it holds in every session
that can come about (`tidy_of_reachable`).

While a task does a block it has no turn, so `Tidy` is stated relative to the task that is running.
-/

namespace Snippets

/-- The task that a job lets go on. -/
def Job.resumes? : Job → Option TaskId
  | .resume t => some t
  | _ => none

/-- The only call of a task that is a loading or a cycle. -/
def Role.call? : Role → Option Call
  | .load => some .load
  | .cycle _ => some .cycle
  | .other => none

/-- What a task that has not ended can look like: its phase and its calls are of its own kind, a
loading or a cycle is one call and nothing else, and a loading is not cancelled. -/
structure Task.Fits (task : Task) : Prop where
  phase : ∀ p, task.phase = some p → task.role.allows p.kind
  due : ∀ d ∈ task.due, task.role.allows d.call.kind
  single : ∀ c, task.role.call? = some c →
    task.verdict = .ok none ∧ task.due = if task.phase.isNone then [⟨c, false⟩] else []
  kept : task.role = .load → task.cancelRequested = false

namespace Session

/-- Whether a task exists and has not ended. -/
def isLive (s : Session) (t : TaskId) : Bool := (s.tasks[t]?).any fun task => task.outcome.isNone

/-- The tasks that wait and the tasks that are ready to go on. -/
def turns (s : Session) : List TaskId := s.waiting.map Prod.fst ++ s.ready.filterMap Job.resumes?

/-- The order in a session while `running` does a block. -/
structure Tidy (running : Option TaskId) (s : Session) : Prop where
  turns : ∀ t, s.turns.count t = if s.isLive t = true ∧ running ≠ some t then 1 else 0
  running : ∀ t, running = some t → s.isLive t
  fits : ∀ (t : TaskId) (task : Task), s.tasks[t]? = some task → task.outcome = none → task.Fits
  waits : ∀ t w, (t, w) ∈ s.waiting →
    ∃ (task : Task) (p : Phase), s.tasks[t]? = some task ∧ task.phase = some p ∧ p.isWait w
  loaded : ∀ (t : TaskId) (task : Task) (p : Phase) load, Job.resume t ∈ s.ready →
    s.tasks[t]? = some task → task.phase = some p → p.load? = some load →
    task.cancelRequested = false → s.hasEnded load
  relays : ∀ t load, (t, .shared load) ∈ s.waiting → s.hasEnded load → Job.relay t ∈ s.ready
  loads : ∀ load, s.loading = some load → s.role? load = some .load
  targets : ∀ (t : TaskId) (task : Task) (p : Phase) load, s.tasks[t]? = some task →
    task.phase = some p → p.load? = some load → s.role? load = some .load
  owns : ∀ t c, (t, .own c) ∈ s.waiting → s.role? c = some (.cycle true)
  alls : ∀ t cs, (t, .all cs) ∈ s.waiting → ∀ c ∈ cs, s.role? c = some (.cycle true)
  pending : ∀ c ∈ s.pending, s.role? c = some (.cycle true)

/-! ## Tasks -/

section Tasks

variable {s : Session} {t u : TaskId} {task : Task}

theorem isLive_iff : s.isLive t ↔ ∃ task : Task, s.tasks[t]? = some task ∧ task.outcome = none := by
  unfold isLive
  cases s.tasks[t]? <;> simp

theorem hasEnded_iff :
    s.hasEnded t ↔ ∃ task : Task, s.tasks[t]? = some task ∧ task.outcome.isSome := by
  unfold hasEnded outcome?
  cases s.tasks[t]? <;> simp

theorem tasks_modifyTask (s : Session) (t u : TaskId) (f : Task → Task) :
    (s.modifyTask t f).tasks[u]? = if t = u then (s.tasks[u]?).map f else s.tasks[u]? := by
  unfold modifyTask
  rw [List.getElem?_modify]
  split_ifs <;> simp

theorem role?_modifyTask {f : Task → Task} (hf : ∀ task, (f task).role = task.role) :
    (s.modifyTask t f).role? u = s.role? u := by
  unfold role?
  rw [tasks_modifyTask]
  split_ifs
  · cases s.tasks[u]? <;> simp [hf]
  · rfl

theorem outcome?_modifyTask {f : Task → Task} (hf : ∀ task, (f task).outcome = task.outcome) :
    (s.modifyTask t f).outcome? u = s.outcome? u := by
  unfold outcome?
  rw [tasks_modifyTask]
  split_ifs
  · cases s.tasks[u]? <;> simp [hf]
  · rfl

theorem isLive_modifyTask {f : Task → Task} (hf : ∀ task, (f task).outcome = task.outcome) :
    (s.modifyTask t f).isLive u = s.isLive u := by
  unfold isLive
  rw [tasks_modifyTask]
  split_ifs
  · cases s.tasks[u]? <;> simp [hf]
  · rfl

end Tasks

/-! ## Turns -/

section Turns

variable {s s' : Session} {t u : TaskId} {run : Option TaskId}

theorem count_turns (s : Session) (t : TaskId) :
    s.turns.count t = (s.waiting.map Prod.fst).count t + (s.ready.filterMap Job.resumes?).count t :=
  List.count_append

/-- Tidiness is a matter of the tasks and their turns, and of those who are waited for. -/
theorem Tidy.congr (h : Tidy run s) (ht : s'.tasks = s.tasks) (hw : s'.waiting = s.waiting)
    (hr : s'.ready = s.ready) (hl : s'.loading = s.loading) (hp : s'.pending = s.pending) :
    Tidy run s' := by
  obtain ⟨setup, host, event, stage, queue, pending, loading, runner, tasks, waiting, ready,
    journal⟩ := s'
  cases ht; cases hw; cases hr; cases hl; cases hp
  exact ⟨h.turns, h.running, h.fits, h.waits, h.loaded, h.relays, h.loads, h.targets, h.owns,
    h.alls, h.pending⟩

theorem Tidy.isLive_of_mem (h : Tidy run s) (ht : t ∈ s.turns) : s.isLive t ∧ run ≠ some t := by
  have hc := h.turns t
  have hpos := List.count_pos_iff.2 ht
  split_ifs at hc with hl
  · exact hl
  · omega

theorem mem_turns_of_waiting {w : Wait} (h : (t, w) ∈ s.waiting) : t ∈ s.turns :=
  List.mem_append_left _ (List.mem_map.2 ⟨_, h, rfl⟩)

theorem mem_turns_of_ready (h : Job.resume t ∈ s.ready) : t ∈ s.turns :=
  List.mem_append_right _ (List.mem_filterMap.2 ⟨_, h, rfl⟩)

/-- A task that waits is not ready, and waits for one thing. -/
theorem Tidy.count_waiting (h : Tidy run s) {w : Wait} (hw : (t, w) ∈ s.waiting) :
    (s.waiting.map Prod.fst).count t = 1 ∧ (s.ready.filterMap Job.resumes?).count t = 0 := by
  have hc := h.turns t
  rw [count_turns] at hc
  have hpos : 0 < (s.waiting.map Prod.fst).count t :=
    List.count_pos_iff.2 (List.mem_map.2 ⟨_, hw, rfl⟩)
  split_ifs at hc <;> omega

theorem eq_of_count_eq_one {l : List (TaskId × Wait)} {v w : Wait}
    (hc : (l.map Prod.fst).count t = 1) (hv : (t, v) ∈ l) (hw : (t, w) ∈ l) : v = w := by
  induction l with
  | nil => cases hv
  | cons x l ih =>
    rw [List.map_cons, List.count_cons] at hc
    by_cases hx : x.1 = t
    · have hn : ∀ y, (t, y) ∉ l := by
        intro y hy
        have : 0 < (l.map Prod.fst).count t := List.count_pos_iff.2 (List.mem_map.2 ⟨_, hy, rfl⟩)
        rw [hx] at hc
        simp at hc
        omega
      have hv' := (List.mem_cons.1 hv).resolve_right (hn v)
      have hw' := (List.mem_cons.1 hw).resolve_right (hn w)
      exact (Prod.mk.inj (hv'.trans hw'.symm)).2
    · have hc' : (l.map Prod.fst).count t = 1 := by simpa [hx] using hc
      refine ih hc' ?_ ?_
      · exact (List.mem_cons.1 hv).resolve_left (fun h => hx (by rw [← h]))
      · exact (List.mem_cons.1 hw).resolve_left (fun h => hx (by rw [← h]))

theorem Tidy.wait_unique (h : Tidy run s) {v w : Wait} (hv : (t, v) ∈ s.waiting)
    (hw : (t, w) ∈ s.waiting) : v = w :=
  eq_of_count_eq_one (h.count_waiting hv).1 hv hw

theorem mem_waiting_of_wait? {w : Wait} (h : s.wait? t = some w) : (t, w) ∈ s.waiting := by
  unfold wait? at h
  rw [List.lookup_eq_some_iff] at h
  obtain ⟨l₁, l₂, he, -⟩ := h
  rw [he]
  simp

theorem Tidy.wait?_eq (h : Tidy run s) {w : Wait} (hw : (t, w) ∈ s.waiting) :
    s.wait? t = some w := by
  cases hl : s.wait? t with
  | none =>
    unfold wait? at hl
    rw [List.lookup_eq_none_iff] at hl
    exact absurd (hl _ hw) (by simp)
  | some v => rw [h.wait_unique (mem_waiting_of_wait? hl) hw]

end Turns

/-! ## New tasks -/

section Spawn

variable {s : Session} {t : TaskId} {task : Task} {run : Option TaskId} {role : Role}
  {due : List Due}

theorem tasks_spawn (s : Session) (role : Role) (due : List Due) :
    (s.spawn role due).1.tasks = s.tasks ++ [({ role, due } : Task)] := rfl

theorem tasks_spawn_of_some (h : s.tasks[t]? = some task) :
    (s.spawn role due).1.tasks[t]? = some task := by
  rw [tasks_spawn, List.getElem?_append_left (List.getElem?_eq_some_iff.1 h).1, h]

theorem tasks_spawn_cases (h : (s.spawn role due).1.tasks[t]? = some task) :
    s.tasks[t]? = some task ∨ t = s.tasks.length ∧ task = { role, due } := by
  rw [tasks_spawn, List.getElem?_append] at h
  split_ifs at h with hlt
  · exact .inl h
  · obtain ⟨hlt', he⟩ := List.getElem?_eq_some_iff.1 h
    have h0 : t - s.tasks.length = 0 := Nat.lt_one_iff.1 hlt'
    have ht : t = s.tasks.length :=
      Nat.le_antisymm (Nat.sub_eq_zero_iff_le.1 h0) (Nat.le_of_not_lt hlt)
    exact .inr ⟨ht, by simp [← he, h0]⟩

theorem role?_spawn {r : Role} (h : s.role? t = some r) :
    (s.spawn role due).1.role? t = some r := by
  unfold role? at h ⊢
  obtain ⟨task, ht, rfl⟩ := Option.map_eq_some_iff.1 h
  rw [tasks_spawn_of_some ht]
  rfl

theorem outcome?_spawn (s : Session) (role : Role) (due : List Due) (t : TaskId) :
    (s.spawn role due).1.outcome? t = s.outcome? t := by
  unfold outcome?
  cases ht : s.tasks[t]? with
  | some task => rw [tasks_spawn_of_some ht]
  | none =>
    cases ht' : (s.spawn role due).1.tasks[t]? with
    | none => rfl
    | some task =>
      rcases tasks_spawn_cases ht' with h | ⟨-, rfl⟩
      · rw [ht] at h
        cases h
      · rfl

theorem hasEnded_spawn (s : Session) (role : Role) (due : List Due) (t : TaskId) :
    (s.spawn role due).1.hasEnded t = s.hasEnded t := by
  unfold hasEnded
  rw [outcome?_spawn]

theorem isLive_spawn (s : Session) (role : Role) (due : List Due) (t : TaskId) :
    (s.spawn role due).1.isLive t = (s.isLive t || t == s.tasks.length) := by
  unfold isLive
  rw [tasks_spawn, List.getElem?_append]
  split_ifs with hlt
  · have hne : t ≠ s.tasks.length := Nat.ne_of_lt hlt
    simp [hne]
  · have hle : s.tasks.length ≤ t := Nat.le_of_not_lt hlt
    rw [List.getElem?_eq_none hle]
    by_cases he : t = s.tasks.length
    · simp [he]
    · have h1 : 1 ≤ t - s.tasks.length := Nat.sub_pos_of_lt (Nat.lt_of_le_of_ne hle (Ne.symm he))
      rw [List.getElem?_eq_none (by simpa using h1)]
      simp [he]

theorem lt_of_role? {r : Role} (h : s.role? t = some r) : t < s.tasks.length := by
  obtain ⟨task, ht, -⟩ := Option.map_eq_some_iff.1 h
  exact (List.getElem?_eq_some_iff.1 ht).1

theorem lt_of_isLive (h : s.isLive t) : t < s.tasks.length := by
  obtain ⟨task, ht, -⟩ := isLive_iff.1 h
  exact (List.getElem?_eq_some_iff.1 ht).1

/-- A new task gets a turn. -/
theorem Tidy.spawn (h : Tidy run s) (hf : Task.Fits { role, due }) :
    Tidy run (s.spawn role due).1 where
  turns u := by
    have hready : (s.spawn role due).1.turns = s.turns ++ [s.tasks.length] := by
      simp [Session.turns, Session.spawn, enqueue, Job.resumes?, List.filterMap_append]
    have hu := h.turns u
    rw [hready, List.count_append, hu, isLive_spawn]
    by_cases he : u = s.tasks.length
    · subst he
      have hdead : s.isLive s.tasks.length = false := by
        by_contra hl
        exact Nat.lt_irrefl _ (lt_of_isLive (by simpa using hl))
      have hrun : run ≠ some s.tasks.length := fun hr =>
        Nat.lt_irrefl _ (lt_of_isLive (h.running _ hr))
      simp [hdead, hrun]
    · simp [he, Ne.symm he]
  running u hu := by
    rw [isLive_spawn, h.running u hu]
    rfl
  fits u task hu ho := by
    rcases tasks_spawn_cases hu with hu | ⟨-, rfl⟩
    · exact h.fits u task hu ho
    · exact hf
  waits u w hw := by
    obtain ⟨task, p, ht, hp⟩ := h.waits u w hw
    exact ⟨task, p, tasks_spawn_of_some ht, hp⟩
  loaded u task p load hr hu hp hl hc := by
    rw [hasEnded_spawn]
    rcases tasks_spawn_cases hu with hu | ⟨-, rfl⟩
    · rcases List.mem_append.1 hr with hr | hr
      · exact h.loaded u task p load hr hu hp hl hc
      · have he : u = s.tasks.length := by simpa using hr
        exact absurd he (Nat.ne_of_lt (List.getElem?_eq_some_iff.1 hu).1)
    · cases hp
  relays u load hw he := by
    rw [hasEnded_spawn] at he
    exact List.mem_append_left _ (h.relays u load hw he)
  loads load hl := role?_spawn (h.loads load hl)
  targets u task p load hu hp hl := by
    rcases tasks_spawn_cases hu with hu | ⟨-, rfl⟩
    · exact role?_spawn (h.targets u task p load hu hp hl)
    · cases hp
  owns u c hw := role?_spawn (h.owns u c hw)
  alls u cs hw c hc := role?_spawn (h.alls u cs hw c hc)
  pending c hc := role?_spawn (h.pending c hc)

theorem role?_spawn_self (s : Session) (role : Role) (due : List Due) :
    (s.spawn role due).1.role? s.tasks.length = some role := by
  simp [role?, tasks_spawn]

theorem Tidy.schedule (h : Tidy run s) : Tidy run s.schedule.1 := by
  have hs : Tidy run (s.spawn (.cycle true) [⟨.cycle, false⟩]).1 :=
    h.spawn ⟨nofun, by simp [Call.kind, Role.allows], by rintro c ⟨⟩; exact ⟨rfl, rfl⟩, nofun⟩
  refine ⟨hs.turns, hs.running, hs.fits, hs.waits, hs.loaded, hs.relays, hs.loads, hs.targets,
    hs.owns, hs.alls, ?_⟩
  intro c hc
  rcases List.mem_append.1 hc with hc | hc
  · exact hs.pending c hc
  · have he : c = s.tasks.length := by simpa using hc
    rw [he]
    exact role?_spawn_self s _ _

theorem Tidy.ensureLoading (h : Tidy run s) : Tidy run s.ensureLoading.1 := by
  unfold Session.ensureLoading
  split
  · exact h
  · have hs : Tidy run (s.spawn .load [⟨.load, false⟩]).1 :=
      h.spawn ⟨nofun, by simp [Call.kind, Role.allows], by rintro c ⟨⟩; exact ⟨rfl, rfl⟩,
        fun _ => rfl⟩
    refine ⟨hs.turns, hs.running, hs.fits, hs.waits, hs.loaded, hs.relays, ?_, hs.targets,
      hs.owns, hs.alls, hs.pending⟩
    rintro load ⟨⟩
    exact role?_spawn_self s _ _

end Spawn

/-! ## Moves -/

section Keep

variable {s s' : Session} {run a : Option TaskId} {k : Kind}

@[simp] theorem recordAll_eq (s : Session) (a : Option TaskId) (whats : List Happening) :
    s.recordAll a whats = { s with journal := s.journal ++ whats.map (⟨a, ·⟩) } := by
  induction whats generalizing s with
  | nil => simp [recordAll]
  | cons w whats ih =>
    have := ih (s.record a w)
    simp only [recordAll, List.foldl_cons] at this ⊢
    rw [this]
    simp [record]

/-- A reset forgets the loading, or changes nothing but the bench and the journal. -/
theorem reset_fields (s : Session) (a : Option TaskId) :
    (s.reset a).1.tasks = s.tasks ∧ (s.reset a).1.waiting = s.waiting ∧
      (s.reset a).1.ready = s.ready ∧ (s.reset a).1.pending = s.pending ∧
      (s.reset a).1.queue = s.queue ∧ (s.reset a).1.stage = s.stage ∧
      ((s.reset a).1.loading = s.loading ∨ (s.reset a).1.loading = none) := by
  unfold reset
  split_ifs
  · exact ⟨rfl, rfl, rfl, rfl, rfl, rfl, .inl rfl⟩
  · split
    · exact ⟨rfl, rfl, rfl, rfl, rfl, rfl, .inr rfl⟩
    · next r _ =>
      unfold worked
      cases (r.close s.host.bench).result with
      | some f => simp [withHost]
      | none => cases hr : r.isClosable <;> simp [withHost, forget, record]

theorem Tidy.reset (h : Tidy run s) (a : Option TaskId) : Tidy run (s.reset a).1 := by
  obtain ⟨ht, hw, hr, hp, -, -, hl⟩ := reset_fields s a
  rcases hl with hl | hl
  · exact h.congr ht hw hr hl hp
  · have h' : Tidy run { s with loading := none } :=
      ⟨h.turns, h.running, h.fits, h.waits, h.loaded, h.relays, nofun, h.targets, h.owns, h.alls,
        h.pending⟩
    exact h'.congr ht hw hr hl hp

/-- Jobs that let no task go on. -/
theorem Tidy.enqueueAll (h : Tidy run s) {jobs : List Job} (hj : ∀ j ∈ jobs, j.resumes? = none) :
    Tidy run (s.enqueueAll jobs) where
  turns u := by
    have hturns : (s.enqueueAll jobs).turns = s.turns := by
      simp [Session.turns, Session.enqueueAll, List.filterMap_append,
        List.filterMap_eq_nil_iff.2 hj]
    rw [hturns]
    exact h.turns u
  running := h.running
  fits := h.fits
  waits := h.waits
  loaded u task p load hr hu hp hl hc := by
    refine h.loaded u task p load ?_ hu hp hl hc
    rcases List.mem_append.1 hr with hr | hr
    · exact hr
    · exact absurd (hj _ hr) (by simp [Job.resumes?])
  relays u load hw he := List.mem_append_left _ (h.relays u load hw he)
  loads := h.loads
  targets := h.targets
  owns := h.owns
  alls := h.alls
  pending := h.pending

theorem Tidy.enqueue (h : Tidy run s) {j : Job} (hj : j.resumes? = none) : Tidy run (s.enqueue j) :=
  h.enqueueAll (by simpa using hj)

theorem Move.tidy (m : Move k a s s') (h : Tidy run s) : Tidy run s' := by
  cases m with
  | notify => exact notify_keeps h (fun _ _ h => h.congr rfl rfl rfl rfl rfl) fun _ h => h.schedule
  | listen => exact h.schedule.congr rfl rfl rfl rfl rfl
  | want =>
    exact h.spawn ⟨nofun, by simp [Call.kind, Role.allows], nofun, nofun⟩
  | join t cs => exact h.enqueueAll (by simp [Job.resumes?])
  | attach t ha hk => exact h.ensureLoading.congr rfl rfl rfl rfl rfl
  | reset hk => exact h.reset a
  | mark | host | stop | stage | queue | receive | compiled => exact h.congr rfl rfl rfl rfl rfl

theorem Moves.tidy (m : Moves k a s s') (h : Tidy run s) : Tidy run s' :=
  m.keep (fun _ _ m h => m.tidy h) h

/-- A move leaves the tasks alone, and may create some. -/
theorem Move.tasks (m : Move k a s s') :
    ∃ new : List Task, s'.tasks = s.tasks ++ new ∧
      ∀ task ∈ new, ∃ role due, task = { role, due } := by
  have hspawn : ∀ role due, ∃ new : List Task, (s.spawn role due).1.tasks = s.tasks ++ new ∧
      ∀ task ∈ new, ∃ role due, task = { role, due } :=
    fun role due => ⟨[{ role, due }], rfl, by simp⟩
  cases m with
  | notify =>
    refine notify_keeps (P := fun s' => ∃ new : List Task, s'.tasks = s.tasks ++ new ∧
      ∀ task ∈ new, ∃ role due, task = { role, due }) ⟨[], by simp⟩ (fun _ _ h => h) ?_
    rintro s₁ ⟨new, hs, hnew⟩
    refine ⟨new ++ [{ role := .cycle true, due := [⟨.cycle, false⟩] }], ?_, ?_⟩
    · show s₁.tasks ++ _ = _
      rw [hs, List.append_assoc]
    · intro task ht
      rcases List.mem_append.1 ht with ht | ht
      · exact hnew task ht
      · exact ⟨_, _, List.mem_singleton.1 ht⟩
  | listen => exact hspawn _ _
  | want => exact hspawn _ _
  | attach t ha hk =>
    show ∃ new : List Task, s.ensureLoading.1.tasks = s.tasks ++ new ∧ _
    unfold Session.ensureLoading
    split
    · exact ⟨[], by simp⟩
    · exact hspawn _ _
  | reset hk => exact ⟨[], by simp [(reset_fields s a).1]⟩
  | mark | host | stop | stage | join | queue | receive | compiled =>
    exact ⟨[], by rw [List.append_nil]; rfl, by simp⟩

theorem Moves.tasks (m : Moves k a s s') :
    ∃ new : List Task, s'.tasks = s.tasks ++ new ∧
      ∀ task ∈ new, ∃ role due, task = { role, due } := by
  induction m with
  | refl => exact ⟨[], by simp⟩
  | tail _ m ih =>
    obtain ⟨new, hs, hnew⟩ := ih
    obtain ⟨new', hs', hnew'⟩ := m.tasks
    refine ⟨new ++ new', by rw [hs', hs, List.append_assoc], ?_⟩
    intro task ht
    rcases List.mem_append.1 ht with ht | ht
    · exact hnew task ht
    · exact hnew' task ht

theorem Moves.task (m : Moves k a s s') {t : TaskId} {task : Task} (h : s.tasks[t]? = some task) :
    s'.tasks[t]? = some task := by
  obtain ⟨new, hs, -⟩ := m.tasks
  rw [hs, List.getElem?_append_left (List.getElem?_eq_some_iff.1 h).1, h]

/-- Nobody ends in the middle of a block. -/
theorem Moves.outcome?_eq (m : Moves k a s s') (t : TaskId) : s'.outcome? t = s.outcome? t := by
  obtain ⟨new, hs, hnew⟩ := m.tasks
  unfold outcome?
  rw [hs, List.getElem?_append]
  split_ifs with hlt
  · rfl
  · rw [List.getElem?_eq_none (Nat.le_of_not_lt hlt)]
    cases ht : new[t - s.tasks.length]? with
    | none => rfl
    | some task =>
      obtain ⟨role, due, rfl⟩ := hnew task (List.mem_of_getElem? ht)
      rfl

/-- Tasks stay, with their roles. -/
theorem Moves.role? (m : Moves k a s s') {t : TaskId} {r : Role} (h : s.role? t = some r) :
    s'.role? t = some r := by
  unfold Session.role? at h ⊢
  obtain ⟨task, ht, rfl⟩ := Option.map_eq_some_iff.1 h
  rw [m.task ht]
  rfl

end Keep

/-! ## Waking, waiting and ending -/

section Change

variable {s s' : Session} {t u : TaskId} {run : Option TaskId}

theorem modifyTask_cases {f : Task → Task} {task : Task}
    (h : (s.modifyTask t f).tasks[u]? = some task) :
    t = u ∧ (∃ old, s.tasks[u]? = some old ∧ task = f old) ∨ t ≠ u ∧ s.tasks[u]? = some task := by
  rw [tasks_modifyTask] at h
  split_ifs at h with he
  · obtain ⟨old, ho, rfl⟩ := Option.map_eq_some_iff.1 h
    exact .inl ⟨he, old, ho, rfl⟩
  · exact .inr ⟨he, h⟩

theorem hasEnded_modifyTask {f : Task → Task} (hf : ∀ task, (f task).outcome = task.outcome) :
    (s.modifyTask t f).hasEnded u = s.hasEnded u := by
  unfold hasEnded
  rw [outcome?_modifyTask hf]

/-- A change to the record of a task that keeps its role and does not end it. -/
theorem Tidy.modify (h : Tidy run s) {f : Task → Task} (hrole : ∀ task, (f task).role = task.role)
    (hout : ∀ task, (f task).outcome = task.outcome)
    (hfits : ∀ task : Task, s.tasks[t]? = some task → task.Fits → (f task).Fits)
    (hwaits : ∀ w, (t, w) ∈ s.waiting → ∀ task, (f task).phase = task.phase)
    (hover : Job.resume t ∈ s.ready → ∀ (task : Task) (p : Phase) load, s.tasks[t]? = some task →
      (f task).phase = some p → p.load? = some load → (f task).cancelRequested = false →
      s.hasEnded load)
    (htargets : ∀ (task : Task) (p : Phase) load, s.tasks[t]? = some task →
      (f task).phase = some p → p.load? = some load → s.role? load = some .load) :
    Tidy run (s.modifyTask t f) where
  turns u := by
    rw [isLive_modifyTask hout]
    exact h.turns u
  running u hu := by
    rw [isLive_modifyTask hout]
    exact h.running u hu
  fits u task hu ho := by
    rcases modifyTask_cases hu with ⟨rfl, old, hold, rfl⟩ | ⟨-, hu⟩
    · exact hfits old hold (h.fits t old hold ((hout old).symm.trans ho))
    · exact h.fits u task hu ho
  waits u w hw := by
    obtain ⟨task, p, hu, hp, hpw⟩ := h.waits u w hw
    by_cases he : t = u
    · subst he
      exact ⟨f task, p, by rw [tasks_modifyTask, if_pos rfl, hu]; rfl, by rw [hwaits w hw, hp], hpw⟩
    · exact ⟨task, p, by rw [tasks_modifyTask, if_neg he, hu], hp, hpw⟩
  loaded u task p load hr hu hp hl hc := by
    rw [hasEnded_modifyTask hout]
    rcases modifyTask_cases hu with ⟨rfl, old, hold, rfl⟩ | ⟨-, hu⟩
    · exact hover hr old p load hold hp hl hc
    · exact h.loaded u task p load hr hu hp hl hc
  relays u load hw he := by
    rw [hasEnded_modifyTask hout] at he
    exact h.relays u load hw he
  loads load hl := by
    rw [role?_modifyTask hrole]
    exact h.loads load hl
  targets u task p load hu hp hl := by
    rw [role?_modifyTask hrole]
    rcases modifyTask_cases hu with ⟨rfl, old, hold, rfl⟩ | ⟨-, hu⟩
    · exact htargets old p load hold hp hl
    · exact h.targets u task p load hu hp hl
  owns u c hw := by
    rw [role?_modifyTask hrole]
    exact h.owns u c hw
  alls u cs hw c hc := by
    rw [role?_modifyTask hrole]
    exact h.alls u cs hw c hc
  pending c hc := by
    rw [role?_modifyTask hrole]
    exact h.pending c hc

theorem role_eq {task : Task} {role : Role} (ht : s.tasks[t]? = some task)
    (hr : s.role? t = some role) : task.role = role := by
  simpa [role?, ht] using hr

/-- A task that is no loading is told to give up. -/
theorem Tidy.requestCancel (h : Tidy run s) {role : Role} (hr : s.role? t = some role)
    (hl : role ≠ .load) :
    Tidy run (s.modifyTask t fun task => { task with cancelRequested := true }) := by
  refine h.modify (fun _ => rfl) (fun _ => rfl) ?_ (fun _ _ _ => rfl) ?_ ?_
  · intro task ht hf
    exact ⟨hf.phase, hf.due, hf.single, fun he => absurd ((role_eq ht hr).symm.trans he) hl⟩
  · intro _ _ _ _ _ _ _ hc
    cases hc
  · intro task p load ht hp hpl
    exact h.targets t task p load ht hp hpl

theorem Tidy.not_mem_turns (h : Tidy (some t) s) : t ∉ s.turns := fun ht =>
  (h.isLive_of_mem ht).2 rfl

/-- The running task need not give up any more. -/
theorem Tidy.clearCancel (h : Tidy (some t) s) :
    Tidy (some t) (s.modifyTask t fun task => { task with cancelRequested := false }) := by
  refine h.modify (fun _ => rfl) (fun _ => rfl) ?_ (fun _ _ _ => rfl) ?_ ?_
  · intro task ht hf
    exact ⟨hf.phase, hf.due, hf.single, fun _ => rfl⟩
  · intro hr
    exact absurd (mem_turns_of_ready hr) h.not_mem_turns
  · intro task p load ht hp hpl
    exact h.targets t task p load ht hp hpl

/-- A task that waits and may go on is woken. -/
theorem Tidy.wake (h : Tidy run s) {w : Wait} (hw : (t, w) ∈ s.waiting)
    (hover : ∀ (task : Task) (p : Phase) load, s.tasks[t]? = some task → task.phase = some p →
      p.load? = some load → task.cancelRequested = false → s.hasEnded load) :
    Tidy run (s.wake t) where
  turns u := by
    have hu := h.turns u
    have ht := h.count_waiting hw
    have hfilter : (s.waiting.filter fun w => w.1 != t).map Prod.fst =
        (s.waiting.map Prod.fst).filter (· != t) := by
      rw [List.filter_map]
      rfl
    rw [count_turns] at hu
    rw [count_turns]
    show ((s.waiting.filter fun w => w.1 != t).map Prod.fst).count u +
      ((s.ready ++ [Job.resume t]).filterMap Job.resumes?).count u = _
    rw [hfilter, List.filterMap_append, List.count_append]
    show _ = if s.isLive u = true ∧ run ≠ some u then 1 else 0
    rw [← hu]
    by_cases he : u = t
    · subst he
      have hzero : ((s.waiting.map Prod.fst).filter (· != u)).count u = 0 := by
        rw [List.count_eq_zero]
        simp
      rw [hzero, ht.1, ht.2]
      simp [Job.resumes?]
    · rw [List.count_filter (by simpa using he)]
      simp [Job.resumes?, Ne.symm he]
  running := h.running
  fits := h.fits
  waits u w' hw' := h.waits u w' (List.mem_filter.1 hw').1
  loaded u task p load hr hu hp hl hc := by
    rcases List.mem_append.1 hr with hr | hr
    · exact h.loaded u task p load hr hu hp hl hc
    · have he : u = t := by simpa using hr
      subst he
      exact hover task p load hu hp hl hc
  relays u load hw' he := List.mem_append_left _ (h.relays u load (List.mem_filter.1 hw').1 he)
  loads := h.loads
  targets := h.targets
  owns u c hw' := h.owns u c (List.mem_filter.1 hw').1
  alls u cs hw' := h.alls u cs (List.mem_filter.1 hw').1
  pending := h.pending

/-- The running task, whose phase is known, begins to wait. -/
theorem Tidy.await (h : Tidy (some t) s) {task : Task} (ht : s.tasks[t]? = some task) {p : Phase}
    (hp : task.phase = some p) {w : Wait} (hw : s.Awaits p w) :
    Tidy none { s with waiting := s.waiting ++ [(t, w)] } where
  turns u := by
    have hu := h.turns u
    have hturns : ({ s with waiting := s.waiting ++ [(t, w)] } : Session).turns.count u =
        s.turns.count u + [t].count u := by
      simp only [count_turns, List.map_append, List.count_append, List.map_cons, List.map_nil]
      omega
    rw [hturns, hu]
    show _ = if s.isLive u = true ∧ _ then _ else _
    by_cases he : u = t
    · subst he
      simp [h.running u rfl]
    · simp [Ne.symm he]
  running := nofun
  fits := h.fits
  waits u w' hw' := by
    rcases List.mem_append.1 hw' with hw' | hw'
    · exact h.waits u w' hw'
    · obtain ⟨rfl, rfl⟩ : u = t ∧ w' = w := by simpa using hw'
      exact ⟨task, p, ht, hp, hw.isWait⟩
  loaded := h.loaded
  relays u load hw' he := by
    rcases List.mem_append.1 hw' with hw' | hw'
    · exact h.relays u load hw' he
    · obtain ⟨rfl, rfl⟩ : u = t ∧ .shared load = w := by simpa using hw'
      have hend := (hw.load load (Phase.load?_of_isWait hw.isWait)).2
      have he : s.hasEnded load := he
      rw [hend] at he
      cases he
  loads := h.loads
  targets := h.targets
  owns u c hw' := by
    rcases List.mem_append.1 hw' with hw' | hw'
    · exact h.owns u c hw'
    · obtain ⟨rfl, rfl⟩ : u = t ∧ .own c = w := by simpa using hw'
      exact hw.cycle c (Phase.eq_firstCycle_of_isWait hw.isWait)
  alls u cs hw' c hc := by
    rcases List.mem_append.1 hw' with hw' | hw'
    · exact h.alls u cs hw' c hc
    · obtain ⟨rfl, rfl⟩ : u = t ∧ .all cs = w := by simpa using hw'
      rw [hw.all cs rfl] at hc
      exact h.pending c hc
  pending := h.pending

/-- The running task waits. -/
theorem Tidy.suspend (h : Tidy (some t) s) {role : Role} (hrole : s.role? t = some role)
    {p : Phase} {w : Wait} (hk : role.allows p.kind) (hw : s.Awaits p w) {due : List Due}
    (hd : ∀ d ∈ due, role.allows d.call.kind) {verdict : Verdict}
    (hs : ∀ c, role.call? = some c → verdict = .ok none ∧ due = []) :
    Tidy none (s.suspend t p w due verdict) := by
  obtain ⟨task, ht, -⟩ := isLive_iff.1 (h.running t rfl)
  have hrec : Tidy (some t)
      (s.modifyTask t fun task => { task with phase := some p, due, verdict }) := by
    refine h.modify (fun _ => rfl) (fun _ => rfl) ?_ ?_ ?_ ?_
    · intro task ht hf
      have hr := role_eq ht hrole
      refine ⟨?_, fun d hd' => hr ▸ hd d hd', ?_, hf.kept⟩
      · rintro p' ⟨⟩
        rw [hr]
        exact hk
      · intro c hc
        simpa using hs c (by rw [← hr]; exact hc)
    · exact fun w hw => absurd (mem_turns_of_waiting hw) h.not_mem_turns
    · exact fun hr => absurd (mem_turns_of_ready hr) h.not_mem_turns
    · rintro task p' load ht ⟨⟩ hl
      exact h.loads load (hw.load load hl).1
  have hrec' : Tidy none { s.modifyTask t (fun task => { task with phase := some p, due, verdict })
      with waiting := s.waiting ++ [(t, w)] } := by
    have hnew : (s.modifyTask t fun task => { task with phase := some p, due, verdict }).tasks[t]? =
        some { task with phase := some p, due, verdict } := by
      rw [tasks_modifyTask, if_pos rfl, ht]
      rfl
    refine hrec.await hnew rfl ⟨hw.isWait, ?_, ?_, hw.all⟩
    · intro load hl
      rw [hasEnded_modifyTask (by simp)]
      exact hw.load load hl
    · intro c hc
      rw [role?_modifyTask (by simp)]
      exact hw.cycle c hc
  unfold Session.suspend
  dsimp only
  split_ifs
  · exact hrec'.enqueue rfl
  · exact hrec'

/-- Those who wait for a task of their own go on when it ends, and nobody else does. -/
theorem count_wakeUp (t u : TaskId) (waiting : List (TaskId × Wait)) :
    ((waiting.filter fun w => w.2 != .own t).map Prod.fst).count u +
      ((waiting.filterMap (wakeUp? t)).filterMap Job.resumes?).count u =
      (waiting.map Prod.fst).count u := by
  induction waiting with
  | nil => rfl
  | cons x waiting ih =>
    obtain ⟨v, w⟩ := x
    rw [List.filter_cons, List.filterMap_cons, List.map_cons, List.count_cons]
    cases w with
    | own c =>
      by_cases hc : c = t
      · simp [wakeUp?, hc, Job.resumes?, List.count_cons] at ih ⊢
        omega
      · simp [wakeUp?, hc, List.count_cons] at ih ⊢
        omega
    | shared c =>
      by_cases hc : c = t
      · have hskip := List.filterMap_cons_none (f := Job.resumes?) (a := .relay v)
          (l := waiting.filterMap (wakeUp? t)) rfl
        simp [wakeUp?, hc, List.count_cons] at ih ⊢
        rw [hskip]
        omega
      · simp [wakeUp?, hc, List.count_cons] at ih ⊢
        omega
    | all cs =>
      by_cases hc : t ∈ cs
      · have hskip := List.filterMap_cons_none (f := Job.resumes?) (a := .joined v t)
          (l := waiting.filterMap (wakeUp? t)) rfl
        simp [wakeUp?, hc, List.count_cons] at ih ⊢
        rw [hskip]
        omega
      · simp [wakeUp?, hc, List.count_cons] at ih ⊢
        omega
    | answer q =>
      simp [wakeUp?, List.count_cons] at ih ⊢
      omega
    | turn =>
      simp [wakeUp?, List.count_cons] at ih ⊢
      omega

/-- The session after a task has ended, apart from the journal. -/
def ended (s : Session) (t : TaskId) (o : Outcome) : Session :=
  { s.modifyTask t (fun task => { task with outcome := some o, due := [] }) with
    waiting := s.waiting.filter fun w => w.2 != .own t
    ready := s.ready ++ [.settled t] ++ s.waiting.filterMap (wakeUp? t) }

theorem hasEnded_ended {o : Outcome} (h : s.hasEnded u) : (s.ended t o).hasEnded u := by
  obtain ⟨task, hu, ho⟩ := hasEnded_iff.1 h
  refine hasEnded_iff.2 ?_
  by_cases he : t = u
  · exact ⟨_, (tasks_modifyTask _ _ _ _).trans ((if_pos he).trans (by rw [hu]; rfl)), rfl⟩
  · exact ⟨task, (tasks_modifyTask _ _ _ _).trans ((if_neg he).trans hu), ho⟩

theorem hasEnded_of_ended {o : Outcome} (h : (s.ended t o).hasEnded u) : s.hasEnded u ∨ t = u := by
  obtain ⟨task, hu, ho⟩ := hasEnded_iff.1 h
  rcases modifyTask_cases hu with ⟨he, -⟩ | ⟨-, hu⟩
  · exact .inr he
  · exact .inl (hasEnded_iff.2 ⟨task, hu, ho⟩)

theorem isLive_ended (o : Outcome) :
    (s.ended t o).isLive u = (s.isLive u && decide (t ≠ u)) := by
  have h := tasks_modifyTask s t u fun task => { task with outcome := some o, due := [] }
  unfold isLive
  show ((s.modifyTask t _).tasks[u]?).any _ = _
  rw [h]
  split_ifs with he
  · cases s.tasks[u]? <;> simp [he]
  · simp [he]

theorem Tidy.ended (h : Tidy (some t) s) (o : Outcome) : Tidy none (s.ended t o) where
  turns u := by
    have hu := h.turns u
    rw [count_turns] at hu ⊢
    show ((s.waiting.filter fun w => w.2 != .own t).map Prod.fst).count u +
      ((s.ready ++ [Job.settled t] ++ s.waiting.filterMap (wakeUp? t)).filterMap
        Job.resumes?).count u = _
    have hwake := count_wakeUp t u s.waiting
    rw [isLive_ended, List.filterMap_append, List.filterMap_append, List.count_append,
      List.count_append]
    have hsettled : (([Job.settled t] : List Job).filterMap Job.resumes?).count u = 0 := rfl
    by_cases he : t = u
    · subst he
      simp at hu ⊢
      omega
    · have hne : (some t : Option TaskId) ≠ some u := fun h => he (Option.some.inj h)
      simp only [hne, ne_eq, not_false_eq_true, and_true] at hu
      simp [he]
      omega
  running := nofun
  fits u task hu ho := by
    rcases modifyTask_cases hu with ⟨-, old, -, rfl⟩ | ⟨-, hu⟩
    · cases ho
    · exact h.fits u task hu ho
  waits u w hw := by
    have hw := (List.mem_filter.1 hw).1
    obtain ⟨task, p, hu, hp⟩ := h.waits u w hw
    have hne : t ≠ u := fun he => h.not_mem_turns (he ▸ mem_turns_of_waiting hw)
    exact ⟨task, p, (tasks_modifyTask _ _ _ _).trans ((if_neg hne).trans hu), hp⟩
  loaded u task p load hr hu hp hl hc := by
    have hr : Job.resume u ∈ s.ready ∨ Job.resume u ∈ s.waiting.filterMap (wakeUp? t) := by
      simpa [Session.ended] using hr
    rcases hr with hr | hr
    · have hne : t ≠ u := fun he => h.not_mem_turns (he ▸ mem_turns_of_ready hr)
      rcases modifyTask_cases hu with ⟨he, -⟩ | ⟨-, hu⟩
      · exact absurd he hne
      · exact hasEnded_ended (h.loaded u task p load hr hu hp hl hc)
    · -- the task was waiting for the ended one as its own, and so for no loading
      obtain ⟨⟨v, w⟩, hw, hwake⟩ := List.mem_filterMap.1 hr
      obtain ⟨old, q, hv, hq, hqw⟩ := h.waits v w hw
      have hvu : v = u ∧ w = .own t := by
        cases w with
        | own load =>
          simp only [wakeUp?, Option.ite_none_right_eq_some, Option.some.injEq,
            Job.resume.injEq] at hwake
          exact ⟨hwake.2, congrArg _ hwake.1⟩
        | shared _ | all _ | turn | answer => simp [wakeUp?] at hwake
      obtain ⟨rfl, rfl⟩ := hvu
      have hold : task.phase = old.phase := by
        rcases modifyTask_cases hu with ⟨-, old', hold', rfl⟩ | ⟨-, hu⟩
        · rw [hv] at hold'
          cases hold'
          rfl
        · rw [hv] at hu
          cases hu
          rfl
      have hpq : p = q := Option.some.inj (hp.symm.trans (hold.trans hq))
      rw [hpq, Phase.eq_firstCycle_of_isWait hqw] at hl
      cases hl
  relays u load hw he := by
    have hw := (List.mem_filter.1 hw).1
    show Job.relay u ∈ s.ready ++ [Job.settled t] ++ s.waiting.filterMap (wakeUp? t)
    rcases hasEnded_of_ended he with he | rfl
    · exact List.mem_append_left _ (List.mem_append_left _ (h.relays u load hw he))
    · exact List.mem_append_right _ (List.mem_filterMap.2 ⟨_, hw, by simp [wakeUp?]⟩)
  loads load hl := (role?_modifyTask (by simp)).trans (h.loads load hl)
  targets u task p load hu hp hl := by
    refine (role?_modifyTask (by simp)).trans ?_
    rcases modifyTask_cases hu with ⟨rfl, old, hold, rfl⟩ | ⟨-, hu⟩
    · exact h.targets t old p load hold hp hl
    · exact h.targets u task p load hu hp hl
  owns u c hw := (role?_modifyTask (by simp)).trans (h.owns u c (List.mem_filter.1 hw).1)
  alls u cs hw c hc :=
    (role?_modifyTask (by simp)).trans (h.alls u cs (List.mem_filter.1 hw).1 c hc)
  pending c hc := (role?_modifyTask (by simp)).trans (h.pending c hc)

/-- The end of a task, with what it leaves in the journal: a cycle its report, others nothing. -/
theorem finish_eq (s : Session) (t : TaskId) (o : Outcome) :
    s.finish t o = { s.ended t o with
      journal := s.journal ++ match s.role? t with
        | some (.cycle _) => [⟨some t, .reported (reportOf o)⟩]
        | _ => [] } := by
  unfold Session.finish role?
  cases (s.tasks[t]?).map Task.role with
  | none => simp [Session.ended, modifyTask, Session.enqueue, Session.enqueueAll]
  | some r => cases r <;>
    simp [Session.ended, modifyTask, Session.enqueue, Session.enqueueAll, record]

theorem Tidy.finish (h : Tidy (some t) s) (o : Outcome) : Tidy none (s.finish t o) := by
  rw [finish_eq]
  exact (h.ended o).congr rfl rfl rfl rfl rfl

end Change

end Session

end Snippets
