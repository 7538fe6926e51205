import Mathlib.Data.List.Induction
import Snippets.Proofs.Session.Gateway

/-!
# One loading at a time

Between two resets the external runner is loaded once: one task fetches its source and compiles it,
at most once each, and everybody who asks for the runner shares in that task (`Flight`). Whoever
learns how the loading ended learns what the task itself came to, which is a compiled runner or a
failure to load (`Told`).
-/

namespace Snippets

def Happening.isFetching : Happening → Bool
  | .fetching _ => true
  | _ => false

def Happening.isCompiling : Happening → Bool
  | .compiling _ => true
  | _ => false

def Happening.isReset : Happening → Bool
  | .reset => true
  | _ => false

/-! ## Epochs -/

namespace Journal

/-- The journal cut at the resets: the pieces up to the last one, and what came after it. -/
def cut (j : Journal) : List Journal × Journal :=
  j.foldl (fun c e => if e.what.isReset then (c.1 ++ [c.2], []) else (c.1, c.2 ++ [e])) ([], [])

/-- The pieces of the journal between resets. -/
def epochs (j : Journal) : List Journal := j.cut.1 ++ [j.cut.2]

theorem cut_concat (j : Journal) (e : Entry) : cut (j ++ [e]) =
    if e.what.isReset then (j.cut.1 ++ [j.cut.2], []) else (j.cut.1, j.cut.2 ++ [e]) := by
  simp [cut, List.foldl_append]

theorem cut_append_of_not {new : Journal} (h : ∀ e ∈ new, e.what.isReset = false) (j : Journal) :
    (j ++ new).cut = (j.cut.1, j.cut.2 ++ new) := by
  induction new generalizing j with
  | nil => simp
  | cons e new ih =>
    have he := h e List.mem_cons_self
    rw [List.append_cons, ih (fun e he => h e (List.mem_cons_of_mem _ he)), cut_concat, he]
    simp

/-- Every entry but a reset lies between resets. -/
theorem mem_epochs {j : Journal} {e : Entry} (he : e ∈ j) (hr : e.what.isReset = false) :
    ∃ epoch ∈ j.epochs, e ∈ epoch := by
  induction j using List.reverseRecOn with
  | nil => cases he
  | append_singleton j x ih =>
    unfold epochs at ih ⊢
    rw [cut_concat]
    rcases List.mem_append.1 he with he | he
    · obtain ⟨epoch, hepoch, hmem⟩ := ih he
      split_ifs
      · exact ⟨epoch, List.mem_append_left _ hepoch, hmem⟩
      · rcases List.mem_append.1 hepoch with hepoch | hepoch
        · exact ⟨epoch, List.mem_append_left _ hepoch, hmem⟩
        · rw [List.mem_singleton.1 hepoch] at hmem
          exact ⟨_, List.mem_append_right _ List.mem_cons_self, List.mem_append_left _ hmem⟩
    · rw [← List.mem_singleton.1 he, hr]
      exact ⟨_, List.mem_append_right _ List.mem_cons_self,
        List.mem_append_right _ List.mem_cons_self⟩

/-- In a piece of the journal `load` alone fetches and compiles, at most so many times, and nobody
shares in another loading. -/
structure Alone (epoch : Journal) (load : Option TaskId) (fetches compiles : Nat) : Prop where
  fetches : epoch.countP (fun e => e.what.isFetching) ≤ fetches
  compiles : epoch.countP (fun e => e.what.isCompiling) ≤ compiles
  actor : ∀ e ∈ epoch, e.what.isFetching ∨ e.what.isCompiling → e.task = load
  attached : ∀ e ∈ epoch, ∀ l, e.what = .attached l → load = some l

theorem Alone.mono {epoch : Journal} {load : Option TaskId} {f f' c c' : Nat}
    (h : Alone epoch load f c) (hf : f ≤ f') (hc : c ≤ c') : Alone epoch load f' c' :=
  ⟨Nat.le_trans h.fetches hf, Nat.le_trans h.compiles hc, h.actor, h.attached⟩

theorem Alone.append {epoch new : Journal} {load : Option TaskId} {f f' c c' : Nat}
    (h : Alone epoch load f c) (h' : Alone new load f' c') :
    Alone (epoch ++ new) load (f + f') (c + c') := by
  refine ⟨?_, ?_, ?_, ?_⟩
  · rw [List.countP_append]
    exact Nat.add_le_add h.fetches h'.fetches
  · rw [List.countP_append]
    exact Nat.add_le_add h.compiles h'.compiles
  · intro e he
    rcases List.mem_append.1 he with he | he
    · exact h.actor e he
    · exact h'.actor e he
  · intro e he
    rcases List.mem_append.1 he with he | he
    · exact h.attached e he
    · exact h'.attached e he

/-- Entries that neither fetch nor compile. -/
theorem alone_of_not {new : Journal} {load : Option TaskId}
    (hf : ∀ e ∈ new, e.what.isFetching = false) (hc : ∀ e ∈ new, e.what.isCompiling = false)
    (ha : ∀ e ∈ new, ∀ l, e.what = .attached l → load = some l) : Alone new load 0 0 := by
  refine ⟨?_, ?_, ?_, ha⟩
  · exact Nat.le_of_eq (List.countP_eq_zero.2 fun e he => by simp [hf e he])
  · exact Nat.le_of_eq (List.countP_eq_zero.2 fun e he => by simp [hc e he])
  · intro e he hw
    simp [hf e he, hc e he] at hw

/-- An epoch without a loading may become that of a new one. -/
theorem Alone.begin {epoch : Journal} (h : Alone epoch none 0 0) (load : Option TaskId) :
    Alone epoch load 0 0 := by
  refine ⟨h.fetches, h.compiles, ?_, fun e he l hl => absurd (h.attached e he l hl) nofun⟩
  intro e he hw
  have hf := List.countP_eq_zero.1 (Nat.le_zero.1 h.fetches) e he
  have hc := List.countP_eq_zero.1 (Nat.le_zero.1 h.compiles) e he
  exact absurd hw (by simp [hf, hc])

end Journal

namespace Session

/-- How often the current loading may have fetched so far. -/
def fetches (s : Session) : Nat :=
  match s.loading.bind fun load => s.tasks[load]? with
  | some task => if task.phase.isNone ∧ task.outcome.isNone then 0 else 1
  | none => 0

/-- How often the current loading may have compiled so far. -/
def compiles (s : Session) : Nat :=
  match s.loading.bind fun load => s.tasks[load]? with
  | some task => if task.outcome.isNone then 0 else 1
  | none => 0

/-- Between resets there is one loading. -/
structure Flight (s : Session) : Prop where
  past : ∀ epoch ∈ s.journal.cut.1, ∃ load, epoch.Alone load 1 1 ∧
    ∀ l, load = some l → s.role? l = some .load
  now : s.journal.cut.2.Alone s.loading s.fetches s.compiles
  loads : ∀ load, s.loading = some load → s.role? load = some .load

section Flight

variable {s s' : Session} {t : TaskId} {k : Kind} {a : Option TaskId} {ok : Entry → Prop}

theorem allowance_congr (hl : s'.loading = s.loading)
    (ht : ∀ load (task : Task), s.loading = some load → s.tasks[load]? = some task →
      s'.tasks[load]? = some task)
    (hloads : ∀ load, s.loading = some load → s.role? load = some .load) :
    s'.fetches = s.fetches ∧ s'.compiles = s.compiles := by
  unfold fetches compiles
  rw [hl]
  cases h : s.loading with
  | none => exact ⟨rfl, rfl⟩
  | some load =>
    obtain ⟨task, htask, -⟩ := Option.map_eq_some_iff.1 (hloads load h)
    simp [htask, ht load task h htask]

theorem Flight.past_of (h : Flight s) (hrole : ∀ u r, s.role? u = some r → s'.role? u = some r) :
    ∀ epoch ∈ s.journal.cut.1, ∃ load, epoch.Alone load 1 1 ∧
      ∀ l, load = some l → s'.role? l = some .load := by
  intro epoch he
  obtain ⟨load, ha, hl⟩ := h.past epoch he
  exact ⟨load, ha, fun l hload => hrole l _ (hl l hload)⟩

/-- A session goes on from one with one loading, and neither fetches nor compiles. -/
theorem Flight.extends (h : Flight s) (hx : Extends ok s s')
    (hok : ∀ e, ok e → e.what.isReset = false ∧ e.what.isFetching = false ∧
      e.what.isCompiling = false ∧ ∀ l, e.what = .attached l → s.loading = some l)
    (hl : s'.loading = s.loading)
    (ht : ∀ load (task : Task), s.loading = some load → s.tasks[load]? = some task →
      s'.tasks[load]? = some task)
    (hrole : ∀ u r, s.role? u = some r → s'.role? u = some r) : Flight s' := by
  obtain ⟨hf, hc⟩ := allowance_congr hl ht h.loads
  obtain ⟨-, new, hj, hnew⟩ := hx
  have hcut := Journal.cut_append_of_not (fun e he => (hok e (hnew e he)).1) s.journal
  rw [← hj] at hcut
  refine ⟨?_, ?_, fun load hload => hrole load _ (h.loads load (hl.symm.trans hload))⟩
  · rw [hcut]
    exact h.past_of hrole
  · rw [hcut, hl, hf, hc]
    exact h.now.append (Journal.alone_of_not (fun e he => (hok e (hnew e he)).2.1)
      (fun e he => (hok e (hnew e he)).2.2.1) fun e he => (hok e (hnew e he)).2.2.2)

theorem Flight.same (h : Flight s) (hs : s'.setup = s.setup) (hj : s'.journal = s.journal)
    (hl : s'.loading = s.loading) (ht : s'.tasks = s.tasks) : Flight s' := by
  have hx : Extends (fun _ => False) s s' := .of_eq hs hj
  refine h.extends hx (fun _ he => he.elim) hl (fun load task _ htask => by rw [ht, htask]) ?_
  intro u r hr
  unfold role?
  rw [ht]
  exact hr

theorem Flight.record (h : Flight s) {w : Happening} (hr : w.isReset = false)
    (hf : w.isFetching = false) (hc : w.isCompiling = false)
    (ha : ∀ l, w = .attached l → s.loading = some l) : Flight (s.record a w) := by
  have hx : Extends (fun e => e = ⟨a, w⟩) s (s.record a w) := .of_concat rfl rfl rfl
  refine h.extends hx ?_ rfl (fun _ _ _ ht => ht) fun _ _ hr => hr
  rintro e rfl
  exact ⟨hr, hf, hc, ha⟩

theorem Flight.spawn (h : Flight s) (role : Role) (due : List Due) :
    Flight (s.spawn role due).1 := by
  have hx : Extends (fun _ => False) s (s.spawn role due).1 := .of_eq rfl rfl
  exact h.extends hx (fun _ he => he.elim) rfl (fun _ _ _ ht => tasks_spawn_of_some ht)
    fun _ _ hr => role?_spawn hr

theorem Flight.schedule (h : Flight s) : Flight s.schedule.1 := by
  have hs := h.spawn (.cycle true) [⟨.cycle, false⟩]
  have hp : Flight { (s.spawn (.cycle true) [⟨.cycle, false⟩]).1 with
      pending := s.pending ++ [s.tasks.length] } := hs.same rfl rfl rfl rfl
  exact hp.record rfl rfl rfl (by simp)

/-- A loading begins: it has not fetched yet. -/
theorem Flight.ensureLoading (h : Flight s) : Flight s.ensureLoading.1 := by
  unfold Session.ensureLoading
  cases hl : s.loading with
  | some load => exact h
  | none =>
    have hnow := h.now
    have hf : s.fetches = 0 := by simp [fetches, hl]
    have hc : s.compiles = 0 := by simp [compiles, hl]
    rw [hl, hf, hc] at hnow
    refine ⟨h.past_of fun _ _ hr => role?_spawn hr,
      (hnow.begin _).mono (Nat.zero_le _) (Nat.zero_le _), ?_⟩
    rintro load ⟨⟩
    exact role?_spawn_self s _ _

theorem fetches_le_one (s : Session) : s.fetches ≤ 1 := by
  unfold fetches
  split
  · split_ifs <;> omega
  · omega

theorem compiles_le_one (s : Session) : s.compiles ≤ 1 := by
  unfold compiles
  split
  · split_ifs <;> omega
  · omega

theorem Flight.epoch (h : Flight s) {epoch : Journal} (he : epoch ∈ s.journal.epochs) :
    ∃ load, epoch.Alone load 1 1 ∧ ∀ l, load = some l → s.role? l = some .load := by
  rcases List.mem_append.1 he with he | he
  · exact h.past epoch he
  · rw [List.mem_singleton.1 he]
    exact ⟨s.loading, h.now.mono (fetches_le_one s) (compiles_le_one s), h.loads⟩

theorem Flight.forget (h : Flight s) : Flight (s.forget a) := by
  have hcut : (s.forget a).journal.cut = (s.journal.cut.1 ++ [s.journal.cut.2], []) :=
    Journal.cut_concat _ _
  refine ⟨?_, ?_, nofun⟩
  · rw [hcut]
    exact fun epoch he => h.epoch he
  · rw [hcut]
    exact ⟨Nat.zero_le _, Nat.zero_le _, by simp, by simp⟩

theorem Flight.worked (h : Flight s) {α : Type} (w : Worked α) (he : ∀ e ∈ w.effects, e.isQuestion = false) :
    Flight (s.worked a w).1 := by
  refine h.extends (extends_worked (k := .plain) w he) ?_ ?_ ?_ ?_
  · intro e he
    have hof := he.isOf
    revert hof
    cases e.what <;>
      simp [Happening.isOf, Happening.isReset, Happening.isFetching, Happening.isCompiling]
  · simp [Session.worked, withHost]
  · intro load task _ ht
    simpa [Session.worked, withHost] using ht
  · intro u r hr
    simpa [Session.worked, withHost, role?] using hr

theorem Flight.reset (h : Flight s) (a : Option TaskId) : Flight (s.reset a).1 := by
  unfold Session.reset
  split_ifs
  · exact h
  · split
    · exact h.forget
    · next r _ =>
      have hw : Flight (s.worked a (r.close s.host.bench)).1 :=
        h.worked _ (isQuestion_close _ _)
      generalize s.worked a (r.close s.host.bench) = q at hw ⊢
      obtain ⟨s', _ | f⟩ := q
      · dsimp only at hw ⊢
        cases r.isClosable
        · exact hw.forget
        · exact Flight.forget (hw.record rfl rfl rfl nofun)
      · exact hw

/-- A move of a task that is no loading. -/
theorem Move.flight (m : Move k a s s') (hk : k ≠ .load) (h : Flight s) : Flight s' := by
  cases m with
  | mark what hm =>
    refine h.record ?_ ?_ ?_ ?_ <;> revert hm <;> cases what <;>
      simp [Happening.isMark, Happening.isReset, Happening.isFetching, Happening.isCompiling, hk]
  | host | stop | stage | join => exact h.same rfl rfl rfl rfl
  | notify => exact notify_keeps h (fun _ _ h => h.same rfl rfl rfl rfl) fun _ h => h.schedule
  | listen => exact h.schedule.same rfl rfl rfl rfl
  | want => exact h.spawn _ _
  | queue rules hk =>
    have hq : Flight { s with queue := s.queue ++ Script.parseAll rules } := h.same rfl rfl rfl rfl
    exact hq.record rfl rfl rfl (by simp)
  | attach t ha hk =>
    refine h.ensureLoading.record rfl rfl rfl ?_
    rintro l ⟨⟩
    exact attach_loading s t
  | receive t load ha hk he => exact h.record rfl rfl rfl (by simp)
  | compiled r hk' => exact absurd hk' hk
  | reset hk => exact h.reset a

theorem Moves.flight (m : Moves k a s s') (hk : k ≠ .load) (h : Flight s) : Flight s' :=
  m.keep (fun _ _ m h => m.flight hk h) h

theorem Flight.ne_loading (h : Flight s) {task : Task} (ht : s.tasks[t]? = some task)
    (hr : task.role ≠ .load) : ∀ load, s.loading = some load → t ≠ load := by
  rintro load hl rfl
  exact hr (role_eq ht (h.loads t hl))

/-- A change to a task that is no loading. -/
theorem Flight.modify (h : Flight s) {task : Task} (ht : s.tasks[t]? = some task)
    (hr : task.role ≠ .load) {f : Task → Task} (hf : ∀ task, (f task).role = task.role) :
    Flight (s.modifyTask t f) := by
  have hx : Extends (fun _ => False) s (s.modifyTask t f) := .of_eq rfl rfl
  refine h.extends hx (fun _ he => he.elim) rfl ?_ fun _ _ hr => (role?_modifyTask hf).trans hr
  intro load task' hl htask
  rw [tasks_modifyTask, if_neg (h.ne_loading ht hr load hl), htask]

theorem Flight.suspend (h : Flight s) {task : Task} (ht : s.tasks[t]? = some task)
    (hr : task.role ≠ .load) (p : Phase) (w : Wait) (due : List Due) (verdict : Verdict) :
    Flight (s.suspend t p w due verdict) := by
  obtain ⟨ready, he⟩ := suspend_eq s t p w due verdict
  rw [he]
  exact (h.modify ht hr (by simp)).same rfl rfl rfl rfl

theorem Flight.finish (h : Flight s) {task : Task} (ht : s.tasks[t]? = some task)
    (hr : task.role ≠ .load) (o : Outcome) : Flight (s.finish t o) := by
  refine h.extends extends_finish ?_ (by rw [finish_eq]; rfl) ?_ fun _ _ hr => role?_finish.trans hr
  · rintro e ⟨x, rfl⟩
    exact ⟨rfl, rfl, rfl, nofun⟩
  · intro load task' hl htask
    rw [finish_eq]
    refine (tasks_modifyTask s t load _).trans ?_
    rw [if_neg (h.ne_loading ht hr load hl), htask]

end Flight

/-! ## The turn of a loading -/

/-- What a loading can come to: the runner that it compiled, or a failure to load it. What cannot be
contained passes through. -/
def IsLoaded (j : Journal) (load : TaskId) : Outcome → Prop
  | .ok result => ∃ r, result = .runner r ∧ ⟨some load, .compiled r⟩ ∈ j
  | .error f => f.isContained → f.isLoading

/-- A block of a loading, apart from the beginning of the fetch: it compiles at most once, and only
if it ends. -/
structure LoadBlock (t : TaskId) (s : Session) (r : Session × Progress) : Prop where
  loading : r.1.loading = s.loading
  task : ∀ (u : TaskId) (task : Task), s.tasks[u]? = some task → r.1.tasks[u]? = some task
  journal : ∃ new, r.1.journal = s.journal ++ new ∧ (∀ e ∈ new, e.what.isReset = false) ∧
    Journal.Alone new (some t) 0 (match r.2 with | .waits _ _ => 0 | .ends _ => 1)
  outcome : ∀ o, r.2 = .ends o → IsLoaded r.1.journal t o

section LoadBlock

variable {s s' : Session} {t : TaskId}

theorem Moves.quiet {a : Option TaskId} (m : Moves .plain a s s') :
    ∃ new, s'.journal = s.journal ++ new ∧ (∀ e ∈ new, e.what.isReset = false) ∧
      ∀ load, Journal.Alone new load 0 0 := by
  obtain ⟨-, new, hj, hnew⟩ := m.extends
  have hquiet : ∀ e ∈ new, e.what.isReset = false ∧ e.what.isFetching = false ∧
      e.what.isCompiling = false ∧ ∀ l, e.what ≠ .attached l := by
    intro e he
    have hof := (hnew e he).isOf
    revert hof
    cases e.what <;>
      simp [Happening.isOf, Happening.isReset, Happening.isFetching, Happening.isCompiling]
  refine ⟨new, hj, fun e he => (hquiet e he).1, fun load => Journal.alone_of_not ?_ ?_ ?_⟩
  · exact fun e he => (hquiet e he).2.1
  · exact fun e he => (hquiet e he).2.2.1
  · exact fun e he l hl => absurd hl ((hquiet e he).2.2.2 l)

/-- Plain moves on the way to a block of a loading. -/
theorem LoadBlock.after {r : Session × Progress} (h : LoadBlock t s' r)
    (m : Moves .plain (some t) s s') : LoadBlock t s r := by
  obtain ⟨new, hj, hr, ha⟩ := m.quiet
  obtain ⟨new', hj', hr', ha'⟩ := h.journal
  refine ⟨h.loading.trans m.loading_eq, fun u task ht => h.task u task (m.task ht), ?_,
    h.outcome⟩
  refine ⟨new ++ new', by rw [hj', hj, List.append_assoc], ?_, ?_⟩
  · intro e he
    rcases List.mem_append.1 he with he | he
    · exact hr e he
    · exact hr' e he
  · simpa using (ha (some t)).append ha'

theorem loadBlock_waits (p : Phase) (w : Wait) : LoadBlock t s (s, .waits p w) :=
  ⟨rfl, fun _ _ ht => ht,
    ⟨[], by simp, by simp, Nat.zero_le _, Nat.zero_le _, by simp, by simp⟩, nofun⟩

theorem loadBlock_fails {f : Failure} (hf : f.isContained → f.isLoading) :
    LoadBlock t s (s, .ends (.error f)) := by
  refine ⟨rfl, fun _ _ ht => ht, ?_, ?_⟩
  · exact ⟨[], by simp, by simp, Nat.zero_le _, Nat.zero_le _, by simp, by simp⟩
  · rintro o ⟨⟩
    exact hf

/-- The end of a compilation. -/
theorem Compiles.ends {r : Session × Progress} (h : Compiles t s r) :
    ∃ o, r.2 = .ends o ∧ r.1.loading = s.loading ∧
      (∀ (u : TaskId) (task : Task), s.tasks[u]? = some task → r.1.tasks[u]? = some task) ∧
      (∃ new, r.1.journal = s.journal ++ new ∧ (∀ e ∈ new, e.what.isReset = false) ∧
        Journal.Alone new (some t) 0 0) ∧ IsLoaded r.1.journal t o := by
  cases h with
  | @fails s' m f hf =>
    obtain ⟨new, hj, hr, ha⟩ := m.quiet
    exact ⟨_, rfl, m.loading_eq, fun _ _ ht => m.task ht, ⟨new, hj, hr, ha _⟩, hf⟩
  | @done s' m r l fresh made =>
    obtain ⟨new, hj, hr, ha⟩ := m.quiet
    refine ⟨_, rfl, m.loading_eq, fun _ _ ht => m.task ht, ?_, r, rfl, ?_⟩
    · refine ⟨new ++ [⟨some t, .compiled r⟩, ⟨some t, .log l⟩], ?_, ?_, ?_⟩
      · show s'.journal ++ [_] ++ [_] = _
        rw [hj]
        simp
      · intro e he
        rcases List.mem_append.1 he with he | he
        · exact hr e he
        · have he : e = ⟨some t, .compiled r⟩ ∨ e = ⟨some t, .log l⟩ := by simpa using he
          rcases he with rfl | rfl <;> rfl
      · refine (ha (some t)).append (Journal.alone_of_not ?_ ?_ ?_) <;>
          simp [Happening.isFetching, Happening.isCompiling]
    · show _ ∈ s'.journal ++ [_] ++ [_]
      simp

theorem Loads.block {r : Session × Progress} (h : Loads t s r) : LoadBlock t s r := by
  cases h with
  | waits m p w => exact (loadBlock_waits p w).after m
  | fails m f hf => exact (loadBlock_fails hf).after m
  | @compiles s' m source r hc =>
    refine LoadBlock.after ?_ m
    obtain ⟨o, ho, hl, ht, ⟨new, hj, hr, ha⟩, hloaded⟩ := hc.ends
    refine ⟨hl, ht, ⟨⟨some t, .compiling source⟩ :: new, ?_, ?_, ?_⟩, ?_⟩
    · rw [hj]
      show s'.journal ++ [_] ++ new = _
      simp
    · rintro e (_ | ⟨_, he⟩)
      · rfl
      · exact hr e he
    · have hone : Journal.Alone [⟨some t, .compiling source⟩] (some t) 0 1 := by
        refine ⟨?_, ?_, ?_, ?_⟩ <;> simp [Happening.isFetching, Happening.isCompiling]
      rw [ho]
      exact hone.append ha
    · intro o' ho'
      rw [ho] at ho'
      cases ho'
      exact hloaded

theorem role?_conclude {u : TaskId} {role : Role} {p : Progress} (h : s.role? u = some role) :
    (s.conclude t p).role? u = some role := by
  cases p with
  | waits p w => exact role?_suspend.trans h
  | ends o => exact role?_finish.trans h

/-- After the turn of a loading it has begun; it has fetched if it had not begun before, and has
compiled at most once, if it has ended. -/
theorem conclude_load {task : Task} (ht : s.tasks[t]? = some task) (hr : task.role = .load)
    (ho : task.outcome = none) (hl : s.loading = some t) (p : Progress) :
    (s.conclude t p).journal = s.journal ∧ (s.conclude t p).loading = some t ∧
      (s.conclude t p).role? t = some .load ∧ (s.conclude t p).fetches = 1 ∧
      (s.conclude t p).compiles = (match p with | .waits _ _ => 0 | .ends _ => 1) := by
  have hrole : s.role? t = some .load := by simp [role?, ht, hr]
  cases p with
  | waits p w =>
    have htask : (s.conclude t (.waits p w)).tasks[t]? =
        some { task with phase := some p, due := [], verdict := .ok none } := task_suspend ht
    have hloading : (s.conclude t (.waits p w)).loading = some t := by
      obtain ⟨ready, he⟩ := suspend_eq s t p w [] (.ok none)
      exact (congrArg Session.loading he).trans hl
    refine ⟨?_, hloading, role?_suspend.trans hrole, ?_, ?_⟩
    · obtain ⟨ready, he⟩ := suspend_eq s t p w [] (.ok none)
      exact (congrArg Session.journal he).trans rfl
    · simp [fetches, hloading, htask]
    · simp [compiles, hloading, htask, ho]
  | ends o =>
    have htask : (s.conclude t (.ends o)).tasks[t]? =
        some { task with outcome := some o, due := [] } := task_finish ht
    have hloading : (s.conclude t (.ends o)).loading = some t :=
      (congrArg Session.loading (finish_eq s t o)).trans hl
    refine ⟨?_, hloading, role?_finish.trans hrole, ?_, ?_⟩
    · refine (congrArg Session.journal (finish_eq s t o)).trans ?_
      rw [hrole]
      exact List.append_nil _
    · simp [fetches, hloading, htask]
    · simp [compiles, hloading, htask]

/-- The end of a turn of the current loading, which began with the entries `begun` and went on with
a block. -/
theorem Flight.conclude {task : Task} {s₀ : Session} {r : Session × Progress} (h : Flight s)
    (begun : Journal) (f : Nat) (hl : s.loading = some t) (hc : s.compiles = 0)
    (hb : LoadBlock t s₀ r) (hl₀ : s₀.loading = some t) (ht₀ : s₀.tasks[t]? = some task)
    (hr : task.role = .load) (ho : task.outcome = none)
    (hrole₀ : ∀ u role, s.role? u = some role → s₀.role? u = some role)
    (hj₀ : s₀.journal = s.journal ++ begun) (hr₀ : ∀ e ∈ begun, e.what.isReset = false)
    (ha₀ : begun.Alone (some t) f 0) (hf : s.fetches + f ≤ 1) : Flight (r.1.conclude t r.2) := by
  obtain ⟨new, hj, hreset, halone⟩ := hb.journal
  obtain ⟨hjournal, hloading, hrole, hfetches, hcompiles⟩ :=
    conclude_load (hb.task t _ ht₀) hr ho (hb.loading.trans hl₀) r.2
  have hcut : (r.1.conclude t r.2).journal.cut =
      (s.journal.cut.1, s.journal.cut.2 ++ (begun ++ new)) := by
    rw [hjournal, hj, hj₀, List.append_assoc]
    refine Journal.cut_append_of_not ?_ _
    intro e he
    rcases List.mem_append.1 he with he | he
    · exact hr₀ e he
    · exact hreset e he
  have hnow := h.now
  rw [hl, hc] at hnow
  refine ⟨?_, ?_, ?_⟩
  · rw [hcut]
    refine h.past_of fun u role hu => role?_conclude ?_
    obtain ⟨old, hold, rfl⟩ := Option.map_eq_some_iff.1 (hrole₀ u role hu)
    simp [role?, hb.task u old hold]
  · rw [hcut, hloading, hfetches, hcompiles]
    refine (hnow.append (ha₀.append halone)).mono ?_ ?_
    · omega
    · omega
  · intro load hload
    rw [hloading] at hload
    cases hload
    exact hrole

theorem Flight.resume_load {task : Task} (turn : Turn s t task) (hr : task.role = .load)
    (hs : Sound s) (h : Flight s) : Flight (s.resume t) := by
  have ht := turn.known
  have ho := turn.live
  have hl := hs.loading_of_turn turn hr
  have hc : s.compiles = 0 := by simp [compiles, hl, ht, ho]
  have hheed : ∀ u role, s.role? u = some role → (s.heed t).role? u = some role :=
    fun u role hu => (role?_heed u).trans hu
  obtain ⟨r, he, -, ⟨hp, hload⟩ | ⟨hp, hload⟩⟩ := load_turn turn hr
  · rw [he]
    refine h.conclude [⟨some t, .fetching s.setup.url⟩] 1 hl hc hload.block hl (task_heed ht) hr ho
      hheed rfl ?_ ?_ ?_
    · simp [Happening.isReset]
    · refine ⟨?_, ?_, ?_, ?_⟩ <;> simp [Happening.isFetching, Happening.isCompiling]
    · simp [fetches, hl, ht, hp, ho]
  · rw [he]
    refine h.conclude [] 0 hl hc hload.block hl (task_heed ht) hr ho hheed
      (List.append_nil _).symm ?_ ?_ ?_
    · simp
    · exact ⟨Nat.zero_le _, Nat.zero_le _, by simp, by simp⟩
    · exact fetches_le_one s

theorem Flight.resume_other {task : Task} (turn : Turn s t task) (hr : task.role ≠ .load)
    (h : Flight s) : Flight (s.resume t) := by
  refine resume_of_moves (P := Flight) turn (h.modify turn.known hr (by simp)) ?_ ?_ ?_
  · intro k s s' hk m _ hs
    exact m.flight (Role.ne_load_of_allows hr hk) hs
  · exact fun s p w due verdict htask hs => hs.suspend htask hr p w due verdict
  · exact fun s o htask hs => hs.finish htask hr o

theorem Flight.aside (h : Flight s) (m : Aside s s') : Flight s' := by
  cases m with
  | move m => exact m.flight nofun h
  | spawn role due hf hl => exact h.spawn role due
  | tell t role hr hl =>
    obtain ⟨task, ht, rfl⟩ := Option.map_eq_some_iff.1 hr
    exact Flight.record (h.modify ht hl (by simp)) rfl rfl rfl nofun
  | note t l hlt => exact h.record rfl rfl rfl nofun
  | turns => exact h.same rfl rfl rfl rfl

end LoadBlock

theorem flight_of_reachable {s : Session} (h : Reachable s) : Flight s := by
  have hboth : Sound s ∧ Flight s := by
    refine Reachable.keeps (P := fun s => Sound s ∧ Flight s) ?_
      (fun s s' m h => ⟨h.1.aside m, h.2.aside m⟩) ?_ h
    · intro setup host event
      refine ⟨sound_of_reachable (.new setup host event), by simp [Journal.cut], ?_, by simp⟩
      exact ⟨Nat.zero_le _, Nat.zero_le _, by simp [Journal.cut], by simp [Journal.cut]⟩
    · intro s t task turn ⟨hs, hf⟩
      by_cases hr : task.role = .load
      · exact ⟨hs.resume_load turn hr, hf.resume_load turn hr hs⟩
      · exact ⟨hs.resume_other turn hr, hf.resume_other turn hr⟩
  exact hboth.2

/-! ## What is told -/

/-- Whoever learned how a loading ended learned what it came to. -/
structure Told (s : Session) : Prop where
  received : ∀ t load o, ⟨some t, .received load o⟩ ∈ s.journal → s.outcome? load = some o
  loaded : ∀ load o, s.role? load = some .load → s.outcome? load = some o →
    IsLoaded s.journal load o

section Told

variable {s s' : Session} {t : TaskId} {k : Kind} {a : Option TaskId} {ok : Entry → Prop}

theorem IsLoaded.extends {load : TaskId} {o : Outcome} (h : IsLoaded s.journal load o)
    (hx : Extends ok s s') : IsLoaded s'.journal load o := by
  cases o with
  | error f => exact h
  | ok result =>
    obtain ⟨r, hr, hmem⟩ := h
    exact ⟨r, hr, hx.mem hmem⟩

theorem Told.extends (h : Told s) (hx : Extends ok s s')
    (hok : ∀ e, ok e → ∀ load o, e.what = .received load o → s'.outcome? load = some o)
    (hout : ∀ u o, s.outcome? u = some o → s'.outcome? u = some o)
    (hload : ∀ u o, s'.role? u = some .load → s'.outcome? u = some o →
      s.role? u = some .load ∧ s.outcome? u = some o ∨ IsLoaded s'.journal u o) : Told s' := by
  refine ⟨?_, ?_⟩
  · obtain ⟨-, new, hj, hnew⟩ := hx
    intro t load o he
    rw [hj] at he
    rcases List.mem_append.1 he with he | he
    · exact hout load o (h.received t load o he)
    · exact hok _ (hnew _ he) load o rfl
  · intro load o hr ho
    rcases hload load o hr ho with ⟨hr', ho'⟩ | hloaded
    · exact (h.loaded load o hr' ho').extends hx
    · exact hloaded

/-- What is told in a move is what the loading came to. -/
theorem Move.received (m : Move k a s s') :
    Extends (fun e => ∀ load o, e.what = .received load o → s'.outcome? load = some o) s s' := by
  cases m with
  | mark what hm =>
    refine .of_concat rfl rfl ?_
    rintro load o ⟨⟩
    cases hm
  | host | stop | stage | want | join => exact .of_eq rfl rfl
  | notify =>
    -- the outcomes at the end do not matter: nothing is told on the way
    exact (notify_keeps (P := Extends (fun e => ∀ load o, e.what ≠ .received load o) s) (.refl s)
      (fun _ _ h => h.trans (.of_eq rfl rfl)) fun _ h => h.trans (.of_concat rfl rfl nofun)).mono
      fun _ he load o hw => absurd hw (he load o)
  | listen | queue | compiled => exact .of_concat rfl rfl nofun
  | attach t ha hk =>
    obtain ⟨hs, hj⟩ := setup_ensureLoading s
    exact (Extends.of_eq hs hj).trans (.of_concat rfl rfl nofun)
  | receive t load ha hk he =>
    refine .of_concat rfl rfl ?_
    rintro load o ⟨⟩
    obtain ⟨o, ho⟩ := Option.isSome_iff_exists.1 he
    show s.outcome? load = some ((s.outcome? load).getD _)
    rw [ho]
    rfl
  | reset hk =>
    refine extends_reset.mono fun e he load o hw => ?_
    have hof := he.isOf
    simp [hw, Happening.isOf] at hof

theorem Told.moves (h : Told s) (m : Moves k a s s') : Told s' := by
  refine m.keep ?_ h
  intro s s' m h
  have mm : Moves k a s s' := .single m
  refine h.extends m.received (fun _ he => he) (fun u o ho => (mm.outcome?_eq u).trans ho) ?_
  intro u o hr ho
  rw [mm.outcome?_eq] at ho
  refine .inl ⟨?_, ho⟩
  obtain ⟨task, ht, -⟩ := Option.bind_eq_some_iff.1 ho
  have hr' : s.role? u = some task.role := by simp [role?, ht]
  rw [mm.role? hr'] at hr
  rw [hr', hr]

/-- Nothing is told and nobody ends. -/
theorem Told.same (h : Told s) (hx : Extends ok s s')
    (hok : ∀ e, ok e → ∀ load o, e.what ≠ .received load o)
    (hout : ∀ u, s'.outcome? u = s.outcome? u)
    (hrole : ∀ u, s'.role? u = some .load → (s.outcome? u).isSome → s.role? u = some .load) :
    Told s' := by
  refine h.extends hx (fun e he load o hw => absurd hw (hok e he load o))
    (fun u o ho => (hout u).trans ho) ?_
  intro u o hr ho
  rw [hout] at ho
  exact .inl ⟨hrole u hr (by simp [ho]), ho⟩

theorem Told.modify (h : Told s) {f : Task → Task} (hrole : ∀ task, (f task).role = task.role)
    (hout : ∀ task, (f task).outcome = task.outcome) : Told (s.modifyTask t f) := by
  have hx : Extends (fun _ => False) s (s.modifyTask t f) := .of_eq rfl rfl
  exact h.same hx (fun _ he => he.elim) (fun _ => outcome?_modifyTask hout)
    fun u hr _ => (role?_modifyTask hrole).symm.trans hr

theorem Told.record (h : Told s) {w : Happening} (hw : ∀ load o, w ≠ .received load o) :
    Told (s.record a w) := by
  have hx : Extends (fun e => e = ⟨a, w⟩) s (s.record a w) := .of_concat rfl rfl rfl
  exact h.same hx (by rintro e rfl; exact hw) (fun _ => rfl) fun _ hr _ => hr

theorem Told.spawn (h : Told s) (role : Role) (due : List Due) : Told (s.spawn role due).1 := by
  have hx : Extends (fun _ => False) s (s.spawn role due).1 := .of_eq rfl rfl
  refine h.same hx (fun _ he => he.elim) (outcome?_spawn s role due) ?_
  intro u hr ho
  obtain ⟨o, ho⟩ := Option.isSome_iff_exists.1 ho
  obtain ⟨task, ht, -⟩ := Option.bind_eq_some_iff.1 ho
  have hr' : s.role? u = some task.role := by simp [role?, ht]
  rw [role?_spawn hr'] at hr
  rw [hr', hr]

theorem Told.suspend (h : Told s) (p : Phase) (w : Wait) (due : List Due) (verdict : Verdict) :
    Told (s.suspend t p w due verdict) := by
  have hm : Told (s.modifyTask t fun task => { task with phase := some p, due, verdict }) :=
    h.modify (by simp) (by simp)
  obtain ⟨ready, he⟩ := suspend_eq s t p w due verdict
  rw [he]
  exact ⟨hm.received, hm.loaded⟩

/-- A task that had not ended ends, and if it is a loading, with what a loading can come to. -/
theorem Told.finish (h : Told s) {task : Task} (ht : s.tasks[t]? = some task)
    (ho : task.outcome = none) {o : Outcome}
    (hload : task.role = .load → IsLoaded s.journal t o) : Told (s.finish t o) := by
  refine h.extends extends_finish ?_ ?_ ?_
  · rintro e ⟨x, rfl⟩
    exact nofun
  · intro u o' ho'
    rw [outcome?_finish ht, if_neg, ho']
    rintro rfl
    simp [outcome?, ht, ho] at ho'
  · intro u o' hr ho'
    rw [role?_finish] at hr
    rw [outcome?_finish ht] at ho'
    split_ifs at ho' with he
    · cases ho'
      subst he
      exact .inr ((hload (role_eq ht hr)).extends extends_finish)
    · exact .inl ⟨hr, ho'⟩

theorem Told.resume_load {task : Task} (turn : Turn s t task) (hr : task.role = .load)
    (h : Told s) : Told (s.resume t) := by
  obtain ⟨r, he, m, hload⟩ := load_turn turn hr
  have hheed : Told (s.heed t) := h.modify (by simp) (by simp)
  have htold := hheed.moves m
  have htask := m.task (task_heed turn.known)
  have hout : ∀ o, r.2 = .ends o → IsLoaded r.1.journal t o := by
    rcases hload with ⟨-, hload⟩ | ⟨-, hload⟩
    · exact hload.block.outcome
    · exact hload.block.outcome
  rw [he]
  obtain ⟨s', p⟩ := r
  cases p with
  | waits p w => exact htold.suspend p w [] _
  | ends o => exact htold.finish htask turn.live fun _ => hout o rfl

theorem Told.resume_other {task : Task} (turn : Turn s t task) (hr : task.role ≠ .load)
    (h : Told s) : Told (s.resume t) := by
  refine resume_of_moves (P := Told) turn (h.modify (by simp) (by simp)) ?_ ?_ ?_
  · exact fun k s s' _ m _ hs => hs.moves m
  · exact fun s p w due verdict _ hs => hs.suspend p w due verdict
  · exact fun s o htask hs => hs.finish htask turn.live fun hc => absurd hc hr

theorem Told.aside (h : Told s) (m : Aside s s') : Told s' := by
  cases m with
  | move m => exact h.moves (.single m)
  | spawn role due hf hl => exact h.spawn role due
  | tell t role hr hl => exact Told.record (h.modify (by simp) (by simp)) nofun
  | note t l hlt => exact h.record nofun
  | turns => exact ⟨h.received, h.loaded⟩

end Told

theorem told_of_reachable {s : Session} (h : Reachable s) : Told s := by
  refine h.keeps ?_ (fun s s' m h => h.aside m) ?_
  · intro setup host event
    exact ⟨by simp, by simp [role?]⟩
  · intro s t task turn h
    by_cases hr : task.role = .load
    · exact h.resume_load turn hr
    · exact h.resume_other turn hr

end Session

end Snippets
