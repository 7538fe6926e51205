import Snippets.Proofs.Session.Trail

/-!
# The gateway to the external runner

A runner is kept only together with the loading that made it, and while a loading is under way
there is none. What was compiled and not closed since is exactly the runner that is kept, so no
runner is lost and none is closed twice (`gateway_sound`).

The turn of a loading sets the runner before the loading ends, so it is looked at as a whole
(`load_turn`); all other turns are sequences of moves.
-/

namespace Snippets

/-! ## Fresh runners -/

/-- A runner that was made on a bench so far. -/
def CompiledRunner.IsMade (b : Bench) : CompiledRunner → Prop
  | .script r => r.script < b.scratch.next
  | .hosted number _ => number ≤ b.made

theorem CompiledRunner.IsMade.precedes {b b' : Bench} {r : CompiledRunner} (h : r.IsMade b)
    (hb : b.Precedes b') : r.IsMade b' := by
  cases r with
  | script r => exact Nat.lt_of_lt_of_le h hb.next
  | hosted number behaviour => exact Nat.le_trans h hb.made

/-- A compiler makes runners that were not there before. -/
theorem compile_fresh {c : Compiler} {source : Text} {b : Bench} {r : CompiledRunner}
    (h : (c.compile source b).result = .ok r) :
    ¬ r.IsMade b ∧ r.IsMade (c.compile source b).bench := by
  unfold Compiler.compile at h ⊢
  split at h
  · next settings =>
    cases hrefusal : b.refusalOf source with
    | some message => simp [hrefusal] at h
    | none =>
      simp only [hrefusal] at h ⊢
      unfold ScriptSettings.compile at h ⊢
      split_ifs at h ⊢ with hb
      dsimp only [Scratch.create] at h ⊢
      cases he : Utf8.encode source with
      | error e => simp [he] at h
      | ok bytes =>
        simp only [he] at h ⊢
        cases h
        exact ⟨Nat.lt_irrefl _, Nat.lt_succ_self _⟩
  · next behaviour =>
    cases hf : behaviour.fault with
    | some f => simp [hf] at h
    | none =>
      simp only [hf] at h ⊢
      cases h
      exact ⟨Nat.not_succ_le_self _, Nat.le_refl _⟩

namespace Journal

/-- The runners that were compiled, in order. -/
def compiled (j : Journal) : List CompiledRunner :=
  j.filterMap fun e =>
    match e.what with
    | .compiled r => some r
    | _ => none

/-- The runners that were closed, in order. -/
def closed (j : Journal) : List CompiledRunner :=
  j.filterMap fun e =>
    match e.what with
    | .closed r => some r
    | _ => none

variable {j new : Journal}

theorem compiled_append (j new : Journal) : (j ++ new).compiled = j.compiled ++ new.compiled :=
  List.filterMap_append

theorem closed_append (j new : Journal) : (j ++ new).closed = j.closed ++ new.closed :=
  List.filterMap_append

theorem compiled_append_of_not (h : ∀ e ∈ new, ∀ r, e.what ≠ .compiled r) :
    (j ++ new).compiled = j.compiled := by
  have hnew : new.compiled = [] := by
    refine List.filterMap_eq_nil_iff.2 fun e he => ?_
    split
    · next r hr => exact absurd hr (h e he r)
    · rfl
  rw [compiled_append, hnew, List.append_nil]

theorem closed_append_of_not (h : ∀ e ∈ new, ∀ r, e.what ≠ .closed r) :
    (j ++ new).closed = j.closed := by
  have hnew : new.closed = [] := by
    refine List.filterMap_eq_nil_iff.2 fun e he => ?_
    split
    · next r hr => exact absurd hr (h e he r)
    · rfl
  rw [closed_append, hnew, List.append_nil]

end Journal

namespace Session

/-! ## The turn of a loading -/

/-- How compiling may come out: it fails, or there is a new runner. -/
inductive Compiles (t : TaskId) (s : Session) : Session × Progress → Prop where
  | fails {s' : Session} (m : Moves .plain (some t) s s') (f : Failure)
      (hf : f.isContained → f.isLoading) : Compiles t s (s', .ends (.error f))
  | done {s' : Session} (m : Moves .plain (some t) s s') (r : CompiledRunner) (l : Log)
      (fresh : ¬ r.IsMade s.host.bench) (made : r.IsMade s'.host.bench) :
      Compiles t s (({ s' with runner := some r }.record (some t) (.compiled r)).note (some t) l,
        .ends (.ok (.runner r)))

/-- How a block of a loading may come out: it waits, fails, or goes on to compile. -/
inductive Loads (t : TaskId) (s : Session) : Session × Progress → Prop where
  | waits {s' : Session} (m : Moves .plain (some t) s s') (p : Phase) (w : Wait) :
      Loads t s (s', .waits p w)
  | fails {s' : Session} (m : Moves .plain (some t) s s') (f : Failure)
      (hf : f.isContained → f.isLoading) : Loads t s (s', .ends (.error f))
  | compiles {s' : Session} (m : Moves .plain (some t) s s') (source : Text)
      {r : Session × Progress} (h : Compiles t (s'.record (some t) (.compiling source)) r) :
      Loads t s r

section Loads

variable {s : Session} {t : TaskId}

theorem isLoading_loadingFailure (s : Session) (f : Failure)
    (h : (s.loadingFailure f).isContained) : (s.loadingFailure f).isLoading := by
  unfold loadingFailure at h ⊢
  split_ifs at h ⊢ with hc
  · rfl
  · rw [h] at hc
    exact absurd rfl hc

theorem compiles_compileSource (source : Text) :
    Compiles t (s.record (some t) (.compiling source)) (s.compileSource t source) := by
  unfold compileSource
  dsimp only
  generalize s.record (some t) (.compiling source) = s
  have m : Moves .plain (some t) s (s.worked (some t) (s.host.compiler.compile source
      s.host.bench)).1 :=
    moves_worked _ (precedes_compile _ _ _) (isQuestion_compile _ _ _)
  have hfresh : ∀ r, (s.host.compiler.compile source s.host.bench).result = .ok r →
      ¬ r.IsMade s.host.bench ∧ r.IsMade (s.host.compiler.compile source s.host.bench).bench :=
    fun r => compile_fresh
  have hresult : (s.worked (some t) (s.host.compiler.compile source s.host.bench)).2 =
      (s.host.compiler.compile source s.host.bench).result := rfl
  have hbench : (s.worked (some t) (s.host.compiler.compile source s.host.bench)).1.host.bench =
      (s.host.compiler.compile source s.host.bench).bench := by simp [worked, withHost]
  rw [← hresult, ← hbench] at hfresh
  generalize s.worked (some t) (s.host.compiler.compile source s.host.bench) = q at m hfresh ⊢
  obtain ⟨s', e | r⟩ := q
  · cases e with
    | fault f => exact .fails m _ (isLoading_loadingFailure _ _)
    | blank => exact .fails m _ fun _ => rfl
    | unencodable e => exact .fails m _ fun _ => rfl
  · exact .done m r _ (hfresh r rfl).1 (hfresh r rfl).2

theorem loads_takeReply : Loads t s (s.takeReply t) := by
  unfold takeReply
  dsimp only
  have m : Moves .plain (some t) s (s.withHost { s.host with replies := s.host.replies.next }) :=
    .single (.host s _ (.refl _) (.inr rfl))
  generalize s.withHost { s.host with replies := s.host.replies.next } = s' at m ⊢
  replace m := m.trans (moves_effectIf s'.setup.ownClient (e := .closeClient) rfl)
  split
  · exact .compiles m _ (compiles_compileSource _)
  · exact .fails m _ (isLoading_loadingFailure _ _)

theorem loads_takeFile (source : Except Tree.ReadError Text) : Loads t s (s.takeFile t source) := by
  cases source with
  | ok source => exact .compiles .refl _ (compiles_compileSource source)
  | error e => exact .fails .refl _ fun _ => rfl

theorem Loads.after {s' : Session} {r : Session × Progress} (h : Loads t s' r)
    (m : Moves .plain (some t) s s') : Loads t s r := by
  cases h with
  | waits m' p w => exact .waits (m.trans m') p w
  | fails m' f hf => exact .fails (m.trans m') f hf
  | compiles m' source h => exact .compiles (m.trans m') source h

theorem loads_load : Loads t (s.record (some t) (.fetching s.setup.url)) (s.load t) := by
  unfold load
  dsimp only
  generalize s.record (some t) (.fetching s.setup.url) = s
  split
  · exact .fails .refl _ fun _ => rfl
  · split
    · have m := moves_effectIf (k := .plain) (a := some t) (s := s) s.setup.ownClient
        (e := .openClient) rfl
      refine Loads.after ?_ m
      generalize (if s.setup.ownClient then s.effect (some t) .openClient else s) = s'
      split
      · exact .waits (moves_effect rfl) _ _
      · exact loads_takeReply.after (moves_effect rfl)
    · exact .waits .refl _ _

/-- The turn of a loading: it begins to fetch, or goes on after that. -/
theorem load_turn {task : Task} (turn : Turn s t task) (hr : task.role = .load) :
    ∃ r, s.resume t = r.1.conclude t r.2 ∧ Moves .load (some t) (s.heed t) r.1 ∧
      (task.phase = none ∧
          Loads t ((s.heed t).record (some t) (.fetching s.setup.url)) r ∨
        task.phase.isSome ∧ Loads t (s.heed t) r) := by
  have hf := turn.fits
  have hc := hf.kept hr
  have hkind : ∀ p, task.phase = some p → p.kind = .load := by
    intro p hp
    have hk := hf.phase p hp
    rw [hr] at hk
    simpa [Role.allows] using hk
  have hblock : Block .load t (s.heed t) ((s.heed t).blockOf t task .load) := by
    refine block_blockOf (c := .load) hkind ?_
    intro p load hp hl
    have hk := hkind p hp
    cases p with
    | fetching | reading => cases hl
    | _ => cases hk
  refine ⟨_, resume_single turn (c := .load) (by rw [hr]; rfl), hblock.moves, ?_⟩
  unfold blockOf
  rw [hc]
  cases hp : task.phase with
  | none => exact .inl ⟨rfl, loads_load⟩
  | some p =>
    refine .inr ⟨rfl, ?_⟩
    have hk := hkind p hp
    cases p with
    | fetching => exact loads_takeReply
    | reading source => exact loads_takeFile source
    | _ => cases hk

end Loads

/-! ## What the gateway keeps -/

/-- The runner that is kept was made by the loading that is kept; a loading that is under way is the
one that is kept; and what was compiled and not closed is the runner that is kept, as far as it can
be closed at all. -/
structure Sound (s : Session) : Prop where
  cached : ∀ r, s.runner = some r →
    ∃ load, s.loading = some load ∧ s.outcome? load = some (.ok (.runner r))
  current : ∀ load, s.role? load = some .load → s.hasEnded load = false → s.loading = some load
  compiled : ∀ r, s.runner = some r → r ∈ s.journal.compiled
  made : ∀ r ∈ s.journal.compiled, r.IsMade s.host.bench
  nodup : s.journal.compiled.Nodup
  balance : s.journal.compiled.filter CompiledRunner.isClosable =
    s.journal.closed ++ s.runner.toList.filter CompiledRunner.isClosable

section Sound

variable {s s' : Session} {t : TaskId} {k : Kind} {a : Option TaskId} {ok : Entry → Prop}

/-- While the runner is being loaded there is none. -/
theorem Sound.runner_eq_none (h : Sound s) {load : TaskId} (hl : s.loading = some load)
    (he : s.hasEnded load = false) : s.runner = none := by
  cases hr : s.runner with
  | none => rfl
  | some r =>
    obtain ⟨load', hl', ho⟩ := h.cached r hr
    rw [hl] at hl'
    cases hl'
    simp [hasEnded, ho] at he

/-- A session goes on from a sound one and leaves the gateway alone: loadings neither begin nor end,
and nothing is compiled or closed. -/
theorem Sound.extends (h : Sound s) (hx : Extends ok s s')
    (hok : ∀ e, ok e → (∀ r, e.what ≠ .compiled r) ∧ ∀ r, e.what ≠ .closed r)
    (hrunner : s'.runner = s.runner) (hloading : s'.loading = s.loading)
    (hbench : s.host.bench.Precedes s'.host.bench)
    (hended : ∀ u o, s.outcome? u = some o → s'.outcome? u = some o)
    (hload : ∀ u, s'.role? u = some .load → s'.hasEnded u = false →
      s.role? u = some .load ∧ s.hasEnded u = false) : Sound s' := by
  obtain ⟨-, new, hj, hnew⟩ := hx
  have hcompiled : s'.journal.compiled = s.journal.compiled := by
    rw [hj]
    exact Journal.compiled_append_of_not fun e he => (hok e (hnew e he)).1
  have hclosed : s'.journal.closed = s.journal.closed := by
    rw [hj]
    exact Journal.closed_append_of_not fun e he => (hok e (hnew e he)).2
  refine ⟨?_, ?_, ?_, ?_, by rw [hcompiled]; exact h.nodup, ?_⟩
  · intro r hr
    obtain ⟨load, hl, ho⟩ := h.cached r (hrunner ▸ hr)
    exact ⟨load, hloading.trans hl, hended load _ ho⟩
  · intro load hr he
    obtain ⟨hr', he'⟩ := hload load hr he
    exact hloading.trans (h.current load hr' he')
  · intro r hr
    rw [hcompiled]
    exact h.compiled r (hrunner ▸ hr)
  · intro r hr
    rw [hcompiled] at hr
    exact (h.made r hr).precedes hbench
  · rw [hcompiled, hclosed, hrunner]
    exact h.balance

/-- The same where the tasks are those of before. -/
theorem Sound.congr (h : Sound s) (hx : Extends ok s s')
    (hok : ∀ e, ok e → (∀ r, e.what ≠ .compiled r) ∧ ∀ r, e.what ≠ .closed r)
    (hrunner : s'.runner = s.runner) (hloading : s'.loading = s.loading)
    (hbench : s.host.bench.Precedes s'.host.bench) (hout : ∀ u, s'.outcome? u = s.outcome? u)
    (hrole : ∀ u, s'.role? u = s.role? u) : Sound s' := by
  refine h.extends hx hok hrunner hloading hbench (fun u o ho => (hout u).trans ho) ?_
  intro u hr he
  unfold hasEnded at he ⊢
  rw [← hrole, ← hout]
  exact ⟨hr, he⟩

theorem Sound.record (h : Sound s) {w : Happening} (hc : ∀ r, w ≠ .compiled r)
    (hd : ∀ r, w ≠ .closed r) : Sound (s.record a w) := by
  have hx : Extends (fun e => e = ⟨a, w⟩) s (s.record a w) := .of_concat rfl rfl rfl
  exact h.congr hx (by rintro e rfl; exact ⟨hc, hd⟩) rfl rfl (.refl _) (fun _ => rfl) fun _ => rfl

theorem Sound.spawn (h : Sound s) {role : Role} (hr : role ≠ .load) (due : List Due) :
    Sound (s.spawn role due).1 := by
  have hx : Extends (fun _ => False) s (s.spawn role due).1 := .of_eq rfl rfl
  refine h.extends hx (fun _ he => he.elim) rfl rfl (.refl _) ?_ ?_
  · intro u o ho
    rw [outcome?_spawn]
    exact ho
  · intro u hu he
    rw [hasEnded_spawn] at he
    obtain ⟨task, ht, hrole⟩ := Option.map_eq_some_iff.1 hu
    rcases tasks_spawn_cases ht with ht | ⟨-, rfl⟩
    · exact ⟨by simp [role?, ht, hrole], he⟩
    · exact absurd hrole hr

theorem Sound.withEvent (h : Sound s) {e : Event} : Sound (s.withEvent e) :=
  ⟨h.cached, h.current, h.compiled, h.made, h.nodup, h.balance⟩

theorem Sound.schedule (h : Sound s) : Sound s.schedule.1 := by
  have hs : Sound (s.spawn (.cycle true) [⟨.cycle, false⟩]).1 := h.spawn (by decide) _
  have hp : Sound { (s.spawn (.cycle true) [⟨.cycle, false⟩]).1 with
      pending := s.pending ++ [s.tasks.length] } :=
    ⟨hs.cached, hs.current, hs.compiled, hs.made, hs.nodup, hs.balance⟩
  exact hp.record (by simp) (by simp)

/-- Sharing in the loading begins it if need be. -/
theorem Sound.ensureLoading (h : Sound s) : Sound s.ensureLoading.1 := by
  unfold Session.ensureLoading
  cases hl : s.loading with
  | some load => exact h
  | none =>
    have hnone : s.runner = none := by
      cases hr : s.runner with
      | none => rfl
      | some r =>
        obtain ⟨load, hl', -⟩ := h.cached r hr
        rw [hl] at hl'
        cases hl'
    refine ⟨?_, ?_, h.compiled, h.made, h.nodup, h.balance⟩
    · intro r hr
      exact absurd (hr.symm.trans hnone) nofun
    · intro u hu he
      replace he : s.hasEnded u = false := (hasEnded_spawn s .load _ u).symm.trans he
      obtain ⟨task, ht, hrole⟩ := Option.map_eq_some_iff.1 hu
      rcases tasks_spawn_cases ht with ht | ⟨rfl, -⟩
      · have := h.current u (by simp [role?, ht, hrole]) he
        rw [hl] at this
        cases this
      · rfl

/-- Without a loading under way everything may be forgotten, if the runner is closed. -/
theorem Sound.drop (h : Sound s) (hl : s.isLoading = false) (hrunner : s'.runner = none)
    (hbench : s'.host.bench = s.host.bench)
    (htasks : s'.tasks = s.tasks) (hcompiled : s'.journal.compiled = s.journal.compiled)
    (hclosed : s'.journal.closed =
      s.journal.closed ++ s.runner.toList.filter CompiledRunner.isClosable) : Sound s' := by
  refine ⟨?_, ?_, ?_, ?_, by rw [hcompiled]; exact h.nodup, ?_⟩
  · intro r hr
    rw [hrunner] at hr
    cases hr
  · intro load hr he
    unfold role? at hr
    unfold hasEnded outcome? at he
    rw [htasks] at hr he
    have hload := h.current load hr he
    simp [isLoading, hload, hasEnded, outcome?, he] at hl
  · intro r hr
    rw [hrunner] at hr
    cases hr
  · intro r hr
    rw [hcompiled] at hr
    rw [hbench]
    exact h.made r hr
  · rw [hcompiled, hclosed, hrunner, h.balance]
    simp

theorem Sound.worked (h : Sound s) {α : Type} (w : Worked α)
    (hb : s.host.bench.Precedes w.bench) (he : ∀ e ∈ w.effects, e.isQuestion = false) :
    Sound (s.worked a w).1 := by
  refine h.congr (extends_worked (k := .plain) w he) ?_ ?_ ?_ ?_ ?_ ?_
  · intro e he
    have hof := he.isOf
    constructor <;> intro r hr <;> simp [hr, Happening.isOf] at hof
  all_goals simp [Session.worked, withHost, outcome?, role?, hb]

theorem Sound.reset (h : Sound s) (a : Option TaskId) : Sound (s.reset a).1 := by
  unfold Session.reset
  split_ifs with hl
  · exact h
  · have hl : s.isLoading = false := by simpa using hl
    split
    · next hr =>
      refine h.drop hl rfl rfl rfl ?_ ?_
      · exact Journal.compiled_append_of_not (by simp)
      · rw [hr]
        exact (Journal.closed_append_of_not (by simp)).trans (List.append_nil _).symm
    · next r hr =>
      have hw : Sound (s.worked a (r.close s.host.bench)).1 := h.worked _ (precedes_close _ _)
        (isQuestion_close _ _)
      have hl' : (s.worked a (r.close s.host.bench)).1.isLoading = false := by
        rw [← hl]
        simp [Session.worked, withHost, isLoading, hasEnded, outcome?]
      have hr' : (s.worked a (r.close s.host.bench)).1.runner = some r := by
        simpa [Session.worked, withHost] using hr
      generalize s.worked a (r.close s.host.bench) = q at hw hl' hr' ⊢
      obtain ⟨s', _ | f⟩ := q
      · dsimp only at hw hl' hr' ⊢
        cases hc : r.isClosable with
        | true =>
          refine hw.drop hl' rfl rfl rfl ?_ ?_
          · refine (Journal.compiled_append_of_not (by simp)).trans ?_
            exact Journal.compiled_append_of_not (by simp)
          · refine (Journal.closed_append_of_not (by simp)).trans ?_
            show Journal.closed (s'.journal ++ [⟨a, .closed r⟩]) = _
            rw [Journal.closed_append, hr']
            simp [Journal.closed, hc]
        | false =>
          refine hw.drop hl' rfl rfl rfl ?_ ?_
          · exact Journal.compiled_append_of_not (by simp)
          · rw [hr']
            refine (Journal.closed_append_of_not (by simp)).trans ?_
            simp [hc]
      · exact hw

/-- A move of a task that is no loading. -/
theorem Move.sound (m : Move k a s s') (hk : k ≠ .load) (h : Sound s) : Sound s' := by
  have hsame : ∀ s' : Session, s'.setup = s.setup → s'.journal = s.journal → s'.runner = s.runner →
      s'.loading = s.loading → s.host.bench.Precedes s'.host.bench → s'.tasks = s.tasks →
      Sound s' := by
    intro s' hs hj hr hl hb ht
    have hx : Extends (fun _ => False) s s' := .of_eq hs hj
    refine h.congr hx (fun _ he => he.elim) hr hl hb ?_ ?_
    · intro u
      simp [outcome?, ht]
    · intro u
      simp [role?, ht]
  cases m with
  | mark what hm => exact h.record (by rintro r rfl; cases hm) (by rintro r rfl; cases hm)
  | host host hb _ => exact hsame _ rfl rfl rfl rfl hb rfl
  | notify => exact notify_keeps h (fun _ _ h => h.withEvent) fun _ h => h.schedule
  | stop => exact h.withEvent
  | stage => exact hsame _ rfl rfl rfl rfl (.refl _) rfl
  | listen => exact h.schedule.withEvent
  | want => exact h.spawn (by decide) _
  | join => exact hsame _ rfl rfl rfl rfl (.refl _) rfl
  | queue rules hk =>
    have hq : Sound { s with queue := s.queue ++ Script.parseAll rules } :=
      ⟨h.cached, h.current, h.compiled, h.made, h.nodup, h.balance⟩
    exact hq.record (by simp) (by simp)
  | attach t ha hk => exact h.ensureLoading.record (by simp) (by simp)
  | receive t load ha hk he => exact h.record (by simp) (by simp)
  | compiled r hk' => exact absurd hk' hk
  | reset hk => exact h.reset a

theorem Moves.sound (m : Moves k a s s') (hk : k ≠ .load) (h : Sound s) : Sound s' :=
  m.keep (fun _ _ m h => m.sound hk h) h

/-! ### Turns -/

theorem Sound.modify (h : Sound s) {f : Task → Task} (hrole : ∀ task, (f task).role = task.role)
    (hout : ∀ task, (f task).outcome = task.outcome) : Sound (s.modifyTask t f) := by
  have hx : Extends (fun _ => False) s (s.modifyTask t f) := .of_eq rfl rfl
  exact h.congr hx (fun _ he => he.elim) rfl rfl (.refl _) (fun _ => outcome?_modifyTask hout)
    fun _ => role?_modifyTask hrole

theorem Sound.suspend (h : Sound s) (p : Phase) (w : Wait) (due : List Due) (verdict : Verdict) :
    Sound (s.suspend t p w due verdict) := by
  have hm : Sound (s.modifyTask t fun task => { task with phase := some p, due, verdict }) :=
    h.modify (by simp) (by simp)
  obtain ⟨ready, he⟩ := suspend_eq s t p w due verdict
  rw [he]
  exact ⟨hm.cached, hm.current, hm.compiled, hm.made, hm.nodup, hm.balance⟩

/-- The end of a task that had not ended. -/
theorem Sound.finish (h : Sound s) {task : Task} (ht : s.tasks[t]? = some task)
    (ho : task.outcome = none) (o : Outcome) : Sound (s.finish t o) := by
  have hlive : s.outcome? t = none := by simp [outcome?, ht, ho]
  refine h.extends extends_finish ?_ (by rw [finish_eq]; rfl) (by rw [finish_eq]; rfl)
    (by rw [finish_eq]; rfl) ?_ ?_
  · rintro e ⟨x, rfl⟩
    exact ⟨nofun, nofun⟩
  · intro u o' ho'
    rw [outcome?_finish ht, if_neg, ho']
    rintro rfl
    rw [hlive] at ho'
    cases ho'
  · intro u hr he
    rw [role?_finish] at hr
    unfold hasEnded at he
    rw [outcome?_finish ht] at he
    split_ifs at he
    · cases he
    · exact ⟨hr, he⟩

theorem Moves.compiled_eq (m : Moves k a s s') (hk : k ≠ .load) :
    s'.journal.compiled = s.journal.compiled := by
  obtain ⟨-, new, hj, hnew⟩ := m.extends
  rw [hj]
  refine Journal.compiled_append_of_not fun e he r hr => ?_
  have hof := (hnew e he).isOf
  simp [hr, Happening.isOf, hk] at hof

theorem Moves.loading_eq (m : Moves .plain a s s') : s'.loading = s.loading := by
  induction m with
  | refl => rfl
  | tail _ m ih =>
    refine Eq.trans ?_ ih
    cases m with
    | attach t ha hk => simp at hk
    | receive t load ha hk he => simp at hk
    | reset hk => cases hk
    | notify =>
      exact notify_keeps (P := fun s' => s'.loading = _) rfl (fun _ _ h => h) fun _ h => h
    | mark | host | stop | stage | listen | want | join | queue | compiled => rfl

/-- A loading ends with a new runner, which is kept. -/
theorem Sound.load (h : Sound s) {task : Task} (ht : s.tasks[t]? = some task)
    (ho : task.outcome = none) (hr : task.role = .load) (hl : s.loading = some t)
    {r : CompiledRunner} (hfresh : r ∉ s.journal.compiled) (hmade : r.IsMade s.host.bench)
    (l : Log) :
    Sound ((({ s with runner := some r }.record (some t) (.compiled r)).note (some t) l).finish t
      (.ok (.runner r))) := by
  have hrole : s.role? t = some .load := by simp [role?, ht, hr]
  have hnone : s.runner = none :=
    h.runner_eq_none hl (by simp [hasEnded, outcome?, ht, ho])
  have hf := h.finish ht ho (.ok (.runner r))
  have heq : (({ s with runner := some r }.record (some t) (.compiled r)).note (some t) l).finish t
      (.ok (.runner r)) =
      { s.finish t (.ok (.runner r)) with
        runner := some r
        journal := s.journal ++ [⟨some t, .compiled r⟩] ++ [⟨some t, .log l⟩] } := by
    have hrole' : (({ s with runner := some r }.record (some t) (.compiled r)).note (some t)
        l).role? t = some .load := hrole
    rw [finish_eq, finish_eq, hrole, hrole']
    simp only [List.append_nil]
    rfl
  have hcompiled : Journal.compiled
      (s.journal ++ [⟨some t, .compiled r⟩] ++ [⟨some t, .log l⟩]) = s.journal.compiled ++ [r] := by
    rw [Journal.compiled_append_of_not (by simp), Journal.compiled_append]
    rfl
  have hclosed : Journal.closed
      (s.journal ++ [⟨some t, .compiled r⟩] ++ [⟨some t, .log l⟩]) = s.journal.closed := by
    rw [Journal.closed_append_of_not (by simp), Journal.closed_append_of_not (by simp)]
  rw [heq]
  refine ⟨?_, hf.current, ?_, ?_, ?_, ?_⟩
  · rintro r' ⟨⟩
    refine ⟨t, ?_, (outcome?_finish ht).trans (if_pos rfl)⟩
    rw [finish_eq]
    exact hl
  · rintro r' ⟨⟩
    rw [hcompiled]
    exact List.mem_append_right _ (List.mem_singleton.2 rfl)
  · intro r' hr'
    rw [finish_eq]
    rw [hcompiled] at hr'
    rcases List.mem_append.1 hr' with hr' | hr'
    · exact h.made r' hr'
    · rw [List.mem_singleton.1 hr']
      exact hmade
  · rw [hcompiled]
    exact List.nodup_append.2 ⟨h.nodup, by simp, by rintro x hx y hy rfl; simp_all⟩
  · rw [hcompiled, hclosed, List.filter_append, h.balance, hnone]
    simp

/-- A loading that has its turn is the current one. -/
theorem Sound.loading_of_turn {task : Task} (h : Sound s) (turn : Turn s t task)
    (hr : task.role = .load) : s.loading = some t := by
  refine h.current t (by rw [turn.role?, hr]) ?_
  simp [hasEnded, outcome?, turn.known, turn.live]

/-- The end of a turn of the current loading. -/
theorem Sound.conclude {task : Task} {r : Session × Progress} (h : Sound s)
    (hl : s.loading = some t) (ht : s.tasks[t]? = some task) (hr : task.role = .load)
    (ho : task.outcome = none) (hloads : Loads t s r) : Sound (r.1.conclude t r.2) := by
  cases hloads with
  | waits m p w => exact (m.sound nofun h).suspend p w [] _
  | fails m f hf => exact (m.sound nofun h).finish (m.task ht) ho _
  | @compiles s' m source r hc =>
    have hs' : Sound (s'.record (some t) (.compiling source)) :=
      (m.sound nofun h).record nofun nofun
    have ht' := m.task ht
    have hl' := m.loading_eq.trans hl
    cases hc with
    | fails m' f hf => exact (m'.sound nofun hs').finish (m'.task ht') ho _
    | done m' r l hfresh hmade =>
      refine (m'.sound nofun hs').load (m'.task ht') ho hr (m'.loading_eq.trans hl') ?_ hmade l
      intro hr
      rw [m'.compiled_eq nofun] at hr
      exact hfresh (hs'.made r hr)

/-- The turn of a loading. -/
theorem Sound.resume_load {task : Task} (turn : Turn s t task) (hr : task.role = .load)
    (h : Sound s) : Sound (s.resume t) := by
  have hl := h.loading_of_turn turn hr
  have ht := task_heed turn.known
  have hheed : Sound (s.heed t) := h.modify (by simp) (by simp)
  obtain ⟨r, he, -, ⟨-, hload⟩ | ⟨-, hload⟩⟩ := load_turn turn hr
  · have hrecord : Sound ((s.heed t).record (some t) (.fetching s.setup.url)) :=
      hheed.record nofun nofun
    rw [he]
    exact hrecord.conclude hl ht hr turn.live hload
  · rw [he]
    exact hheed.conclude hl ht hr turn.live hload

theorem Sound.resume_other {task : Task} (turn : Turn s t task) (hr : task.role ≠ .load)
    (h : Sound s) : Sound (s.resume t) := by
  refine resume_of_moves (P := Sound) turn (h.modify (by simp) (by simp)) ?_ ?_ ?_
  · intro k s s' hk m _ hs
    exact m.sound (Role.ne_load_of_allows hr hk) hs
  · exact fun s p w due verdict _ hs => hs.suspend p w due verdict
  · exact fun s o htask hs => hs.finish htask turn.live o

theorem Sound.aside (h : Sound s) (m : Aside s s') : Sound s' := by
  cases m with
  | move m => exact m.sound nofun h
  | spawn role due hf hl => exact h.spawn hl due
  | tell t role hr hl => exact Sound.record (h.modify (by simp) (by simp)) nofun nofun
  | note t l hlt => exact h.record nofun nofun
  | turns => exact ⟨h.cached, h.current, h.compiled, h.made, h.nodup, h.balance⟩

theorem Sound.resume {task : Task} (turn : Turn s t task) (h : Sound s) : Sound (s.resume t) := by
  by_cases hr : task.role = .load
  · exact h.resume_load turn hr
  · exact h.resume_other turn hr

end Sound

theorem sound_of_reachable {s : Session} (h : Reachable s) : Sound s := by
  refine h.keeps ?_ (fun s s' m h => h.aside m) fun s t task turn h => h.resume turn
  intro setup host event
  exact ⟨by simp, by simp [role?], by simp, by simp [Journal.compiled],
    by simp [Journal.compiled], by simp [Journal.compiled, Journal.closed]⟩

/-- A reset that fails changes nothing about the gateway. -/
theorem reset_failed {s : Session} {a : Option TaskId} {f : Failure} (h : (s.reset a).2 = some f) :
    (s.reset a).1.runner = s.runner ∧ (s.reset a).1.loading = s.loading ∧
      (s.reset a).1.tasks = s.tasks := by
  unfold reset at h ⊢
  split_ifs at h ⊢
  · exact ⟨rfl, rfl, rfl⟩
  · cases hr : s.runner with
    | none => simp [hr] at h
    | some r =>
      simp only [hr, worked] at h ⊢
      cases hw : (r.close s.host.bench).result with
      | none => simp [hw] at h
      | some f => simp [withHost, hr]

/-- In every session that can come about: a runner is kept only if the loading that is kept has
ended with that very runner; a loading under way is the one that is kept, and there is no runner
then and no batch can be run; every compiled runner is new, and each is closed at most once; if
every runner can be closed, those compiled and not closed are the one that is kept; a runner is
kept until it is closed; and a reset that fails changes neither the runner nor the loading. -/
theorem gateway_sound {s : Session} (h : Reachable s) :
    (∀ r, s.runner = some r → ∃ load, s.loading = some load ∧ s.role? load = some .load ∧
      s.outcome? load = some (.ok (.runner r))) ∧
    (∀ load, s.role? load = some .load → s.hasEnded load = false →
      s.loading = some load ∧ s.isLoading ∧ s.runner = none ∧
        ∀ t world filters, s.invoke t world filters = .error .notLoaded) ∧
    s.journal.compiled.Nodup ∧ s.journal.closed.Nodup ∧
    ((∀ r ∈ s.journal.compiled, r.isClosable) →
      s.journal.compiled = s.journal.closed ++ s.runner.toList) ∧
    (∀ s' r, Steps s s' → s.runner = some r → r.isClosable →
      s'.runner = some r ∨ r ∈ s'.journal.closed) ∧
    ∀ a f, (s.reset a).2 = some f → (s.reset a).1.runner = s.runner ∧
      (s.reset a).1.loading = s.loading ∧ (s.reset a).1.tasks = s.tasks := by
  have hs := sound_of_reachable h
  have htidy := tidy_of_reachable h
  refine ⟨?_, ?_, hs.nodup, ?_, ?_, ?_, fun a f => reset_failed⟩
  · intro r hr
    obtain ⟨load, hl, ho⟩ := hs.cached r hr
    exact ⟨load, hl, htidy.loads load hl, ho⟩
  · intro load hr he
    have hl := hs.current load hr he
    have hnone := hs.runner_eq_none hl he
    exact ⟨hl, by simp [isLoading, hl, he], hnone, fun _ _ _ => by simp [invoke, hnone]⟩
  · have hn := hs.nodup.filter CompiledRunner.isClosable
    rw [hs.balance] at hn
    exact (List.nodup_append.1 hn).1
  · intro hclose
    have hb := hs.balance
    rw [List.filter_eq_self.2 hclose] at hb
    rw [hb]
    congr 1
    refine List.filter_eq_self.2 fun r hr => hclose r (hs.compiled r ?_)
    simpa using hr
  · intro s' r steps hr hc
    -- the runner is among those that were compiled, also later on
    have hs' := sound_of_reachable (h.steps steps)
    obtain ⟨-, new, hj, -⟩ := Steps.extends h steps
    have hmem : r ∈ s'.journal.compiled.filter CompiledRunner.isClosable := by
      rw [hj, Journal.compiled_append]
      exact List.mem_filter.2 ⟨List.mem_append_left _ (hs.compiled r hr), hc⟩
    rw [hs'.balance] at hmem
    rcases List.mem_append.1 hmem with hmem | hmem
    · exact .inr hmem
    · exact .inl (by simpa using (List.mem_filter.1 hmem).1)

/-- In the small run one runner was compiled, and it is kept. -/
theorem gateway_sound_sampleRun :
    sampleRun.runner = some (.hosted 1 {}) ∧ (∀ r ∈ sampleRun.journal.compiled, r.isClosable) ∧
      sampleRun.journal.compiled = sampleRun.journal.closed ++ sampleRun.runner.toList := by
  have hclose : ∀ r ∈ sampleRun.journal.compiled, r.isClosable := by decide +kernel
  exact ⟨by decide +kernel, hclose, (gateway_sound reachable_sampleRun).2.2.2.2.1 hclose⟩

end Session

end Snippets
