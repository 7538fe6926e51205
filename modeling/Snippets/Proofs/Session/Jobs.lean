import Snippets.Proofs.Session.Steps

/-!
# Jobs first in, first out

`Runs` is the run of a session that takes its jobs in order until a task has ended. The rest of the
module says what some jobs lead to in full: the turns of a task with one call (`perform_begin`,
`perform_continue`), and the blocks of a cycle that queues its rules (`cycle_launches`) and hands a
script its batch (`dispatch_external`, `runBatch_script`).
-/

namespace Snippets

namespace Journal

theorem effects_append (j j' : Journal) : (j ++ j').effects = j.effects ++ j'.effects :=
  List.filterMap_append

/-- What is no effect does not show among the effects. -/
theorem effects_snoc {e : Entry} (h : effects [e] = []) (j : Journal) :
    effects (j ++ [e]) = j.effects := by
  rw [effects_append, h, List.append_nil]

end Journal

namespace Session

/-! ## Jobs in order -/

/-- The first `n` jobs that are done while `t` has not ended lead from `s` to `s'`. -/
inductive Runs (t : TaskId) : Nat → Session → Session → Prop where
  | refl {s : Session} : Runs t 0 s s
  | job {n : Nat} {s s₁ s' : Session} {j : Job} {ready : List Job} (hlive : s.hasEnded t = false)
      (hr : s.ready = j :: ready) (hj : ({ s with ready } : Session).perform j = s₁)
      (h : Runs t n s₁ s') : Runs t (n + 1) s s'

section Runs

variable {s s' s₁ : Session} {t : TaskId} {m n : Nat}

theorem Runs.trans (h : Runs t m s s₁) (h' : Runs t n s₁ s') : Runs t (m + n) s s' := by
  induction h with
  | refl => exact (Nat.zero_add n).symm ▸ h'
  | @job k _ _ _ _ _ hlive hr hj _ ih =>
    rw [Nat.add_right_comm]
    exact .job hlive hr hj (ih h')

theorem Runs.one {j : Job} {ready : List Job} (hlive : s.hasEnded t = false)
    (hr : s.ready = j :: ready) (hj : ({ s with ready } : Session).perform j = s') :
    Runs t 1 s s' :=
  .job hlive hr hj .refl

/-- With enough fuel the run stops where the task has ended. -/
theorem Runs.runWhile (h : Runs t n s s') (he : s'.hasEnded t) :
    ∀ fuel, n ≤ fuel → runWhile (fun s => !s.hasEnded t) fuel s = s' := by
  induction h with
  | refl =>
    intro fuel _
    cases fuel with
    | zero => rfl
    | succ fuel => rw [Session.runWhile, if_neg (by simp [he])]
  | job hlive hr hj _ ih =>
    intro fuel hn
    obtain ⟨fuel, rfl⟩ : ∃ k, fuel = k + 1 := ⟨fuel - 1, by omega⟩
    rw [Session.runWhile, if_pos (by simp [hlive]), hr]
    dsimp only
    rw [hj]
    exact ih he fuel (by omega)

theorem le_fuel (s : Session) : 64 ≤ s.fuel := by
  unfold fuel
  dsimp only
  generalize s.tasks.length + (s.event.registered.length + 1) * (s.emissions + 1) = tasks
  calc 64 = 64 * 1 * 1 := rfl
    _ ≤ 64 * (tasks + 1) * (tasks + 1) :=
      Nat.mul_le_mul (Nat.mul_le_mul_left 64 (Nat.le_add_left 1 tasks)) (Nat.le_add_left 1 tasks)
    _ ≤ s.ready.length + 64 * (tasks + 1) * (tasks + 1) := Nat.le_add_left _ _

theorem Runs.runUntil (h : Runs t n s s') (he : s'.hasEnded t) (hn : n ≤ s.fuel) :
    s.runUntil t = s' :=
  h.runWhile he s.fuel hn

/-- The first turn of a task with one call. -/
theorem perform_begin {k : Role} {c : Call} {r : Session × Progress}
    (ht : s.tasks[t]? = some { role := k, due := [⟨c, false⟩] })
    (hcall : (s.heed t).beginCall t c = r) :
    s.perform (.resume t) = r.1.conclude t r.2 := by
  show s.resume t = _
  unfold resume
  rw [ht]
  show (s.heed t).pursue t (.ok none) [⟨c, false⟩] = _
  unfold pursue
  dsimp only
  rw [hcall]
  obtain ⟨s', p | o⟩ := r
  · rfl
  · dsimp only [conclude]
    rw [pursue, outcome_judge]

/-- A later turn of it. -/
theorem perform_continue {k : Role} {p : Phase} {r : Session × Progress}
    (ht : s.tasks[t]? = some { role := k, phase := some p, due := [] })
    (hcall : (s.heed t).continueCall t p = r) :
    s.perform (.resume t) = r.1.conclude t r.2 := by
  show s.resume t = _
  unfold resume
  rw [ht]
  show Session.proceed ((s.heed t).continueCall t p).1 t _ ((s.heed t).continueCall t p).2 = _
  rw [hcall]
  obtain ⟨s', p | o⟩ := r
  · rfl
  · dsimp only [proceed, conclude]
    rw [pursue, outcome_judge]

end Runs

/-! ## Blocks of a cycle -/

section Blocks

variable {s : Session} {t load : TaskId} {rules : List Value}

theorem queueRules_eq (s : Session) (t : TaskId) (rules : List Value) :
    ∃ j, s.queueRules t rules = { s with
        stage := .gated, queue := s.queue ++ Script.parseAll rules, journal := j } ∧
      j.effects = s.journal.effects := by
  unfold queueRules
  dsimp only
  rw [recordAll_eq]
  refine ⟨_, rfl, ?_⟩
  simp [Journal.effects, List.map_map, withStage]

/-- A cycle that is given rules queues their snippets and waits for the loading. -/
theorem cycle_launches (t : TaskId) (hs : s.stage ≠ .suppressed)
    (hheld : s.host.isHeld .snippets = false) (hrules : s.host.snippets = .ok (.list rules))
    (hl : s.loading = some load) (he : s.hasEnded load = false) :
    ∃ j, s.cycle t = ({ s with
          stage := .gated, queue := s.queue ++ Script.parseAll rules, journal := j },
        .waits (.loading (Script.parseAll rules).length load) (.shared load)) ∧
      j.effects = s.journal.effects ++ [.askSnippets] := by
  obtain ⟨j, hqueue, hj⟩ := queueRules_eq (s.effect (some t) .askSnippets) t rules
  have hattach : ((s.effect (some t) .askSnippets).queueRules t rules).attach t =
      ({ s with
        stage := .gated, queue := s.queue ++ Script.parseAll rules
        journal := j ++ [⟨some t, .attached load⟩] }, load) := by
    rw [hqueue]
    unfold attach ensureLoading
    dsimp only [effect, record]
    rw [hl]
  refine ⟨j ++ [⟨some t, .attached load⟩], ?_, ?_⟩
  · unfold cycle
    rw [if_neg hs]
    dsimp only
    rw [if_neg (by rw [Bool.not_eq_true]; exact hheld)]
    unfold takeRules
    rw [show (s.effect (some t) .askSnippets).host.snippets = .ok (.list rules) from hrules]
    dsimp only [Value.items?]
    rw [hattach]
    dsimp only
    rw [if_neg (by rw [Bool.not_eq_true]; exact he)]
  · rw [Journal.effects_snoc rfl, hj]
    exact Journal.effects_append ..

/-- Without local handlers everything that is queued is external. -/
theorem dispatch_external (hr : s.setup.registry.handlers = []) (t : TaskId) (parsed : Nat)
    (e : Option Text) :
    s.dispatch t parsed e =
      match e with
      | some m => ({ s with stage := .ready }, .ends (.ok (.report
          { status := .completed, parsed, queued := s.queue.length, externals := s.queue
            errors := [m] })))
      | none => ({ s with stage := .ready } : Session).runBatch t
          { status := .completed, parsed, queued := s.queue.length, externals := s.queue } := by
  have hpartition : (s.withStage .ready).partition = ⟨[], s.queue⟩ := by
    have hcontains : ∀ name, s.setup.registry.contains name = false := fun name => by
      simp [Registry.contains, Registry.names, hr]
    simp [partition, Partition.of, withStage, hcontains]
  unfold dispatch
  dsimp only
  rw [hpartition]
  cases e <;> rfl

/-- A script gets the batch in one child process, and the cycle waits for its turn. -/
theorem runBatch_script {r : ScriptRunner} (hr : s.runner = some (.script r)) (t : TaskId)
    (draft : Report) :
    ∃ j, j.effects = s.journal.effects ++
        [r.effect s.setup.world.context (draft.externals.map Snippet.toFilter)] ∧
      s.runBatch t draft =
        ({ s with
            host := { s.host with
              bench := { s.host.bench with processes := s.host.bench.processes.next } }
            journal := j },
          .waits (.dispatched draft (r.conclude s.host.bench.processes.now).2) .turn) := by
  unfold runBatch invoke
  dsimp only [record, note]
  rw [hr]
  dsimp only [worked, CompiledRunner.run, ScriptRunner.run]
  rw [recordAll_eq]
  refine ⟨_, ?_, rfl⟩
  simp [Journal.effects, withHost, List.map_map]

end Blocks

end Session

end Snippets
