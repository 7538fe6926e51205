import Snippets.Proofs.Session.Closing

/-!
# Closing the gateway

Closing waits for the loading that is under way, if there is one, and then resets the gateway.
Unless another loading is under way at that moment it succeeds, and leaves a gateway without a
loading and without a runner, of which every runner that was ever compiled has been closed if it
can be (`close_disposes`). Others may reset the gateway and have the runner loaded anew between the
end of a loading and the moment at which those who waited for it go on, and then closing is
refused (`not_close_disposes`).
-/

namespace Snippets.Session

/-- The gateway is empty, no loading is under way, and of all runners that were compiled those that
can be closed have been closed. -/
structure Disposed (s : Session) : Prop where
  loading : s.loading = none
  idle : ∀ load, s.role? load = some .load → s.hasEnded load
  runner : s.runner = none
  closed : s.journal.closed = s.journal.compiled.filter CompiledRunner.isClosable

/-- The runner that is kept, if there is one, does not fail when it is closed. -/
def Closable (s : Session) : Prop :=
  ∀ r, s.runner = some r → (r.close s.host.bench).result = none

section Disposed

variable {s u : Session} {t load : TaskId} {before after : List Job}

theorem disposed_of_empty (h : Sound s) (hl : s.loading = none) (hr : s.runner = none) :
    Disposed s := by
  refine ⟨hl, fun load hload => ?_, hr, ?_⟩
  · by_contra he
    have hcurrent := h.current load hload (by simpa using he)
    rw [hl] at hcurrent
    cases hcurrent
  · have hbalance := h.balance
    rw [hr] at hbalance
    simpa using hbalance.symm

/-- A reset succeeds unless the runner is being loaded or its closing fails. -/
theorem reset_succeeds {a : Option TaskId} (hl : s.isLoading = false) (hc : s.Closable) :
    (s.reset a).2 = none := by
  unfold reset
  rw [if_neg (by simp [hl])]
  cases hr : s.runner with
  | none => rfl
  | some r =>
    have hresult : (s.worked a (r.close s.host.bench)).2 = none := hc r hr
    dsimp only
    generalize s.worked a (r.close s.host.bench) = w at hresult ⊢
    obtain ⟨s', f⟩ := w
    cases hresult
    rfl

theorem resetNow_disposes (h : Sound s) (hl : s.isLoading = false) (hc : s.Closable) :
    (s.resetNow t).2 = .ends (.ok .nothing) ∧ Disposed (s.resetNow t).1 := by
  have hreset := reset_succeeds (a := some t) hl hc
  have hsound := h.reset (some t)
  obtain ⟨hloading, hrunner⟩ := reset_succeeded hreset
  unfold resetNow
  generalize s.reset (some t) = r at hreset hsound hloading hrunner ⊢
  obtain ⟨s', f⟩ := r
  cases hreset
  exact ⟨rfl, disposed_of_empty hsound hloading hrunner⟩

theorem isLoading_eq_false_iff :
    s.isLoading = false ↔ ∀ load, s.loading = some load → s.hasEnded load := by
  unfold isLoading
  cases s.loading <;> simp

/-- Closing resets the gateway at once, or waits for the loading that is under way. -/
theorem close_eq (s : Session) (t : TaskId) :
    s.isLoading = false ∧ s.close t = s.resetNow t ∨
      ∃ load, s.loading = some load ∧ s.hasEnded load = false ∧
        s.close t = (s, .waits (.closing load) (.shared load)) := by
  unfold close isLoading
  cases hl : s.loading with
  | none => exact .inl ⟨rfl, rfl⟩
  | some load =>
    cases he : s.hasEnded load with
    | true => exact .inl ⟨by simp [he], by simp [he]⟩
    | false => exact .inr ⟨load, rfl, he, by simp [he]⟩

/-- A failure to load is none to close. -/
theorem closeAfter_eq (he : s.hasEnded load)
    (hf : ∀ f, s.outcome? load = some (.error f) → f.isLoading) :
    s.closeAfter t load = s.resetNow t := by
  obtain ⟨o, ho⟩ := Option.isSome_iff_exists.1 he
  have houtcome : s.outcomeOf load = o := by simp [outcomeOf, ho]
  unfold closeAfter
  rw [houtcome]
  cases o with
  | ok r => rfl
  | error f => exact if_pos (hf f ho)

/-- A task that is no loading leaves the gateway sound all through its turn. -/
theorem Amid.sound {task : Task} (hu : Amid s t u) (turn : Turn s t task) (hr : task.role ≠ .load)
    (h : Sound s) : Sound u :=
  hu.of_moves turn (h.modify (by simp) (by simp))
    fun _ _ _ hk m hs => m.sound (Role.ne_load_of_allows hr hk) hs

end Disposed

/-- Closing the gateway, whatever else is done with it. Let a task begin to close it at any point of
its turn, and let the runner not fail when it is closed. If no loading is under way, it returns and
the gateway is disposed of; else it waits for that loading. As soon as the loading has ended, the
task is told of it. When it goes on, the loading has ended; and unless that failed with something
else than a failure to load, or another loading is under way by then, it returns and the gateway is
disposed of. -/
theorem close_disposes {s : Session} (h : Reachable s) :
    (∀ before t after u, s.ready = before ++ .resume t :: after → s.role? t = some .other →
      Amid { s with ready := before ++ after } t u → u.Closable →
      (u.isLoading = false → (u.beginCall t .close).2 = .ends (.ok .nothing) ∧
        Disposed (u.beginCall t .close).1) ∧
      (u.isLoading → ∃ load, u.loading = some load ∧
        u.beginCall t .close = (u, .waits (.closing load) (.shared load)))) ∧
    (∀ t load, (t, .shared load) ∈ s.waiting → s.hasEnded load → .relay t ∈ s.ready) ∧
    ∀ before t after (task : Task) load u, s.ready = before ++ .resume t :: after →
      s.tasks[t]? = some task → task.phase = some (.closing load) →
      task.cancelRequested = false → u = { s with ready := before ++ after }.heed t →
      u.hasEnded load ∧
      ((∀ f, u.outcome? load = some (.error f) → f.isLoading) →
        (∀ other, u.loading = some other → other ≠ load → u.hasEnded other) → u.Closable →
        (u.continueCall t (.closing load)).2 = .ends (.ok .nothing) ∧
          Disposed (u.continueCall t (.closing load)).1) := by
  have hsound := sound_of_reachable h
  have htidy := tidy_of_reachable h
  refine ⟨?_, htidy.relays, ?_⟩
  · intro before t after u hr hrole hu hclose
    obtain ⟨task, turn⟩ := htidy.turn hr
    have hother : task.role ≠ .load := by
      rw [role_eq turn.known hrole]
      nofun
    have hs : Sound u := hu.sound turn hother
      (hsound.aside (.turns s s.waiting (before ++ after) s.pending))
    show (_ → (u.close t).2 = _ ∧ Disposed (u.close t).1) ∧ (_ → ∃ load, _ ∧ u.close t = _)
    rcases close_eq u t with ⟨hl, he⟩ | ⟨load, hl, hend, he⟩
    · rw [he]
      exact ⟨fun _ => resetNow_disposes hs hl hclose, fun hn => by simp [hl] at hn⟩
    · refine ⟨fun hn => ?_, fun _ => ⟨load, hl, he⟩⟩
      have := isLoading_eq_false_iff.1 hn load hl
      simp [hend] at this
  · rintro before t after task load u hr ht hp hc rfl
    obtain ⟨task', turn⟩ := htidy.turn hr
    obtain rfl : task' = task := Option.some.inj (turn.known.symm.trans ht)
    have hend := turn.loaded_heed hp rfl hc
    have hs : Sound (({ s with ready := before ++ after } : Session).heed t) :=
      (hsound.aside (.turns s s.waiting (before ++ after) s.pending)).modify (by simp) (by simp)
    refine ⟨hend, fun hf hothers hclose => ?_⟩
    have hl : (({ s with ready := before ++ after } : Session).heed t).isLoading = false := by
      refine isLoading_eq_false_iff.2 fun other ho => ?_
      by_cases he : other = load
      · exact he ▸ hend
      · exact hothers other ho he
    show (Session.closeAfter _ t load).2 = _ ∧ Disposed (Session.closeAfter _ t load).1
    rw [closeAfter_eq hend hf]
    exact resetNow_disposes hs hl hclose

/-! ## A runner that is loaded while the gateway is closed -/

/-- The small session with the built-in compiler while the external runner is being fetched, and a
task that is to close the gateway. -/
def sampleFetching : Session :=
  (sample.acts [.arrange (.compiler (.script {})), .hold .fetch,
    .spawn .other [⟨.get, false⟩]]).settle.acts [.spawn .other [⟨.close, false⟩]]

/-- The runner has arrived, and the task that waits to close the gateway is about to go on. -/
def sampleArrived : Session :=
  runWhile (fun s => s.ready.head? != some (.resume 2)) 20
    (sampleFetching.settle.acts [.release .fetch])

/-- When the runner arrives another task closes the gateway and asks for the runner again, which has
to be fetched once more then. -/
def sampleRefetching : Session :=
  (sampleFetching.settle.acts [.release .fetch, .hold .fetch,
    .spawn .other [⟨.close, false⟩, ⟨.get, false⟩]]).settle

/-- The small session with a runner that cannot be closed, and a task that is to close the
gateway. -/
def sampleUnclosable : Session :=
  (sample.acts [.arrange (.compiler (.hosted { closing := .absent })),
    .spawn .other [⟨.get, false⟩]]).settle.acts [.spawn .other [⟨.close, false⟩]]

theorem reachable_sampleFetching : Reachable sampleFetching := by
  have hnew : Reachable sample := .new sample.setup sample.host {}
  refine (hnew.steps (steps_acts ?_ _)).steps (steps_settled_acts ?_ _) <;>
    simp [admits, Call.isOpen]

theorem reachable_sampleArrived : Reachable sampleArrived :=
  (reachable_sampleFetching.steps (steps_settled_acts (by simp [admits]) _)).steps
    (steps_runWhile _ _ _)

theorem close_disposes_sampleArrived :
    sampleArrived.runner.isSome ∧
      ((({ sampleArrived with ready := [.settled 0] } : Session).heed 2).continueCall 2
        (.closing 1)).2 = .ends (.ok .nothing) ∧
      Disposed ((({ sampleArrived with ready := [.settled 0] } : Session).heed 2).continueCall 2
        (.closing 1)).1 := by
  have htask : sampleArrived.tasks[2]? = some { phase := some (.closing 1), due := [] } := rfl
  have hready : sampleArrived.ready = [] ++ .resume 2 :: [.settled 0] := by decide +kernel
  have hload : sampleArrived.outcome? 1 = some (.ok (.runner (.script ⟨0, {}⟩))) := by
    decide +kernel
  have hloading : sampleArrived.loading = some 1 := by decide +kernel
  have hrunner : sampleArrived.runner = some (.script ⟨0, {}⟩) := by decide +kernel
  obtain ⟨-, hcloses⟩ := (close_disposes reachable_sampleArrived).2.2 [] 2 [.settled 0] _ 1 _
    hready htask rfl rfl rfl
  refine ⟨by rw [hrunner]; rfl, hcloses ?_ ?_ ?_⟩
  · intro f hf
    have hout : (({ sampleArrived with ready := [.settled 0] } : Session).heed 2).outcome? 1 =
        sampleArrived.outcome? 1 := outcome?_modifyTask (by simp)
    cases (hout.symm.trans hf).symm.trans hload
  · intro other ho hne
    exact absurd (Option.some.inj (hloading.symm.trans ho)).symm hne
  · intro r hr
    cases hrunner.symm.trans hr
    rfl

/-- Whether every loading that has ended has loaded the runner or failed to load it. -/
def loadsWell (s : Session) : Bool :=
  s.tasks.all fun task =>
    match task.role, task.outcome with
    | .load, some (.error f) => f.isLoading
    | _, _ => true

/-- No runner that was compiled ever fails when it is closed. -/
def ClosesWell (s : Session) : Prop := ∀ r ∈ s.journal.compiled, ∀ b, (r.close b).result = none

/-- A task that waits to close the gateway is refused if others reset the gateway and ask for the
runner between the end of the loading and its own turn; and a runner that cannot be closed is not
closed, although closing the gateway has returned. -/
theorem not_close_disposes :
    (¬ ∀ (s s' : Session) (t : TaskId), Reachable s →
      s.tasks[t]? = some { due := [⟨.close, false⟩] } → Steps s s' → s'.loadsWell →
      s'.ClosesWell → s'.outcome? t ≠ some (.error .stillLoading)) ∧
    ¬ ∀ (s s' : Session) (t : TaskId), Reachable s →
      s.tasks[t]? = some { due := [⟨.close, false⟩] } → Step s s' → s'.loadsWell →
      s'.ClosesWell → s'.outcome? t = some (.ok .nothing) →
      ∀ r ∈ s'.journal.compiled, r ∈ s'.journal.closed := by
  constructor
  · intro h
    have steps : Steps sampleFetching sampleRefetching :=
      (steps_settled_acts (by simp [admits, Call.isOpen]) _).trans (steps_settle _)
    have hcompiled : sampleRefetching.journal.compiled = [.script ⟨0, {}⟩] := by decide +kernel
    refine h sampleFetching sampleRefetching 2 reachable_sampleFetching rfl steps
      (by decide +kernel) (fun r hr b => ?_) (by decide +kernel)
    rw [hcompiled] at hr
    cases List.mem_singleton.1 hr
    rfl
  · intro h
    have hreach : Reachable sampleUnclosable := by
      have hnew : Reachable sample := .new sample.setup sample.host {}
      refine (hnew.steps (steps_acts ?_ _)).steps (steps_settled_acts ?_ _) <;>
        simp [admits, Call.isOpen]
    have step : Step sampleUnclosable
        (({ sampleUnclosable with ready := [] } : Session).perform (.resume 2)) :=
      .perform sampleUnclosable [] (.resume 2) [] (by decide +kernel)
    have hcompiled : (({ sampleUnclosable with ready := [] } : Session).perform
        (.resume 2)).journal.compiled = [.hosted 1 { closing := .absent }] := by decide +kernel
    have hclosed := h sampleUnclosable _ 2 hreach rfl step (by decide +kernel) (fun r hr b => ?_)
      (by decide +kernel) (.hosted 1 { closing := .absent }) (by rw [hcompiled]; simp)
    · exact absurd hclosed (by decide +kernel)
    · rw [hcompiled] at hr
      cases List.mem_singleton.1 hr
      rfl

end Snippets.Session
