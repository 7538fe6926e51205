import Snippets.Proofs.Session.Launch
import Snippets.Proofs.Session.Order

/-!
# Who asks for the rules

Only cycles ask for the rules (`Owned`), and none of them asks twice (`count_askers_le`). The cycles
that were scheduled are just those that exist (`Enlisted`). Once the runner has been started, each
of them asks before it ends unless it is told to give up (`Heeded`). So when all of them have ended,
those who asked are those that were scheduled (`askers_perm_scheduled`).
-/

namespace Snippets

/-! ## Who asked -/

def Happening.isAsk : Happening → Bool
  | .effect e => e = .askSnippets
  | _ => false

theorem Happening.isAsk_iff {w : Happening} : w.isAsk ↔ w = .effect .askSnippets := by
  cases w <;> simp [isAsk]

namespace Journal

/-- The tasks that asked for the rules, in order. -/
def askers (j : Journal) : List TaskId := j.filterMap fun e => if e.what.isAsk then e.task else none

variable {j : Journal} {t : TaskId}

theorem mem_askers : t ∈ j.askers ↔ ⟨some t, .effect .askSnippets⟩ ∈ j := by
  unfold askers
  rw [List.mem_filterMap]
  constructor
  · rintro ⟨⟨task, what⟩, he, ht⟩
    dsimp only at ht
    split_ifs at ht with hw
    rw [ht, Happening.isAsk_iff.1 hw] at he
    exact he
  · exact fun he => ⟨_, he, rfl⟩

/-- Every question was asked by somebody. -/
theorem count_askSnippets (h : ∀ e ∈ j, e.what.isAsk → e.task.isSome) :
    j.effects.count .askSnippets = j.askers.length := by
  induction j with
  | nil => rfl
  | cons e j ih =>
    have hrest := ih fun e he => h e (List.mem_cons_of_mem _ he)
    have hhead := h e List.mem_cons_self
    obtain ⟨task, what⟩ := e
    by_cases hw : what.isAsk
    · obtain ⟨t, rfl⟩ := Option.isSome_iff_exists.1 (hhead hw)
      obtain rfl := Happening.isAsk_iff.1 hw
      show (Effect.askSnippets :: effects j).count .askSnippets = (t :: askers j).length
      simp [hrest]
    · have hask : askers (⟨task, what⟩ :: j) = askers j := by simp [askers, hw]
      rw [hask, ← hrest]
      cases what with
      | effect e =>
        have hne : e ≠ .askSnippets := fun he => hw (by simp [he, Happening.isAsk])
        show (e :: effects j).count .askSnippets = _
        simp [hne]
      | _ => rfl

theorem count_askers (j : Journal) (t : TaskId) :
    j.askers.count t = (j.acts t).countP Happening.isAsk := by
  induction j with
  | nil => rfl
  | cons e j ih =>
    obtain ⟨task, what⟩ := e
    by_cases hw : what.isAsk
    · obtain rfl := Happening.isAsk_iff.1 hw
      by_cases ht : task = some t
      · subst ht
        rw [acts_cons rfl, List.countP_cons, ← ih]
        show (t :: askers j).count t = _
        simp [Happening.isAsk]
      · have hacts : acts (⟨task, .effect .askSnippets⟩ :: j) t = acts j t := by
          simp [acts, of, ht]
        rw [hacts, ← ih]
        cases task with
        | none => rfl
        | some u =>
          show (u :: askers j).count t = _
          exact List.count_cons_of_ne fun hu => ht (congrArg some hu)
    · have hask : askers (⟨task, what⟩ :: j) = askers j := by simp [askers, hw]
      rw [hask, ih]
      show _ = (acts ([⟨task, what⟩] ++ j) t).countP _
      rw [acts_append, List.countP_append]
      have hnone : (acts [⟨task, what⟩] t).countP Happening.isAsk = 0 := by
        refine List.countP_eq_zero.2 fun w hm => ?_
        obtain ⟨he, -⟩ := mem_acts.1 hm
        cases List.mem_singleton.1 he
        exact hw
      omega

end Journal

def Task.IsNew (task : Task) : Prop := task.phase = none ∧ task.outcome = none

namespace Session

section Asks

variable {s : Session} {t : TaskId}

/-- What a cycle has done holds the question for the rules at most once. -/
theorem Left.countP_isAsk {o : Outcome} (h : s.Left t o) :
    (s.journal.acts t).countP Happening.isAsk ≤ 1 := by
  rcases h with ⟨rules, load, o, e, ha, -⟩ | ⟨queue, e, handled, batch, ho, hd, -⟩
  · have hle := ha.sublist.countP_le (p := Happening.isAsk)
    exact hle
  · obtain ⟨rules, load, o, before, after, hj, hb, -, -, hafter⟩ := ho
    have hzero : (handled ++ batch).countP Happening.isAsk = 0 := by
      refine List.countP_eq_zero.2 fun w hw hask => ?_
      obtain rfl := Happening.isAsk_iff.1 hask
      rcases List.mem_append.1 hw with hw | hw
      · rcases hd.handles _ hw with h | h <;> cases h
      · rcases hd.batch with hn | ⟨-, -, runs, hr, hruns⟩
        · simp [hn] at hw
        · rw [hr] at hw
          rcases List.mem_cons.1 hw with hw | hw
          · cases hw
          · cases hruns _ hw
    rw [hj, Journal.acts_append, Journal.acts_cons rfl, hb, hafter, List.countP_append,
      List.countP_cons, hzero]
    exact Nat.le_refl 1

theorem count_askers_le (h : Reachable s) {scheduled : Bool}
    (hr : s.role? t = some (.cycle scheduled)) : s.journal.askers.count t ≤ 1 := by
  rw [Journal.count_askers]
  obtain ⟨task, ht, hrole⟩ := Option.map_eq_some_iff.1 hr
  have hfollows := ordered_of_reachable h t task ht
  cases ho : task.outcome with
  | none => exact ((hfollows.live scheduled hrole ho).left (.ok .nothing)).countP_isAsk
  | some o => exact (hfollows.ended scheduled hrole o ho).countP_isAsk

end Asks

/-- Only cycles ask for the rules. -/
def Owned (s : Session) : Prop :=
  ∀ e ∈ s.journal, e.what.isAsk → ∃ t scheduled, e.task = some t ∧
    s.role? t = some (.cycle scheduled)

section Owned

variable {s s' : Session} {ok : Entry → Prop}

theorem Owned.extends (h : Owned s) (hx : Extends ok s s')
    (hok : ∀ e, ok e → e.what.isAsk → ∃ t scheduled, e.task = some t ∧
      s'.role? t = some (.cycle scheduled))
    (hrole : ∀ u r, s.role? u = some r → s'.role? u = some r) : Owned s' := by
  obtain ⟨-, new, hj, hnew⟩ := hx
  intro e he hw
  rw [hj] at he
  rcases List.mem_append.1 he with he | he
  · obtain ⟨t, scheduled, ht, hr⟩ := h e he hw
    exact ⟨t, scheduled, ht, hrole t _ hr⟩
  · exact hok e (hnew e he) hw

theorem isOf_of_isAsk {k : Kind} {w : Happening} (h : w.isAsk) (hw : w.isOf k) : k = .cycle := by
  obtain rfl := Happening.isAsk_iff.1 h
  simpa [Happening.isOf, Effect.isBy] using hw

theorem Owned.aside (h : Owned s) (m : Aside s s') : Owned s' := by
  cases m with
  | move m =>
    refine h.extends m.extends (fun e he hw => ?_) fun u r => Moves.role? (.single m)
    cases isOf_of_isAsk hw he.isOf
  | spawn role due =>
    have hx : Extends (fun _ => False) s (s.spawn role due).1 := .of_eq rfl rfl
    exact h.extends hx (fun _ => False.elim) fun u r => role?_spawn
  | tell t =>
    have hx : Extends (fun e => e = ⟨some t, .cancelled⟩) s (s.tell t) := .of_concat rfl rfl rfl
    exact h.extends hx (by rintro e rfl ⟨⟩) fun u r => role?_tell
  | note t l =>
    have hx : Extends (fun e => e = ⟨some t, .log l⟩) s (s.note (some t) l) :=
      .of_concat rfl rfl rfl
    exact h.extends hx (by rintro e rfl ⟨⟩) fun u r hr => hr
  | turns => exact h

theorem Owned.resume {t : TaskId} {task : Task} (h : Owned s) (turn : Turn s t task) :
    Owned (s.resume t) := by
  have hx : Extends (fun _ => False) s (s.heed t) := .of_eq rfl rfl
  have hheed : Owned (s.heed t) :=
    h.extends hx (fun _ => False.elim) fun u r hr => (role?_heed u).trans hr
  refine resume_of_moves (P := Owned) turn hheed ?_ ?_ ?_
  · intro k s₁ s₂ hk m ht h₁
    refine h₁.extends m.extends (fun e he hw => ?_) fun u r => m.role?
    obtain rfl := isOf_of_isAsk hw he.isOf
    have hactor : e.task = some t := by
      rcases he.actor with ha | ⟨-, cycle, hc⟩
      · exact ha
      · rw [hc] at hw
        cases hw
    cases hr : task.role with
    | cycle scheduled => exact ⟨t, scheduled, hactor, m.role? (by simp [role?, ht, hr])⟩
    | load | other => simp [hr, Role.allows] at hk
  · exact fun s₁ p w due verdict _ h₁ => h₁.extends extends_suspend (fun _ => False.elim)
      fun u r hr => role?_suspend.trans hr
  · intro s₁ o _ h₁
    refine h₁.extends extends_finish ?_ fun u r hr => role?_finish.trans hr
    rintro e ⟨x, rfl⟩ ⟨⟩

theorem owned_of_reachable (h : Reachable s) : Owned s := by
  refine h.keeps ?_ (fun _ _ m h => h.aside m) fun _ _ _ turn h => h.resume turn
  intro setup host event e he
  cases he

end Owned

/-! ## The cycles that were scheduled -/

/-- The cycles that were scheduled are those that exist. -/
structure Enlisted (s : Session) : Prop where
  nodup : s.journal.scheduled.Nodup
  mem : ∀ t, t ∈ s.journal.scheduled ↔ s.role? t = some (.cycle true)

section Enlisted

variable {s s' : Session} {k : Kind} {a : Option TaskId} {t : TaskId} {role : Role}

theorem Enlisted.same (h : Enlisted s) (hj : s'.journal.scheduled = s.journal.scheduled)
    (hr : ∀ t, s'.role? t = some (.cycle true) ↔ s.role? t = some (.cycle true)) : Enlisted s' := by
  constructor
  · rw [hj]
    exact h.nodup
  · intro t
    rw [hj, h.mem t, hr t]

theorem role?_spawn_iff {due : List Due} {r : Role} :
    (s.spawn role due).1.role? t = some r ↔
      s.role? t = some r ∨ t = s.tasks.length ∧ r = role := by
  constructor
  · intro h
    obtain ⟨task, ht, rfl⟩ := Option.map_eq_some_iff.1 h
    rcases tasks_spawn_cases ht with hold | ⟨hlast, rfl⟩
    · exact .inl (by simp [role?, hold])
    · exact .inr ⟨hlast, rfl⟩
  · rintro (h | ⟨rfl, rfl⟩)
    · exact role?_spawn h
    · exact role?_spawn_self s r due

theorem Enlisted.spawn (h : Enlisted s) (hr : role ≠ .cycle true) (due : List Due) :
    Enlisted (s.spawn role due).1 := by
  refine h.same rfl fun t => ?_
  rw [role?_spawn_iff]
  constructor
  · rintro (ht | ⟨-, hrole⟩)
    · exact ht
    · exact absurd hrole.symm hr
  · exact .inl

theorem Enlisted.schedule (h : Enlisted s) : Enlisted s.schedule.1 := by
  have hj : s.schedule.1.journal.scheduled = s.journal.scheduled ++ [s.tasks.length] := by
    show Journal.scheduled (s.journal ++ [_]) = _
    rw [Journal.scheduled_append]
    rfl
  have hrole : ∀ t, s.schedule.1.role? t = some (.cycle true) ↔
      s.role? t = some (.cycle true) ∨ t = s.tasks.length := by
    intro t
    have hs : s.schedule.1.role? t = (s.spawn (.cycle true) [⟨.cycle, false⟩]).1.role? t := rfl
    rw [hs, role?_spawn_iff]
    simp
  constructor
  · rw [hj, List.nodup_append]
    refine ⟨h.nodup, by simp, ?_⟩
    rintro c hc d hd rfl
    rw [List.mem_singleton.1 hd, h.mem] at hc
    exact Nat.lt_irrefl _ (lt_of_role? hc)
  · intro t
    rw [hj, hrole t, List.mem_append, List.mem_singleton, h.mem t]

theorem Move.enlisted (m : Move k a s s') (h : Enlisted s) : Enlisted s' := by
  have htasks : ∀ s' : Session, Quiet s s' → s'.tasks = s.tasks → Enlisted s' := by
    intro s' hq ht
    refine h.same hq.scheduled fun t => ?_
    unfold role?
    rw [ht]
  cases m with
  | mark what hm =>
    refine htasks _ (quiet_record ?_) rfl
    cases what <;> simp_all [Happening.isMark, Happening.isScheduling]
  | notify => exact notify_keeps h (fun _ _ h => ⟨h.nodup, h.mem⟩) fun _ h => h.schedule
  | listen =>
    have hs := h.schedule
    exact ⟨hs.nodup, hs.mem⟩
  | want => exact h.spawn (by decide) _
  | attach t ha hc =>
    have hensure : Enlisted s.ensureLoading.1 := by
      unfold ensureLoading
      split
      · exact h
      · have hs : Enlisted (s.spawn .load [⟨.load, false⟩]).1 := h.spawn (by decide) _
        exact ⟨hs.nodup, hs.mem⟩
    refine hensure.same (quiet_record rfl).scheduled fun u => Iff.rfl
  | reset => exact htasks _ quiet_reset (reset_fields s a).1
  | queue | receive | compiled => exact htasks _ (quiet_of_concat rfl rfl rfl rfl) rfl
  | host | stop | stage | join => exact h.same rfl fun _ => Iff.rfl

theorem Enlisted.aside (h : Enlisted s) (m : Aside s s') : Enlisted s' := by
  cases m with
  | move m => exact m.enlisted h
  | spawn role due hf hl hc => exact h.spawn hc due
  | tell t role =>
    have hq : Quiet s (s.tell t) := quiet_of_concat rfl rfl rfl rfl
    refine h.same hq.scheduled fun u => ?_
    have hrole : (s.tell t).role? u = s.role? u := role?_modifyTask (by simp)
    rw [hrole]
  | note t l =>
    have hq : Quiet s (s.note (some t) l) := quiet_record rfl
    exact h.same hq.scheduled fun _ => Iff.rfl
  | turns => exact ⟨h.nodup, h.mem⟩

theorem Enlisted.resume {task : Task} (h : Enlisted s) (turn : Turn s t task) :
    Enlisted (s.resume t) := by
  have hheed : Enlisted (s.heed t) := h.same quiet_heed.scheduled fun u => by rw [role?_heed]
  refine resume_of_moves (P := Enlisted) turn hheed ?_ ?_ ?_
  · exact fun k s₁ s₂ _ m _ h₁ => m.keep (fun _ _ m h => m.enlisted h) h₁
  · exact fun s₁ p w due verdict _ h₁ =>
      h₁.same (quiet_suspend p w due verdict).scheduled fun u => by rw [role?_suspend]
  · exact fun s₁ o _ h₁ => h₁.same (quiet_finish o).scheduled fun u => by rw [role?_finish]

theorem enlisted_of_reachable (h : Reachable s) : Enlisted s := by
  refine h.keeps ?_ (fun _ _ m h => h.aside m) fun _ _ _ turn h => h.resume turn
  intro setup host event
  exact ⟨List.nodup_nil, fun t => by simp [Journal.scheduled, role?]⟩

end Enlisted

/-! ## New tasks -/

section New

variable {s s' : Session} {t : TaskId} {task : Task}

theorem Step.role?_eq (h : Reachable s) (step : Step s s') (hlt : t < s.tasks.length) :
    s'.role? t = s.role? t := by
  obtain ⟨r, hr⟩ : ∃ r, s.role? t = some r := ⟨_, by rw [role?, List.getElem?_eq_getElem hlt]; rfl⟩
  rw [hr]
  refine step.keeps (P := fun s => s.role? t = some r) ?_ ?_ (tidy_of_reachable h) hr
  · intro s s' m hr
    cases m with
    | move m => exact Moves.role? (.single m) hr
    | spawn => exact role?_spawn hr
    | tell => exact role?_tell hr
    | note | turns => exact hr
  · intro s u task turn hr
    by_cases he : u = t
    · rw [← he] at hr ⊢
      rw [turn.role?_resume, ← turn.role?]
      exact hr
    · obtain ⟨task', ht, rfl⟩ := Option.map_eq_some_iff.1 hr
      have hsame := turn.spares.tasks t task' (fun hs => he (Option.some.inj hs)) ht
      simp [Session.role?, hsame]

theorem Steps.role?_of_some (h : Reachable s) (steps : Steps s s') {r : Role}
    (hr : s.role? t = some r) : s'.role? t = some r := by
  induction steps with
  | refl => exact hr
  | tail k step ih => exact (step.role?_eq (h.steps k) (lt_of_role? ih)).trans ih

/-- A task that was created in a step has not begun after it. -/
theorem Step.isNew (h : Reachable s) (step : Step s s') (ht : s'.tasks[t]? = some task)
    (hle : s.tasks.length ≤ t) : task.IsNew := by
  rcases step.inv (tidy_of_reachable h) with m | ⟨ready, u, other, turn, rfl⟩
  · clear step
    induction m generalizing task with
    | refl => rw [List.getElem?_eq_none hle] at ht; cases ht
    | @tail s₁ s₂ _ m ih =>
      rcases m.spares with ⟨u, role, -, -, rfl⟩ | hx
      · rcases modifyTask_cases ht with ⟨-, old, hold, rfl⟩ | ⟨-, hold⟩
        · have hnew : old.IsNew := ih hold
          exact hnew
        · exact ih hold
      · rcases hx.cases nofun ht with hs | ⟨-, role, due, rfl⟩
        · exact ih hs
        · exact ⟨rfl, rfl⟩
  · obtain ⟨role, due, rfl⟩ := turn.spares.fresh t task hle ht
    exact ⟨rfl, rfl⟩

end New

/-! ## Every cycle asks -/

/-- A scheduled cycle that has ended has asked for the rules, unless it was told to give up. -/
def Heeded (s : Session) : Prop :=
  ∀ (t : TaskId) (task : Task), s.tasks[t]? = some task → task.role = .cycle true →
    task.outcome ≠ none → ⟨some t, .effect .askSnippets⟩ ∈ s.journal ∨
      ⟨some t, .cancelled⟩ ∈ s.journal

section Heeded

variable {s s' : Session} {t : TaskId} {task : Task} {scheduled : Bool}

theorem extends_conclude (p : Progress) : Extends (fun _ => True) s (s.conclude t p) := by
  cases p with
  | waits p w => exact extends_suspend.mono fun _ _ => trivial
  | ends o => exact extends_finish.mono fun _ _ => trivial

theorem mem_ask_cycle (hs : s.stage ≠ .suppressed) :
    ⟨some t, .effect .askSnippets⟩ ∈ (s.cycle t).1.journal := by
  have hask : ⟨some t, .effect .askSnippets⟩ ∈ (s.effect (some t) .askSnippets).journal :=
    List.mem_append_right _ List.mem_cons_self
  unfold cycle
  rw [if_neg hs]
  dsimp only
  split_ifs
  · exact hask
  · exact block_takeRules.moves.extends.mem hask

/-- A cycle that has begun has asked for the rules. -/
theorem Route.mem_ask {p : Phase} (h : s.Route t (some p)) :
    ⟨some t, .effect .askSnippets⟩ ∈ s.journal := by
  have hacts : ∀ w, w ∈ s.journal.acts t → ⟨some t, w⟩ ∈ s.journal :=
    fun w hw => (Journal.mem_acts.1 hw).1
  cases p with
  | rules =>
    have ha : s.journal.acts t = [.effect .askSnippets] := h
    exact hacts _ (by simp [ha])
  | loading parsed load =>
    obtain ⟨rules, ha⟩ := h
    exact hacts _ (by simp [ha])
  | gate parsed e =>
    obtain ⟨rules, load, o, -, ha⟩ := h
    exact hacts _ (by simp [ha, approach])
  | dispatched r failure =>
    obtain ⟨queue, handled, batch, ⟨rules, load, o, before, after, hj, hb, -⟩, -⟩ := h
    refine hacts _ ?_
    rw [hj, Journal.acts_append, hb]
    simp [approach]
  | _ => cases h

theorem Turn.mem_ask (turn : Turn s t task) (hr : task.role = .cycle scheduled)
    (hs : s.stage ≠ .suppressed) (hc : task.cancelRequested = false)
    (hroute : s.Route t task.phase) :
    ⟨some t, .effect .askSnippets⟩ ∈ (s.resume t).journal := by
  cases hp : task.phase with
  | none =>
    have hblock : (s.heed t).blockOf t task .cycle = (s.heed t).cycle t := by
      unfold blockOf
      rw [hp, hc]
      rfl
    rw [resume_single turn (c := .cycle) (by rw [hr]; rfl), hblock]
    exact (extends_conclude _).mem (mem_ask_cycle hs)
  | some p =>
    rw [hp] at hroute
    exact turn.spares.mem _ hroute.mem_ask

theorem Heeded.spares {who : Option TaskId} (h : Heeded s) (hx : Spares who s s')
    (hwho : ∀ (t : TaskId) (task : Task), who = some t → s'.tasks[t]? = some task →
      task.role = .cycle true → ⟨some t, .effect .askSnippets⟩ ∈ s'.journal ∨
        ⟨some t, .cancelled⟩ ∈ s'.journal) : Heeded s' := by
  intro u task hu hr ho
  by_cases hw : who = some u
  · exact hwho u task hw hu hr
  · rcases hx.cases hw hu with hs | ⟨-, role, due, rfl⟩
    · exact (h u task hs hr ho).imp (hx.mem _) (hx.mem _)
    · exact absurd rfl ho

theorem Heeded.aside (h : Heeded s) (m : Aside s s') : Heeded s' := by
  rcases m.spares with ⟨t, role, hr, -, rfl⟩ | hx
  · refine h.spares (spares_tell (lt_of_role? hr)) ?_
    rintro u new ⟨⟩ - -
    exact .inr (List.mem_append_right _ List.mem_cons_self)
  · exact h.spares hx fun t task hn => absurd hn (by simp)

theorem Heeded.resume (h : Heeded s) (turn : Turn s t task) (hup : s.stage.isUp)
    (hfollows : s.Follows t task) (hpays : s.Pays t task) : Heeded (s.resume t) := by
  refine h.spares turn.spares ?_
  rintro u new ⟨⟩ hu hr
  have hrole : task.role = .cycle true := (role_eq hu turn.role?_resume).symm.trans hr
  cases hc : task.cancelRequested with
  | true => exact .inr (turn.spares.mem _ (hpays.told hc))
  | false =>
    exact .inl (turn.mem_ask hrole (Stage.ne_suppressed_of_isUp hup) hc
      (hfollows.live true hrole turn.live))

theorem Heeded.step (h : Heeded s) (hl : Launched s) (hreach : Reachable s) (step : Step s s') :
    Heeded s' := by
  rcases step.inv (tidy_of_reachable hreach) with m | ⟨ready, t, task, turn, rfl⟩
  · clear step
    induction m with
    | refl => exact h
    | tail _ m ih => exact ih.aside m
  · have hready : Aside s { s with ready } := .turns s s.waiting ready s.pending
    have hrec := recorded_of_reachable hreach
    exact (h.aside hready).resume turn hl.up
      ((ordered_of_reachable hreach).aside hrec hready t task turn.known)
      ((owing_of_reachable hreach).aside hrec hready t task turn.known)

theorem Heeded.steps (h : Heeded s) (hl : Launched s) (hreach : Reachable s) (steps : Steps s s') :
    Heeded s' := by
  induction steps with
  | refl => exact h
  | tail k step ih => exact ih.step (hl.steps hreach k).1 (hreach.steps k) step

/-- When the runner has been started, no cycle has ended that was scheduled. -/
theorem heeded_of_dormant (h : Dormant s) (hreach : Reachable s) (step : Step s s') :
    Heeded s' := by
  intro t task ht hr ho
  have hle : s.tasks.length ≤ t := by
    by_contra hlt
    have hrole : s'.role? t = some (.cycle true) := by simp [role?, ht, hr]
    rw [step.role?_eq hreach (Nat.lt_of_not_le hlt), ← (enlisted_of_reachable hreach).mem t,
      h.scheduled] at hrole
    cases hrole
  exact absurd (step.isNew hreach ht hle).2 ho

/-- A scheduled cycle that has ended without being told to give up has asked for the rules. -/
theorem Heeded.mem_ask {t : TaskId} (h : Heeded s) (hr : s.role? t = some (.cycle true))
    (he : s.hasEnded t) (hc : ⟨some t, .cancelled⟩ ∉ s.journal) :
    ⟨some t, .effect .askSnippets⟩ ∈ s.journal := by
  obtain ⟨task, ht, hrole⟩ := Option.map_eq_some_iff.1 hr
  obtain ⟨task', ht', ho⟩ := hasEnded_iff.1 he
  rw [ht] at ht'
  cases ht'
  exact (h t task ht hrole (Option.isSome_iff_ne_none.1 ho)).resolve_right hc

theorem count_asks (h : Reachable s) :
    s.journal.effects.count .askSnippets = s.journal.askers.length := by
  refine Journal.count_askSnippets fun e he hask => ?_
  obtain ⟨t, -, ht, -⟩ := owned_of_reachable h e he hask
  rw [ht]
  rfl

/-- If only the runner's own cycles were run and all of them have asked for the rules, those who
asked are those that were scheduled. -/
theorem askers_perm_scheduled (h : Reachable s) (hdirect : ∀ t, s.role? t ≠ some (.cycle false))
    (hasked : ∀ t, s.role? t = some (.cycle true) →
      ⟨some t, .effect .askSnippets⟩ ∈ s.journal) :
    s.journal.askers.Perm s.journal.scheduled := by
  have howned : ∀ t ∈ s.journal.askers, s.role? t = some (.cycle true) := by
    intro t ht
    obtain ⟨t', scheduled, he, hr⟩ := owned_of_reachable h _ (Journal.mem_askers.1 ht) rfl
    cases he
    cases scheduled with
    | true => exact hr
    | false => exact absurd hr (hdirect t)
  have hnodup : s.journal.askers.Nodup := by
    refine List.nodup_iff_count.2 fun t => ?_
    by_cases ht : t ∈ s.journal.askers
    · exact count_askers_le h (howned t ht)
    · rw [List.count_eq_zero.2 ht]
      exact Nat.zero_le 1
  have hlisted := enlisted_of_reachable h
  refine (List.perm_ext_iff_of_nodup hnodup hlisted.nodup).2 fun t => ?_
  rw [hlisted.mem t]
  exact ⟨howned t, fun hr => Journal.mem_askers.2 (hasked t hr)⟩

end Heeded

end Session

end Snippets
