import Mathlib.Logic.Relation
import Snippets.Proofs.Session.Accounting
import Snippets.Proofs.Session.Order

/-!
# What a rule source puts into the queue

While the rule source stays the same and answers with a list, every cycle that takes its rules puts
the same snippets at the end of the queue, in the turn in which it takes them (`queue_takeRules`),
and no cycle does so twice. So a cycle that runs alone makes the queue longer by these snippets
(`Solo.queue_eq`), and any number of cycles side by side make it longer by as many copies of them
as cycles have got that far (`SuppliedBy.queue_eq`).
-/

namespace Snippets

namespace Journal

/-- The tasks that put snippets into the queue, in the order in which they did. -/
def queuers (j : Journal) : List TaskId :=
  j.filterMap fun e => if e.what.isQueueing then e.task else none

variable {j : Journal} {t : TaskId} {rules : List Value}

theorem mem_queuers (h : t ∈ j.queuers) : ∃ rules, ⟨some t, .queued rules⟩ ∈ j := by
  obtain ⟨⟨task, what⟩, he, ht⟩ := List.mem_filterMap.1 h
  dsimp only at ht
  split_ifs at ht with hw
  cases what <;> cases hw
  exact ⟨_, ht ▸ he⟩

theorem count_queuers (j : Journal) (t : TaskId) :
    j.queuers.count t = (j.trail t).countP Happening.isQueueing := by
  have hstage : ∀ w : Happening, w.isQueueing → w.isStage := by
    intro w hw
    cases w <;> cases hw
    rfl
  rw [queuers, List.count, List.countP_filterMap, trail, List.countP_filter, List.countP_map, of,
    List.countP_filter]
  refine List.countP_congr fun e _ => ?_
  by_cases hw : e.what.isQueueing
  · cases e.task <;> simp [hw, hstage e.what hw]
  · simp [hw]

/-- If everybody queued the rules `rules`, the queue holds their snippets once for each. -/
theorem queue_of_queued (htask : ∀ e ∈ j, e.what.isQueueing → e.task.isSome)
    (hrules : ∀ e ∈ j, ∀ rs, e.what = .queued rs → rs = rules) :
    j.queue = j.queuers.flatMap fun _ => Script.parseAll rules := by
  induction j with
  | nil => rfl
  | cons e j ih =>
    have hrest := ih (fun e he => htask e (List.mem_cons_of_mem _ he))
      fun e he => hrules e (List.mem_cons_of_mem _ he)
    have hhead := htask e List.mem_cons_self
    have hhead' := hrules e List.mem_cons_self
    obtain ⟨task, what⟩ := e
    by_cases hw : what.isQueueing
    · obtain ⟨t, rfl⟩ := Option.isSome_iff_exists.1 (hhead hw)
      cases what <;> cases hw
      obtain rfl := hhead' _ rfl
      show Script.parseAll _ ++ queue j = Script.parseAll _ ++ (queuers j).flatMap _
      rw [hrest]
    · have hq : queuers (⟨task, what⟩ :: j) = queuers j := by simp [queuers, hw]
      have hnone : queue ([] ++ [⟨task, what⟩]) = [] := queue_append_of_not (by simpa using hw)
      rw [hq, ← hrest]
      show queue ([] ++ [⟨task, what⟩] ++ j) = queue j
      rw [queue_append, hnone, List.nil_append]

end Journal

namespace Session

/-- The rule source is `r`, and it answers. -/
structure Reads (s : Session) (r : RuleSource) : Prop where
  source : s.host.source = r
  answers : s.host.snippetsFault = none

/-- A run in which every step is taken while the rule source is `r`. -/
abbrev SuppliedBy (r : RuleSource) : Session → Session → Prop :=
  Relation.ReflTransGen fun s s' => s.Reads r ∧ Step s s'

/-- A cycle of a snippet runner that is not suppressed, before its first turn. -/
structure Poised (s : Session) (t : TaskId) : Prop where
  reachable : Reachable s
  begins : ∃ task scheduled, s.tasks[t]? = some task ∧ task.role = .cycle scheduled ∧
    task.phase = none ∧ task.outcome = none
  stage : s.stage ≠ .suppressed

/-- What a rule source makes of the queue: the turn in which a cycle takes its rules puts the
snippets at the end; a cycle that runs alone does that and nothing else; and side by side each
cycle does it once, if it comes that far. -/
structure Appends (r : RuleSource) (snippets : List (Snippet Text)) : Prop where
  taking : ∀ (s : Session) (t : TaskId), s.Reads r →
    (s.takeRules t).1.queue = s.queue ++ snippets
  alone : ∀ {s s' : Session} {t : TaskId} {turns : Legs}, s.Poised t → Solo t s turns s' →
    (∀ m, HasTurn turns m → m.Reads r) →
    (s'.reached t ≤ 1 → s'.queue = s.queue) ∧
    (2 ≤ s'.reached t → (∀ f, s'.outcome? t ≠ some (.error f)) → s'.queue = s.queue ++ snippets)
  together : ∀ {s s' : Session}, Reachable s → SuppliedBy r s s' → ∃ new,
    s'.journal = s.journal ++ new ∧ new.queuers.Nodup ∧
    (∀ t ∈ new.queuers, ∃ scheduled, s'.role? t = some (.cycle scheduled)) ∧
    s'.queue = s.queue ++ new.queuers.flatMap fun _ => snippets

variable {s s' m : Session} {t : TaskId} {r : RuleSource} {rules : List Value}

theorem Reads.rules?_eq (h : s.Reads r) : s.host.rules? = r.snippets.items? := by
  rw [Host.rules?, Host.snippets, h.answers, h.source]

/-! ## The turn that takes the rules -/

section Taking

variable {parsed : Nat} {e : Option Text}

theorem queue_reportBatch (s : Session) (t : TaskId) (report : Report) (failure : Option Failure) :
    (s.reportBatch t report failure).1.queue = s.queue := by
  unfold reportBatch
  split
  · rfl
  · split <;> rfl

theorem queue_runBatch (s : Session) (t : TaskId) (report : Report) :
    (s.runBatch t report).1.queue = s.queue := by
  unfold runBatch
  dsimp only
  split
  · exact queue_reportBatch _ t report _
  · next hinvoke => exact ((moves_invoke (k := .plain) hinvoke).queue_stage (by decide)).1

theorem queue_dispatch (s : Session) (t : TaskId) (parsed : Nat) (e : Option Text) :
    (s.dispatch t parsed e).1.queue = s.queue := by
  have hlocals := fun locals => (runLocals_fields (s := s.withStage .ready) (t := t) [] locals).1
  unfold dispatch
  dsimp only
  generalize (s.withStage .ready).partition.locals = locals
  specialize hlocals locals
  generalize (s.withStage .ready).runLocals t [] locals = r at hlocals ⊢
  obtain ⟨s', f | errors⟩ := r
  · exact hlocals
  · cases e with
    | none => exact (queue_runBatch _ t _).trans hlocals
    | some e => exact hlocals

theorem queue_askGate (s : Session) (t : TaskId) (parsed : Nat) (e : Option Text) :
    (s.askGate t parsed e).1.queue = s.queue := by
  unfold askGate takeGate
  dsimp only
  split
  · rfl
  · split
    · split
      · exact queue_dispatch _ t parsed e
      · rfl
    · split <;> rfl

theorem queue_takeLoading (s : Session) (t : TaskId) (parsed : Nat) (load : TaskId) :
    (s.takeLoading t parsed load).1.queue = s.queue := by
  unfold takeLoading
  split
  · next h => exact (queue_askGate _ t parsed none).trans (congrArg (·.1.queue) h).symm
  · next h =>
    have hreceive := (congrArg (·.1.queue) h).symm
    split
    · exact (queue_askGate _ t parsed _).trans hreceive
    · exact hreceive

/-- The snippets of the rules are put at the end of the queue, whatever comes of the turn. -/
theorem queue_takeRules (h : s.host.rules? = some rules) (t : TaskId) :
    (s.takeRules t).1.queue = s.queue ++ Script.parseAll rules := by
  have hqueued : (s.queueRules t rules).queue = s.queue ++ Script.parseAll rules :=
    (scene_queueRules (t := t) (.refl s) rules).2.2.2.1
  have hattach : ((s.queueRules t rules).attach t).1.queue = (s.queueRules t rules).queue :=
    ((Move.attach (k := .get) _ t rfl (.inr rfl)).queue_stage (by decide)).1
  rw [hqueued] at hattach
  unfold Host.rules? at h
  unfold takeRules
  split at h
  · next v hv =>
    rw [hv]
    dsimp only
    rw [h]
    dsimp only
    generalize (s.queueRules t rules).attach t = q at hattach ⊢
    obtain ⟨s', load⟩ := q
    dsimp only
    split
    · exact (queue_takeLoading s' t _ load).trans hattach
    · exact hattach
  · cases h

end Taking

/-! ## A cycle that runs alone -/

section Alone

variable {turns : Legs} {task : Task}

theorem Crosses.hasTurn {i : Nat} (h : Crosses t turns i m) : HasTurn turns m := by
  obtain ⟨m', hm, -⟩ := h
  exact ⟨m', hm⟩

/-- A cycle that has not ended has changed the queue if it is past the rules. -/
theorem Standing.queue_eq {p : Option Phase} (h : Standing t s turns m p)
    (hturns : ∀ m, HasTurn turns m → m.host.rules? = some rules) :
    m.queue = s.queue ∧ (p = none ∨ p = some .rules) ∨
      m.queue = s.queue ++ Script.parseAll rules ∧ ∃ q, p = some q ∧ q ≠ .rules := by
  have hpast : ∀ {m₁ rules'}, Crosses t turns 1 m₁ → m₁.host.rules? = some rules' →
      rules' = rules := by
    intro m₁ rules' h₁ h
    rw [hturns m₁ h₁.hasTurn] at h
    exact (Option.some.inj h).symm
  unfold Standing at h
  split at h
  · exact .inl ⟨h.1, .inl rfl⟩
  · exact .inl ⟨h.1, .inr rfl⟩
  · obtain ⟨m₁, rules', h₁, hrules, -, -, hq, -⟩ := h
    exact .inr ⟨hpast h₁ hrules ▸ hq, _, rfl, nofun⟩
  · obtain ⟨m₁, m₂, rules', h₁, -, hrules, -, -, hq, -⟩ := h
    exact .inr ⟨hpast h₁ hrules ▸ hq, _, rfl, nofun⟩
  · obtain ⟨m₁, m₂, m₃, rules', d, h₁, -, -, hrules, -, -, -, -, hq, -⟩ := h
    exact .inr ⟨hpast h₁ hrules ▸ hq, _, rfl, nofun⟩
  · exact h.elim

theorem reached_le_one_iff (hlive : task.outcome = none) :
    task.reached ≤ 1 ↔ task.phase = none ∨ task.phase = some .rules := by
  rw [Task.reached, hlive]
  cases hp : task.phase with
  | none => simp
  | some p => cases p <;> simp [Progress.reaches]

/-- As long as it has not taken the rules, a cycle that runs alone leaves the queue as it was; from
then on the queue is longer by their snippets. -/
theorem Solo.queue_eq (hs : s.Poised t) (h : Solo t s turns s')
    (hturns : ∀ m, HasTurn turns m → m.host.rules? = some rules) :
    (s'.reached t ≤ 1 → s'.queue = s.queue) ∧
    (2 ≤ s'.reached t → (∀ f, s'.outcome? t ≠ some (.error f)) →
      s'.queue = s.queue ++ Script.parseAll rules) := by
  obtain ⟨task, scheduled, ht, hr, hp, ho⟩ := hs.begins
  obtain ⟨task', hf⟩ := h.followed hs.reachable ht ⟨scheduled, hr⟩ hp ho hs.stage
  have hreached : s'.reached t = task'.reached := by rw [reached, hf.known]; rfl
  have houtcome : s'.outcome? t = task'.outcome := by rw [outcome?, hf.known]; rfl
  rw [hreached, houtcome]
  cases hout : task'.outcome with
  | none =>
    have hiff := reached_le_one_iff hout
    rcases (hf.stands hout).queue_eq hturns with ⟨hq, hphase⟩ | ⟨hq, q, hphase, hq'⟩
    · have hle := hiff.2 hphase
      exact ⟨fun _ => hq, fun hlt => by omega⟩
    · have hnot : ¬task'.reached ≤ 1 := by
        rw [hiff, hphase]
        simpa using hq'
      exact ⟨fun hle => absurd hle hnot, fun _ _ => hq⟩
  | some o =>
    have hfive : task'.reached = 5 := by rw [Task.reached, hout]
    refine ⟨fun hle => by omega, fun _ hok => ?_⟩
    cases o with
    | error f => exact absurd rfl (hok f)
    | ok result =>
      obtain ⟨report, -, m₁, m₂, m₃, h₁, -, -, hd⟩ := hf.ended _ hout
      rw [Determined, hturns m₁ h₁.hasTurn] at hd
      exact hd.1

end Alone

/-! ## Cycles side by side -/

/-- No cycle puts snippets into the queue twice. -/
theorem nodup_queuers (h : Reachable s) : s.journal.queuers.Nodup := by
  have hrec := recorded_of_reachable h
  refine List.nodup_iff_count.2 fun t => ?_
  rw [Journal.count_queuers]
  by_cases hz : (s.journal.trail t).countP Happening.isQueueing = 0
  · omega
  · -- whoever queued is a cycle, which is on its course or has ended
    obtain ⟨w, hw, hq⟩ := List.countP_pos_iff.1 (Nat.pos_of_ne_zero hz)
    obtain ⟨u, scheduled, hu, hr⟩ := hrec.queues _ (Journal.mem_trail.1 hw).1 hq
    cases hu
    obtain ⟨task, ht, hrole⟩ := Option.map_eq_some_iff.1 hr
    cases ho : task.outcome with
    | none => exact (hrec.live t task scheduled ht nofun hrole ho).once_and_owes.1
    | some o => exact (hrec.ended t task scheduled o ht nofun hrole ho).once

/-- Whatever is queued while the rule source is `r` are the rules that it holds. -/
theorem SuppliedBy.extends (hs : Reachable s) (h : SuppliedBy r s s')
    (hr : r.snippets.items? = some rules) :
    Reachable s' ∧ Extends (fun e => ∀ rs, e.what = .queued rs → rs = rules) s s' := by
  induction h with
  | refl => exact ⟨hs, .refl s⟩
  | tail _ step ih =>
    obtain ⟨hreads, step⟩ := step
    obtain ⟨hreach, hx⟩ := ih
    refine ⟨.step hreach step, hx.trans ((step.honest hreach).mono fun e he rs hrs => ?_)⟩
    unfold Honest at he
    rw [hrs] at he
    obtain ⟨v, hv, hitems⟩ := he
    have hrules := hreads.rules?_eq
    rw [Host.rules?, hv, hr] at hrules
    exact Option.some.inj (hitems.symm.trans hrules)

/-- The queue has become longer by the same snippets for each cycle that has taken the rules. -/
theorem SuppliedBy.queue_eq (hs : Reachable s) (h : SuppliedBy r s s')
    (hr : r.snippets.items? = some rules) :
    ∃ new, s'.journal = s.journal ++ new ∧ new.queuers.Nodup ∧
      (∀ t ∈ new.queuers, ∃ scheduled, s'.role? t = some (.cycle scheduled)) ∧
      s'.queue = s.queue ++ new.queuers.flatMap fun _ => Script.parseAll rules := by
  obtain ⟨hs', -, new, hj, hnew⟩ := SuppliedBy.extends hs h hr
  have hqueues := (recorded_of_reachable hs').queues
  have hmem : ∀ e ∈ new, e ∈ s'.journal := fun e he => hj ▸ List.mem_append_right _ he
  have hnodup := nodup_queuers hs'
  rw [hj, Journal.queuers, List.filterMap_append] at hnodup
  refine ⟨new, hj, (List.nodup_append.1 hnodup).2.1, fun t ht => ?_, ?_⟩
  · obtain ⟨rs, he⟩ := Journal.mem_queuers ht
    obtain ⟨u, scheduled, hu, hrole⟩ := hqueues _ (hmem _ he) rfl
    cases hu
    exact ⟨scheduled, hrole⟩
  · rw [(recorded_of_reachable hs').queue, (recorded_of_reachable hs).queue, hj,
      Journal.queue_append]
    refine congrArg _ (Journal.queue_of_queued (fun e he hw => ?_) hnew)
    obtain ⟨t, -, ht, -⟩ := hqueues e (hmem e he) hw
    rw [ht]
    rfl

/-- A rule source that holds a list puts the snippets of its texts into the queue. -/
theorem appends_of_items? (hr : r.snippets.items? = some rules) :
    Appends r (Script.parseAll rules) where
  taking _ t h := queue_takeRules (h.rules?_eq.trans hr) t
  alone hs h hturns := h.queue_eq hs fun m hm => (hturns m hm).rules?_eq.trans hr
  together hs h := SuppliedBy.queue_eq hs h hr

end Session

end Snippets
