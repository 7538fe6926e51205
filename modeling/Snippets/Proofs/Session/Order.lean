import Snippets.Proofs.Session.Acts

/-!
# The order of a cycle

What a cycle does, it does in one order, whatever other cycles do in between and whatever its
collaborators answer (`dispatch_in_order`): it asks for the rules, queues their snippets, learns how
the loading of the external runner ended, asks the feature gate, and only if that opened calls the
handlers of the local snippets in the order of the queue and hands over one batch. Every block of a
cycle leads from one route to the next (`arrives_blockOf`), and takes down what it was answered.
-/

namespace Snippets

namespace Session

/-! ## Blocks of a cycle -/

/-- A block of a cycle brings it to where it waits or ends, and takes down what it was answered. -/
structure Arrives (s₀ : Session) (t : TaskId) (r : Session × Progress) : Prop where
  honest : Extends (fun e => Honest s₀.host e) s₀ r.1
  waits : ∀ p w, r.2 = .waits p w → r.1.Route t (some p)
  ends : ∀ o, r.2 = .ends o → r.1.Left t o

/-- A cycle that began its block in `s₀` has done `acts` and has not been let through the gate. -/
structure Stands (s₀ : Session) (t : TaskId) (acts : List Happening) (s : Session) : Prop where
  acts : s.journal.acts t = acts
  queue : s.queue = s.journal.queue
  host : s.host = s₀.host
  honest : Extends (fun e => Honest s₀.host e) s₀ s

section Blocks

variable {s₀ s s' : Session} {t : TaskId} {acts : List Happening}

theorem arrives_waits {p : Phase} {w : Wait} (hx : Extends (fun e => Honest s₀.host e) s₀ s)
    (h : s.Route t (some p)) : Arrives s₀ t (s, .waits p w) :=
  ⟨hx, by rintro p w ⟨⟩; exact h, nofun⟩

theorem arrives_ends {o : Outcome} (hx : Extends (fun e => Honest s₀.host e) s₀ s)
    (h : s.Left t o) : Arrives s₀ t (s, .ends o) :=
  ⟨hx, nofun, by rintro o ⟨⟩; exact h⟩

theorem Stands.record (h : Stands s₀ t acts s) {w : Happening} (hw : w.isAct)
    (hq : w.isQueueing = false) (hh : Honest s₀.host ⟨some t, w⟩) :
    Stands s₀ t (acts ++ [w]) (s.record (some t) w) := by
  refine ⟨?_, ?_, h.host, h.honest.trans (.of_concat rfl rfl hh)⟩
  · rw [← h.acts]
    exact Journal.acts_concat hw
  · exact h.queue.trans (Journal.queue_append_of_not (by simpa using hq)).symm

theorem Stands.note (h : Stands s₀ t acts s) (l : Log) : Stands s₀ t acts (s.note (some t) l) := by
  refine ⟨?_, ?_, h.host, h.honest.trans (.of_concat rfl rfl trivial)⟩
  · rw [← h.acts]
    exact Journal.acts_append_of_not (by simp [Happening.isAct])
  · exact h.queue.trans (Journal.queue_append_of_not (by simp [Happening.isQueueing])).symm

theorem Stands.queueRules (h : Stands s₀ t acts s) {v : Value} {rules : List Value}
    (hs : s₀.host.snippets = .ok v) (hv : v.items? = some rules) :
    Stands s₀ t (acts ++ [.queued rules]) (s.queueRules t rules) := by
  have hq : (s.queueRules t rules).queue = (s.queueRules t rules).journal.queue :=
    (moves_queueRules rules).queue_eq h.queue
  unfold Session.queueRules at hq ⊢
  extract_lets notes s' at ⊢
  have hnotes : ∀ e ∈ notes.map Happening.log |>.map (Entry.mk (some t)), e.what.isAct = false ∧
      Honest s₀.host e := by
    intro e he
    obtain ⟨w, hw, rfl⟩ := List.mem_map.1 he
    obtain ⟨l, -, rfl⟩ := List.mem_map.1 hw
    exact ⟨rfl, trivial⟩
  have hj : s'.journal = s.journal ++ (notes.map Happening.log).map (Entry.mk (some t)) := by
    show (s.recordAll _ _).journal = _
    rw [recordAll_eq]
  have hx : Extends (fun e => Honest s₀.host e) s s' :=
    ⟨by show (s.recordAll _ _).setup = _; rw [recordAll_eq], _, hj, fun e he => (hnotes e he).2⟩
  refine ⟨?_, hq, ?_, (h.honest.trans hx).trans (.of_concat rfl rfl ⟨v, hs, hv⟩)⟩
  · refine (Journal.acts_concat (j := s'.journal) rfl).trans ?_
    rw [hj, Journal.acts_append_of_not fun e he _ => (hnotes e he).1, h.acts]
  · refine Eq.trans ?_ h.host
    show (s.recordAll _ _).host = _
    rw [recordAll_eq]

theorem Stands.attach (h : Stands s₀ t acts s) :
    Stands s₀ t (acts ++ [.attached (s.attach t).2]) (s.attach t).1 := by
  have hq : (s.attach t).1.queue = (s.attach t).1.journal.queue :=
    Move.queue_eq (k := .cycle) (.attach s t rfl (.inl rfl)) h.queue
  obtain ⟨hs, hj⟩ := setup_ensureLoading s
  have hhost : s.ensureLoading.1.host = s.host := by
    unfold ensureLoading
    split <;> rfl
  refine ⟨?_, hq, hhost.trans h.host, ?_⟩
  · show Journal.acts (s.ensureLoading.1.journal ++ [⟨some t, .attached (s.attach t).2⟩]) t = _
    rw [hj, Journal.acts_concat rfl, h.acts]
  · exact (h.honest.trans (.of_eq hs hj)).trans (.of_concat rfl rfl trivial)

/-- A cycle that has come part of the way can end there. -/
theorem Stands.ends (h : Stands s₀ t acts s) {rules : List Value} {load : TaskId} {o : Outcome}
    {e : Option Text} (ha : acts <+: approach rules load o e ++ [.gateKnown false])
    (ht : .loadingKnown e ∈ acts → Tells o e) (out : Outcome) : Arrives s₀ t (s, .ends out) := by
  refine arrives_ends h.honest (.inl ⟨rules, load, o, e, ?_, ?_⟩)
  · rw [h.acts]
    exact ha
  · rw [h.acts]
    exact ht

/-! ### Dispatching -/

theorem arrives_reportBatch {queue : List (Snippet Text)} {handled batch : List Happening}
    (hx : Extends (fun e => Honest s₀.host e) s₀ s) (ho : s.Opened t queue none (handled ++ batch))
    (hd : Dispatched s.setup.registry queue none handled batch)
    (hc : Complete s.setup.registry queue none handled batch) (r : Report)
    (failure : Option Failure) : Arrives s₀ t (s.reportBatch t r failure) := by
  have hleft : ∀ out, s.Left t out :=
    fun out => .inr ⟨queue, none, handled, batch, ho, hd, fun _ => hc⟩
  unfold reportBatch
  split
  · exact arrives_ends hx (hleft _)
  · split_ifs
    · refine arrives_ends (hx.trans (.of_concat rfl rfl trivial)) ((hleft _).idle ?_)
      exact .of_concat rfl rfl fun _ => rfl
    · exact arrives_ends hx (hleft _)

theorem arrives_runBatch {queue : List (Snippet Text)} {handled : List Happening}
    (hx : Extends (fun e => Honest s₀.host e) s₀ s) (ho : s.Opened t queue none handled)
    (hh : ∀ w ∈ handled, w.isCall ∨ w.isHandling)
    (hc : handled.filter Happening.isCall = localCalls s.setup.registry queue) {r : Report}
    (hr : .batched (r.externals.map Snippet.toFilter) = batchOf s.setup.registry queue) :
    Arrives s₀ t (s.runBatch t r) := by
  have ho' : (s.record (some t) (batchOf s.setup.registry queue)).Opened t queue none
      (handled ++ [batchOf s.setup.registry queue]) := by
    have h : (s.record (some t) (batchOf s.setup.registry queue)).Opened t queue none
        (handled ++ Journal.acts [⟨some t, batchOf s.setup.registry queue⟩] t) := ho.extends rfl
    rwa [Journal.acts_cons rfl] at h
  have hx' : Extends (fun e => Honest s₀.host e) s₀
      (s.record (some t) (batchOf s.setup.registry queue)) :=
    hx.trans (.of_concat rfl rfl trivial)
  have hsetup : (s.record (some t) (batchOf s.setup.registry queue)).setup = s.setup := rfl
  unfold runBatch
  dsimp only
  rw [hr]
  generalize s.record (some t) (batchOf s.setup.registry queue) = s₁ at ho' hx' hsetup ⊢
  have hdone : ∀ runs, (∀ w ∈ runs, w.isRunning) →
      Dispatched s₁.setup.registry queue none handled (batchOf s.setup.registry queue :: runs) ∧
      Complete s₁.setup.registry queue none handled (batchOf s.setup.registry queue :: runs) := by
    intro runs hruns
    rw [hsetup]
    exact ⟨⟨hh, hc ▸ List.prefix_refl _, .inr ⟨rfl, hc, runs, rfl, hruns⟩⟩, hc, fun _ => by simp⟩
  split
  · obtain ⟨hd, hcomplete⟩ := hdone [] (by simp)
    exact arrives_reportBatch hx' ho' hd hcomplete r _
  · next s₂ failure hi =>
    have hrun := deeds_invoke hi
    obtain ⟨hs, new, hj, hnew⟩ := hrun
    obtain ⟨hd, hcomplete⟩ := hdone (new.acts t) (acts_deeds hnew)
    have hx₂ : Extends (fun e => Honest s₀.host e) s₁ s₂ :=
      (deeds_invoke hi).mono fun e he => honest_of_not he.mute
    refine arrives_waits (hx'.trans hx₂) ⟨queue, handled, _, ?_, hs ▸ hd, hs ▸ hcomplete⟩
    have h₂ := ho'.extends hj
    rwa [List.append_assoc] at h₂

theorem arrives_dispatch {rules : List Value} {load : TaskId} {o : Outcome} {e : Option Text}
    (h : Stands s₀ t (approach rules load o e) s) (ht : Tells o e) (hg : s₀.host.gate.opens = true)
    (parsed : Nat) :
    Arrives s₀ t ((s.record (some t) (.gateKnown true)).dispatch t parsed e) := by
  unfold dispatch
  extract_lets s₁ p r
  have hx₁ : Extends (fun e => Honest s₀.host e) s₀ s₁ :=
    h.honest.trans (.of_concat rfl rfl hg.symm)
  have ho : s₁.Opened t s.journal.queue e [] :=
    ⟨rules, load, o, s.journal, [], rfl, h.acts, ht, rfl, rfl⟩
  have hp : p = Partition.of s.setup.registry s.journal.queue := by
    rw [← h.queue]
    rfl
  obtain ⟨new, hc⟩ := carries_runLocals (s := s₁) (t := t) [] p.locals
  have hcalls : p.locals.filterMap s₁.setup.registry.called? =
      localCalls s.setup.registry s.journal.queue := by
    rw [hp]
    rfl
  have hx₂ : Extends (fun e => Honest s₀.host e) s₁ (s₁.runLocals t [] p.locals).1 :=
    ⟨hc.setup, new, hc.journal, fun e he => honest_of_not (hc.deeds e he).mute⟩
  have ho₂ := ho.extends hc.journal
  have hh := acts_deeds hc.deeds
  have hprefix := hc.calls
  have hall := hc.all
  have hbroken := hc.broken
  have hsetup : (s₁.runLocals t [] p.locals).1.setup = s.setup := hc.setup
  rw [hcalls] at hprefix hall
  rw [List.nil_append] at ho₂
  generalize s₁.runLocals t [] p.locals = q at hx₂ ho₂ hall hbroken hsetup ⊢
  obtain ⟨s₂, f | errors⟩ := q
  · -- a failure that cannot be contained breaks off the dispatch
    refine arrives_ends (hx₁.trans hx₂) (.inr ⟨s.journal.queue, e, new.acts t, [], ?_, ?_, ?_⟩)
    · rw [List.append_nil]
      exact ho₂
    · rw [hsetup]
      exact ⟨hh, hprefix, .inl rfl⟩
    · intro hf
      have := hbroken f rfl
      rw [hf f rfl] at this
      cases this
  · dsimp only at hsetup ⊢
    have hdone := hall errors rfl
    cases e with
    | none =>
      refine arrives_runBatch (hx₁.trans hx₂) ho₂ hh (by rw [hsetup]; exact hdone) ?_
      rw [hsetup]
      show Happening.batched (p.externals.map _) = _
      rw [hp]
      rfl
    | some m =>
      refine arrives_ends (hx₁.trans hx₂)
        (.inr ⟨s.journal.queue, some m, new.acts t, [], ?_, ?_, fun _ => ?_⟩)
      · rw [List.append_nil]
        exact ho₂
      · rw [hsetup]
        exact ⟨hh, hprefix, .inl rfl⟩
      · rw [hsetup]
        exact ⟨hdone, nofun⟩

/-! ### The way to the gate -/

theorem arrives_skipDispatch {rules : List Value} {load : TaskId} {o : Outcome} {e : Option Text}
    (h : Stands s₀ t (approach rules load o e) s) (ht : Tells o e)
    (hg : s₀.host.gate.opens = false) (parsed : Nat) :
    Arrives s₀ t (s.skipDispatch t parsed) :=
  ((h.record (w := .gateKnown false) rfl rfl hg.symm).note _).ends (List.prefix_refl _)
    (fun _ => ht) _

theorem arrives_takeGate {rules : List Value} {load : TaskId} {o : Outcome} {e : Option Text}
    (h : Stands s₀ t (approach rules load o e) s) (ht : Tells o e) (parsed : Nat) :
    Arrives s₀ t (s.takeGate t parsed e) := by
  unfold takeGate
  rw [h.host]
  split
  · next v hv =>
    have hopens : s₀.host.gate.opens = v.truthy := by simp [GateAnswer.opens, hv]
    split_ifs with hg
    · exact arrives_dispatch h ht (hopens.trans hg) parsed
    · exact arrives_skipDispatch h ht (hopens.trans (by simpa using hg)) parsed
  · next f hf =>
    have hopens : s₀.host.gate.opens = false := by simp [GateAnswer.opens, hf]
    split_ifs
    · exact arrives_skipDispatch (h.note _) ht hopens parsed
    · exact h.ends (List.prefix_append _ _) (fun _ => ht) _

theorem arrives_askGate {rules : List Value} {load : TaskId} {o : Outcome} {e : Option Text}
    (h : Stands s₀ t [.effect .askSnippets, .queued rules, .attached load, .received load o] s)
    (ht : Tells o e) (parsed : Nat) : Arrives s₀ t (s.askGate t parsed e) := by
  have h' : Stands s₀ t (approach rules load o e)
      ((s.record (some t) (.loadingKnown e)).effect (some t) .askGate) :=
    (h.record (w := .loadingKnown e) rfl rfl trivial).record (w := .effect .askGate) rfl rfl trivial
  unfold askGate
  dsimp only
  split_ifs
  · exact arrives_waits h'.honest ⟨rules, load, o, ht, h'.acts⟩
  · exact arrives_takeGate h' ht parsed

theorem arrives_takeLoading {rules : List Value} {load : TaskId}
    (h : Stands s₀ t [.effect .askSnippets, .queued rules, .attached load] s) (parsed : Nat) :
    Arrives s₀ t (s.takeLoading t parsed load) := by
  have h' : Stands s₀ t
      [.effect .askSnippets, .queued rules, .attached load, .received load (s.outcomeOf load)]
      (s.receive t load).1 := h.record (w := .received load (s.outcomeOf load)) rfl rfl trivial
  have hsnd : (s.receive t load).2 = s.outcomeOf load := rfl
  unfold takeLoading
  generalize s.outcomeOf load = o at h' hsnd
  generalize s.receive t load = q at h' hsnd ⊢
  obtain ⟨s', f | x⟩ := q
  · dsimp only at h' hsnd ⊢
    subst hsnd
    split_ifs with hf
    · exact arrives_askGate h' ⟨hf, rfl⟩ parsed
    · exact h'.ends (e := none) ⟨[.loadingKnown none, .effect .askGate, .gateKnown false], rfl⟩
        (by simp) _
  · dsimp only at h' hsnd ⊢
    subst hsnd
    exact arrives_askGate h' (e := none) rfl parsed

theorem arrives_takeRules (h : Stands s₀ t [.effect .askSnippets] s) :
    Arrives s₀ t (s.takeRules t) := by
  have hends : ∀ {s' : Session} (out : Outcome), Stands s₀ t [.effect .askSnippets] s' →
      Arrives s₀ t (s', .ends out) := by
    intro s' out h
    have ha : [.effect .askSnippets] <+: approach [] 0 (.error .cancelled) none ++
        [.gateKnown false] := List.prefix_append [_] _
    exact h.ends ha (by simp) out
  unfold takeRules
  rw [h.host]
  split
  · split_ifs
    · exact hends _ (h.note _)
    · exact hends _ h
  · next v hv =>
    split
    · exact hends _ (h.note _)
    · next rules hrules =>
      have h' := (h.queueRules hv hrules).attach
      dsimp only
      generalize (s.queueRules t rules).attach t = q at h' ⊢
      obtain ⟨s', load⟩ := q
      dsimp only at h' ⊢
      split_ifs
      · exact arrives_takeLoading h' _
      · exact arrives_waits h'.honest ⟨rules, h'.acts⟩

theorem arrives_cycle (h : Stands s₀ t [] s) : Arrives s₀ t (s.cycle t) := by
  unfold cycle
  split_ifs
  · have ha : [] <+: approach [] 0 (.error .cancelled) none ++ [.gateKnown false] :=
      List.nil_prefix
    exact h.ends ha (by simp) _
  · have h' : Stands s₀ t [.effect .askSnippets] (s.effect (some t) .askSnippets) :=
      h.record (w := .effect .askSnippets) rfl rfl trivial
    dsimp only
    split_ifs
    · exact arrives_waits h'.honest h'.acts
    · exact arrives_takeRules h'

/-- A cycle that waits can end there. -/
theorem Route.left {p : Option Phase} (h : s.Route t p) (out : Outcome) : s.Left t out := by
  have hbarred : ∀ rules load o e, s.journal.acts t <+: approach rules load o e ++
      [.gateKnown false] → (.loadingKnown e ∈ s.journal.acts t → Tells o e) → s.Left t out :=
    fun rules load o e ha ht => .inl ⟨rules, load, o, e, ha, ht⟩
  rcases p with _ | p
  · have ha : s.journal.acts t = [] := h
    exact hbarred [] 0 (.error .cancelled) none (by simp [ha]) (by simp [ha])
  · cases p with
    | rules =>
      have ha : s.journal.acts t = [.effect .askSnippets] := h
      refine hbarred [] 0 (.error .cancelled) none ?_ (by simp [ha])
      rw [ha]
      exact List.prefix_append [_] _
    | loading parsed load =>
      obtain ⟨rules, ha⟩ := h
      refine hbarred rules load (.error .cancelled) none ?_ (by simp [ha])
      rw [ha]
      exact List.prefix_append [_, _, _] _
    | gate parsed e =>
      obtain ⟨rules, load, o, ht, ha⟩ := h
      refine hbarred rules load o e ?_ fun _ => ht
      rw [ha]
      exact List.prefix_append _ _
    | dispatched r failure =>
      obtain ⟨queue, handled, batch, ho, hd, hc⟩ := h
      exact .inr ⟨queue, none, handled, batch, ho, hd, fun _ => hc⟩
    | _ => cases h

/-- Every block of a cycle leads on in its order. -/
theorem arrives_blockOf {task : Task} (h : s.Route t task.phase) (hq : s.queue = s.journal.queue)
    (hkind : ∀ p, task.phase = some p → p.kind = .cycle) :
    Arrives s t (s.blockOf t task .cycle) := by
  have hstands : ∀ acts, s.journal.acts t = acts → Stands s t acts s :=
    fun acts ha => ⟨ha, hq, rfl, .refl s⟩
  cases hc : task.cancelRequested with
  | true =>
    rw [blockOf_cancelled hc hkind]
    exact arrives_ends (.refl s) (h.left _)
  | false =>
    unfold blockOf
    rw [hc]
    cases hp : task.phase with
    | none =>
      rw [hp] at h
      exact arrives_cycle (hstands [] h)
    | some p =>
      rw [hp] at h
      dsimp only
      cases p with
      | rules => exact arrives_takeRules (hstands _ h)
      | loading parsed load =>
        obtain ⟨rules, ha⟩ := h
        exact arrives_takeLoading (hstands _ ha) parsed
      | gate parsed e =>
        obtain ⟨rules, load, o, ht, ha⟩ := h
        exact arrives_takeGate (hstands _ ha) ht parsed
      | dispatched r failure =>
        obtain ⟨queue, handled, batch, ho, hd, hcomplete⟩ := h
        exact arrives_reportBatch (.refl s) ho hd hcomplete r failure
      | _ => cases h

end Blocks

/-! ## Runs -/

/-- What is known of a task: a cycle has done what belongs to its phase or to its end. -/
structure Follows (s : Session) (t : TaskId) (task : Task) : Prop where
  live : ∀ scheduled, task.role = .cycle scheduled → task.outcome = none → s.Route t task.phase
  ended : ∀ scheduled, task.role = .cycle scheduled → ∀ o, task.outcome = some o → s.Left t o

def Ordered (s : Session) : Prop :=
  ∀ (t : TaskId) (task : Task), s.tasks[t]? = some task → s.Follows t task

section Ordered

variable {s s' : Session} {t : TaskId} {task : Task} {scheduled : Bool}

theorem Follows.idle (h : s.Follows t task) (hx : Extends (NoActOf t) s s') :
    s'.Follows t task :=
  ⟨fun c hr ho => (h.live c hr ho).idle hx, fun c hr o ho => (h.ended c hr o ho).idle hx⟩

theorem Recorded.acts_of_le (h : Recorded none s) (ht : s.tasks.length ≤ t) :
    s.journal.acts t = [] := by
  rw [List.eq_nil_iff_forall_not_mem]
  intro w hw
  exact Nat.not_lt.2 ht (h.known _ (Journal.mem_acts.1 hw).1 t rfl)

theorem Ordered.spares {who : Option TaskId} (h : Ordered s) (hrec : Recorded none s)
    (hx : Spares who s s') (hidle : ∀ u, who ≠ some u → Extends (NoActOf u) s s')
    (hwho : ∀ (t : TaskId) (task : Task), who = some t → s'.tasks[t]? = some task →
      s'.Follows t task) : Ordered s' := by
  intro u task hu
  by_cases hw : who = some u
  · exact hwho u task hw hu
  · rcases hx.cases hw hu with hs | ⟨hle, role, due, rfl⟩
    · exact (h u task hs).idle (hidle u hw)
    · refine ⟨fun _ _ _ => ?_, nofun⟩
      exact (hidle u hw).acts_eq.trans (hrec.acts_of_le hle)

theorem Ordered.aside (h : Ordered s) (hrec : Recorded none s) (m : Aside s s') : Ordered s' := by
  have hidle := m.idle
  rcases m.spares with ⟨t, role, hr, -, rfl⟩ | hx
  · refine h.spares hrec (spares_tell (lt_of_role? hr)) (fun u _ => hidle u) ?_
    rintro u new ⟨⟩ hu
    rcases modifyTask_cases hu with ⟨-, old, hold, rfl⟩ | ⟨hne, -⟩
    · have hold' := (h t old hold).idle (hidle t)
      exact ⟨hold'.live, hold'.ended⟩
    · exact absurd rfl hne
  · exact h.spares hrec hx (fun u _ => hidle u) fun t task hn => absurd hn (by simp)

/-- The turn of a cycle is a block that leads on in its order. -/
theorem Turn.arrives (turn : Turn s t task) (hr : task.role = .cycle scheduled)
    (h : s.Route t task.phase) (hq : s.queue = s.journal.queue) :
    ∃ r, s.resume t = r.1.conclude t r.2 ∧ Arrives s t r ∧
      r.1.tasks[t]? = some { task with cancelRequested := false } := by
  have hkind : ∀ p, task.phase = some p → p.kind = .cycle :=
    fun p hp => Role.kind_of_allows (hr ▸ turn.fits.phase p hp)
  have hblock : Block .cycle t (s.heed t) ((s.heed t).blockOf t task .cycle) :=
    block_blockOf (c := .cycle) hkind fun p load => turn.loaded_heed
  have hheed : (s.heed t).Route t task.phase := h.idle (.of_eq rfl rfl)
  have harrives := arrives_blockOf hheed hq hkind
  have hsame : Extends (fun e => Honest s.host e) s (s.heed t) := .of_eq rfl rfl
  exact ⟨_, resume_single turn (c := .cycle) (by rw [hr]; rfl),
    ⟨hsame.trans harrives.honest, harrives.waits, harrives.ends⟩,
    hblock.moves.task (task_heed turn.known)⟩

theorem Ordered.resume_cycle (h : Ordered s) (hrec : Recorded none s) (turn : Turn s t task)
    (hr : task.role = .cycle scheduled) : Ordered (s.resume t) := by
  obtain ⟨⟨s₁, p⟩, he, harrives, htask⟩ :=
    turn.arrives hr ((h t task turn.known).live scheduled hr turn.live) hrec.queue
  refine h.spares hrec turn.spares (fun u hu => turn.idle fun heq => hu (congrArg some heq)) ?_
  rintro u new ⟨⟩
  rw [he]
  cases p with
  | waits p w =>
    have hroute := (harrives.waits p w rfl).idle (idle_suspend (t := t) p w [] (.ok none))
    show (s₁.suspend t p w [] (.ok none)).tasks[t]? = some new → _
    intro hnew
    rw [task_suspend htask] at hnew
    cases hnew
    refine ⟨fun _ _ _ => hroute, fun _ _ o ho => ?_⟩
    cases turn.live.symm.trans ho
  | ends o =>
    have hleft := (harrives.ends o rfl).idle (idle_finish (t := t) o)
    show (s₁.finish t o).tasks[t]? = some new → _
    intro hnew
    rw [task_finish htask] at hnew
    cases hnew
    refine ⟨nofun, fun _ _ o' ho' => ?_⟩
    cases ho'
    exact hleft

theorem Ordered.resume (h : Ordered s) (hrec : Recorded none s) (turn : Turn s t task) :
    Ordered (s.resume t) := by
  cases hr : task.role with
  | cycle scheduled => exact h.resume_cycle hrec turn hr
  | load | other =>
    refine h.spares hrec turn.spares (fun u hu => turn.idle fun heq => hu (congrArg some heq)) ?_
    rintro u new ⟨⟩ hu
    have hrole : new.role = task.role := role_eq hu turn.role?_resume
    exact ⟨fun c hc => by simp [hrole, hr] at hc, fun c hc => by simp [hrole, hr] at hc⟩

end Ordered

theorem ordered_of_reachable {s : Session} (h : Reachable s) : Ordered s := by
  have hboth : Recorded none s ∧ Ordered s := by
    refine Reachable.keeps (P := fun s => Recorded none s ∧ Ordered s) ?_
      (fun s s' m h => ⟨h.1.aside m, h.2.aside h.1 m⟩)
      (fun s t task turn h => ⟨h.1.resume turn, h.2.resume h.1 turn⟩) h
    intro setup host event
    refine ⟨recorded_of_reachable (.new setup host event), ?_⟩
    intro t task ht
    cases ht
  exact hboth.2

/-! ## Answers -/

section Answers

variable {s s' : Session} {t : TaskId} {task : Task} {k : Kind} {a : Option TaskId}

/-- Only a cycle takes down an answer. -/
theorem not_isAnswer_of_isOf {w : Happening} (hk : k ≠ .cycle) (h : w.isOf k) :
    w.isAnswer = false := by
  cases w <;> simp_all [Happening.isOf, Happening.isAnswer]

theorem Moves.mute (m : Moves k a s s') (hk : k ≠ .cycle) :
    Extends (fun e => e.what.isAnswer = false) s s' :=
  m.extends.mono fun _ he => not_isAnswer_of_isOf hk he.isOf

theorem mute_suspend (p : Phase) (w : Wait) (due : List Due) (verdict : Verdict) :
    Extends (fun e => e.what.isAnswer = false) s (s.suspend t p w due verdict) :=
  extends_suspend.mono fun _ he => he.elim

theorem mute_finish (o : Outcome) :
    Extends (fun e => e.what.isAnswer = false) s (s.finish t o) := by
  refine extends_finish.mono ?_
  rintro e ⟨x, rfl⟩
  rfl

theorem Aside.mute (m : Aside s s') : Extends (fun e => e.what.isAnswer = false) s s' := by
  cases m with
  | move m => exact Moves.mute (.single m) (by decide)
  | spawn | turns => exact .of_eq rfl rfl
  | tell | note => exact .of_concat rfl rfl rfl

theorem Asides.mute (m : Asides s s') : Extends (fun e => e.what.isAnswer = false) s s' := by
  induction m with
  | refl => exact .refl s
  | tail _ m ih => exact ih.trans m.mute

theorem Extends.honest (h : Extends (fun e => e.what.isAnswer = false) s s') (host : Host) :
    Extends (fun e => Honest host e) s s' :=
  h.mono fun _ he => honest_of_not he

/-- In its turn a task takes down what the collaborators answer at that time. -/
theorem Turn.honest (turn : Turn s t task) (h : s.Follows t task)
    (hq : s.queue = s.journal.queue) :
    Extends (fun e => Honest s.host e) s (s.resume t) := by
  by_cases hr : ∃ scheduled, task.role = .cycle scheduled
  · obtain ⟨scheduled, hr⟩ := hr
    obtain ⟨⟨s₁, p⟩, he, harrives, -⟩ := turn.arrives hr (h.live scheduled hr turn.live) hq
    rw [he]
    cases p with
    | waits p w => exact harrives.honest.trans ((mute_suspend p w [] _).honest _)
    | ends o => exact harrives.honest.trans ((mute_finish o).honest _)
  · refine Extends.honest ?_ _
    refine resume_of_moves (P := Extends (fun e => e.what.isAnswer = false) s) turn
      (.of_eq rfl rfl) ?_ ?_ ?_
    · exact fun k s₁ s₂ hk m _ h =>
        h.trans (m.mute (Role.ne_cycle_of_allows (fun c hc => hr ⟨c, hc⟩) hk))
    · exact fun s₁ p w due verdict _ h => h.trans (mute_suspend p w due verdict)
    · exact fun s₁ o _ h => h.trans (mute_finish o)

theorem Step.honest (h : Reachable s) (step : Step s s') :
    Extends (fun e => Honest s.host e) s s' := by
  rcases step.inv (tidy_of_reachable h) with m | ⟨ready, t, task, turn, rfl⟩
  · exact m.mute.honest _
  · have hready : Aside s { s with ready } := .turns s s.waiting ready s.pending
    have hfollows := (ordered_of_reachable h).aside (recorded_of_reachable h) hready
    have hsame : Extends (fun e => Honest s.host e) s { s with ready } := .of_eq rfl rfl
    exact hsame.trans (turn.honest (hfollows t task turn.known) (recorded_of_reachable h).queue)

end Answers

/-- In every session that can come about, what each cycle has done is in order, whatever others did
in between. Before the gate has let it through it has asked for the rules, queued them, shared in
the loading of the external runner, learned how that ended and asked the gate, each once and as far
as it has come. Only after that did it call the handlers of the local snippets, in the order of the
queue as it was then, and hand over one batch after the last of them; without an external runner it
handed over none, and called the handlers all the same. Only a failure that cannot be contained
breaks this off. A cycle queued what the rule source answered as a list, was let through if and only
if the gate answered so, and learned what the loading came to. -/
theorem dispatch_in_order {s : Session} (h : Reachable s) :
    (∀ t scheduled, s.role? t = some (.cycle scheduled) →
      s.Barred t ∨ ∃ queue e handled batch, s.Opened t queue e (handled ++ batch) ∧
        Dispatched s.setup.registry queue e handled batch ∧
        ((∀ f, s.outcome? t = some (.error f) → f.isContained) →
          Complete s.setup.registry queue e handled batch)) ∧
    (∀ t load o, ⟨some t, .received load o⟩ ∈ s.journal → s.outcome? load = some o) ∧
    ∀ s', Step s s' → ∃ new, s'.journal = s.journal ++ new ∧ ∀ e ∈ new, Honest s.host e := by
  refine ⟨?_, (told_of_reachable h).received, fun s' step => (step.honest h).journal⟩
  intro t scheduled hrole
  obtain ⟨task, ht, hr⟩ := Option.map_eq_some_iff.1 hrole
  have hfollows := ordered_of_reachable h t task ht
  have hout : s.outcome? t = task.outcome := by simp [outcome?, ht]
  cases ho : task.outcome with
  | none =>
    have hleft : s.Left t (.ok .nothing) := (hfollows.live scheduled hr ho).left _
    rcases hleft with hbarred | ⟨queue, e, handled, batch, hopened, hd, hc⟩
    · exact .inl hbarred
    · exact .inr ⟨queue, e, handled, batch, hopened, hd, fun _ => hc fun _ hf => by cases hf⟩
  | some o =>
    rcases hfollows.ended scheduled hr o ho with
      hbarred | ⟨queue, e, handled, batch, hopened, hd, hc⟩
    · exact .inl hbarred
    · refine .inr ⟨queue, e, handled, batch, hopened, hd, fun hf => hc fun f hof => hf f ?_⟩
      rw [hout, ho, hof]

/-- In the small run the second cycle was let through, called the handler for both its snippets and
handed over the batch. -/
theorem dispatch_in_order_sampleRun :
    ∃ queue e handled batch, sampleRun.Opened 1 queue e (handled ++ batch) ∧
      Complete sampleRun.setup.registry queue e handled batch ∧
      (sampleRun.journal.acts 1).countP Happening.isCall = 2 := by
  have hcalls : (sampleRun.journal.acts 1).countP Happening.isCall = 2 := by decide +kernel
  have hok : (sampleRun.outcome? 1).any Except.isOk := by decide +kernel
  rcases (dispatch_in_order reachable_sampleRun).1 1 false (by decide +kernel) with
    ⟨rules, load, o, e, hprefix, -⟩ | ⟨queue, e, handled, batch, hopened, -, hc⟩
  · have hnone : (sampleRun.journal.acts 1).countP Happening.isCall ≤ 0 := by
      have hle := hprefix.sublist.countP_le (p := Happening.isCall)
      exact hle
    omega
  · refine ⟨queue, e, handled, batch, hopened, hc fun f hf => ?_, hcalls⟩
    rw [hf] at hok
    cases hok

end Session

end Snippets
