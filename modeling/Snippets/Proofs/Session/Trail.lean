import Snippets.Proofs.Session.Steps

/-!
# Trails

The journal only grows. `Extends` says of two sessions that the journal of the second continues
that of the first with entries of a certain sort, and `Move.extends` says of which sort they are
for each kind of block. What a task went through is its trail, to which others add nothing.
-/

namespace Snippets

/-! ## Reading the journal -/

/-- The steps by which a task gets ahead, which are its trail. -/
def Happening.isStage : Happening → Bool
  | .queued _ | .attached _ | .received _ _ | .loadingKnown _ | .gateKnown _ | .called _ _
  | .batched _ | .reported _ => true
  | _ => false

def Happening.isQueueing : Happening → Bool
  | .queued _ => true
  | _ => false

/-- What a block of a kind can leave in the journal. -/
def Happening.isOf (k : Kind) : Happening → Bool
  | .effect e => e.isBy k
  | .log _ | .scheduled _ => true
  | .queued _ | .loadingKnown _ | .gateKnown _ | .called _ _ | .batched _ => k = .cycle
  | .attached _ | .received _ _ => k = .cycle ∨ k = .get
  | .fetching _ | .compiling _ | .compiled _ => k = .load
  | .closed _ | .reset => k = .close
  | .reported _ | .cancelled => false

namespace Journal

/-- Everything that was queued, in order. -/
def queue (j : Journal) : List (Snippet Text) :=
  j.flatMap fun e =>
    match e.what with
    | .queued rules => Script.parseAll rules
    | _ => []

/-- What a task went through, in order. -/
def trail (j : Journal) (t : TaskId) : List Happening :=
  ((j.of t).map Entry.what).filter Happening.isStage

variable {j new : Journal} {t : TaskId}

theorem queue_append (j new : Journal) : (j ++ new).queue = j.queue ++ new.queue :=
  List.flatMap_append

theorem queue_append_of_not (h : ∀ e ∈ new, e.what.isQueueing = false) :
    (j ++ new).queue = j.queue := by
  have hnew : new.queue = [] := by
    refine List.flatMap_eq_nil_iff.2 fun e he => ?_
    have := h e he
    split
    · next hw =>
      rw [hw] at this
      cases this
    · rfl
  rw [queue_append, hnew, List.append_nil]

theorem trail_append (j new : Journal) (t : TaskId) :
    (j ++ new).trail t = j.trail t ++ new.trail t := by
  simp [trail, of, List.filter_append]

/-- Nothing is added to a trail by others, nor by what is no stage. -/
theorem trail_append_of_not (h : ∀ e ∈ new, e.task = some t → e.what.isStage = false) :
    (j ++ new).trail t = j.trail t := by
  have hnew : new.trail t = [] := by
    simp only [trail, of, List.filter_eq_nil_iff, List.mem_map, List.mem_filter]
    rintro w ⟨e, ⟨he, ht⟩, rfl⟩
    simp [h e he (by simpa using ht)]
  rw [trail_append, hnew, List.append_nil]

theorem trail_concat {w : Happening} (hw : w.isStage) :
    trail (j ++ [⟨some t, w⟩]) t = j.trail t ++ [w] := by
  rw [trail_append]
  simp [trail, of, hw]

theorem mem_trail {w : Happening} : w ∈ j.trail t ↔ ⟨some t, w⟩ ∈ j ∧ w.isStage := by
  simp only [trail, of, List.mem_filter, List.mem_map]
  constructor
  · rintro ⟨⟨⟨task, what⟩, ⟨he, ht⟩, rfl⟩, hw⟩
    have ht : task = some t := by simpa using ht
    rw [← ht]
    exact ⟨he, hw⟩
  · rintro ⟨he, hw⟩
    exact ⟨⟨_, ⟨he, by simp⟩, rfl⟩, hw⟩

end Journal

namespace Session

/-! ## Growing -/

/-- A session that goes on from another, where only entries of a sort were made since. -/
structure Extends (ok : Entry → Prop) (s s' : Session) : Prop where
  setup : s'.setup = s.setup
  journal : ∃ new, s'.journal = s.journal ++ new ∧ ∀ e ∈ new, ok e

/-- The entries that a block of kind `k` of `a` makes. -/
structure IsEntryOf (k : Kind) (a : Option TaskId) (e : Entry) : Prop where
  actor : e.task = a ∨ e.task = none ∧ ∃ cycle, e.what = .scheduled cycle
  isOf : e.what.isOf k

section Extends

variable {s s' s'' : Session} {ok ok' : Entry → Prop} {t : TaskId}

theorem Extends.refl (s : Session) : Extends ok s s := ⟨rfl, [], by simp, by simp⟩

theorem Extends.trans (h : Extends ok s s') (h' : Extends ok s' s'') : Extends ok s s'' := by
  obtain ⟨hs, new, hj, hok⟩ := h
  obtain ⟨hs', new', hj', hok'⟩ := h'
  refine ⟨hs'.trans hs, new ++ new', by rw [hj', hj, List.append_assoc], ?_⟩
  intro e he
  rcases List.mem_append.1 he with he | he
  · exact hok e he
  · exact hok' e he

theorem Extends.mono (h : Extends ok s s') (himp : ∀ e, ok e → ok' e) : Extends ok' s s' := by
  obtain ⟨hs, new, hj, hok⟩ := h
  exact ⟨hs, new, hj, fun e he => himp e (hok e he)⟩

theorem Extends.of_eq (hs : s'.setup = s.setup) (hj : s'.journal = s.journal) : Extends ok s s' :=
  ⟨hs, [], by simp [hj], by simp⟩

theorem Extends.of_concat (hs : s'.setup = s.setup) {e : Entry} (hj : s'.journal = s.journal ++ [e])
    (he : ok e) : Extends ok s s' :=
  ⟨hs, [e], hj, by simpa using he⟩

theorem Extends.mem (h : Extends ok s s') {e : Entry} (he : e ∈ s.journal) : e ∈ s'.journal := by
  obtain ⟨-, new, hj, -⟩ := h
  rw [hj]
  exact List.mem_append_left _ he

theorem Extends.trail (h : Extends ok s s')
    (hok : ∀ e, ok e → e.task = some t → e.what.isStage = false) :
    s'.journal.trail t = s.journal.trail t := by
  obtain ⟨-, new, hj, hnew⟩ := h
  rw [hj]
  exact Journal.trail_append_of_not fun e he => hok e (hnew e he)

theorem Extends.queue (h : Extends ok s s') (hok : ∀ e, ok e → e.what.isQueueing = false) :
    s'.journal.queue = s.journal.queue := by
  obtain ⟨-, new, hj, hnew⟩ := h
  rw [hj]
  exact Journal.queue_append_of_not fun e he => hok e (hnew e he)

end Extends

/-! ## Moves -/

section Moves

variable {k : Kind} {a : Option TaskId} {s s' : Session}

theorem isEntryOf_self {w : Happening} (h : w.isOf k) : IsEntryOf k a ⟨a, w⟩ := ⟨.inl rfl, h⟩

theorem IsEntryOf.eq_some {e : Entry} (h : IsEntryOf k a e) {t : TaskId} (ht : e.task = some t) :
    a = some t := by
  rcases h.actor with ha | ⟨ha, -⟩
  · exact ha.symm.trans ht
  · rw [ha] at ht
    cases ht

theorem IsEntryOf.eq_cycle {e : Entry} (h : IsEntryOf k a e) (hq : e.what.isQueueing) :
    e.task = a ∧ k = .cycle := by
  obtain ⟨ha, hk⟩ := h
  obtain ⟨task, what⟩ := e
  cases what <;> simp_all [Happening.isQueueing, Happening.isOf]

theorem isOf_of_isMark {w : Happening} (h : w.isMark k) : w.isOf k := by
  cases w <;> simp_all [Happening.isMark, Happening.isOf]

theorem setup_ensureLoading (s : Session) :
    s.ensureLoading.1.setup = s.setup ∧ s.ensureLoading.1.journal = s.journal := by
  unfold ensureLoading
  split <;> exact ⟨rfl, rfl⟩

theorem extends_worked {α : Type} (w : Worked α) (h : ∀ e ∈ w.effects, e.isQuestion = false) :
    Extends (IsEntryOf k a) s (s.worked a w).1 := by
  refine ⟨by simp [worked, withHost], _, by simp only [worked, recordAll_eq]; rfl, ?_⟩
  intro e he
  obtain ⟨what, hw, rfl⟩ := List.mem_map.1 he
  exact isEntryOf_self (isOf_of_isMark (isMark_effects_logs h _ what hw))

theorem extends_record {w : Happening} (h : w.isOf k) : Extends (IsEntryOf k a) s (s.record a w) :=
  .of_concat rfl rfl (isEntryOf_self h)

theorem extends_reset : Extends (IsEntryOf .close a) s (s.reset a).1 := by
  have hforget : ∀ s : Session, Extends (IsEntryOf .close a) s (s.forget a) :=
    fun s => .of_concat rfl rfl (isEntryOf_self rfl)
  unfold reset
  split_ifs
  · exact .refl s
  · split
    · exact hforget s
    · next r _ =>
      have hw := extends_worked (k := .close) (a := a) (s := s) (r.close s.host.bench)
        (isQuestion_close r _)
      generalize s.worked a (r.close s.host.bench) = q at hw ⊢
      obtain ⟨s', _ | f⟩ := q
      · refine hw.trans (Extends.trans ?_ (hforget _))
        cases r.isClosable
        · exact .refl s'
        · exact extends_record rfl
      · exact hw

/-- A move makes entries of its own kind. -/
theorem Move.extends (m : Move k a s s') : Extends (IsEntryOf k a) s s' := by
  cases m with
  | mark what h => exact extends_record (isOf_of_isMark h)
  | host => exact .of_eq rfl rfl
  | notify =>
    exact notify_keeps (P := Extends (IsEntryOf k a) s) (.refl s)
      (fun _ _ h => h.trans (.of_eq rfl rfl))
      fun _ h => h.trans (.of_concat rfl rfl ⟨.inr ⟨rfl, _, rfl⟩, rfl⟩)
  | stop => exact .of_eq rfl rfl
  | stage => exact .of_eq rfl rfl
  | listen => exact .of_concat rfl rfl ⟨.inr ⟨rfl, _, rfl⟩, rfl⟩
  | want => exact .of_eq rfl rfl
  | join => exact .of_eq rfl rfl
  | queue rules hk => exact .of_concat rfl rfl (isEntryOf_self (by simp [Happening.isOf, hk]))
  | attach t ha hk =>
    obtain ⟨hs, hj⟩ := setup_ensureLoading s
    refine (Extends.of_eq hs hj).trans (.of_concat rfl rfl ?_)
    rw [ha]
    exact isEntryOf_self (by simpa [Happening.isOf] using hk)
  | receive t load ha hk h =>
    refine .of_concat rfl rfl ?_
    rw [ha]
    exact isEntryOf_self (by simpa [Happening.isOf] using hk)
  | compiled r hk => exact .of_concat rfl rfl (isEntryOf_self (by simp [Happening.isOf, hk]))
  | reset hk =>
    subst hk
    exact extends_reset

theorem Moves.extends (m : Moves k a s s') : Extends (IsEntryOf k a) s s' := by
  induction m with
  | refl => exact .refl s
  | tail _ m ih => exact ih.trans m.extends

theorem not_isStage_of_isOf {w : Happening} (hc : k ≠ .cycle) (hg : k ≠ .get) (h : w.isOf k) :
    w.isStage = false := by
  cases w <;> simp_all [Happening.isOf, Happening.isStage]

/-- The queue is what was queued. -/
theorem Move.queue_eq (m : Move k a s s') (h : s.queue = s.journal.queue) :
    s'.queue = s'.journal.queue := by
  have happend : ∀ (s : Session) (b : Option TaskId) (w : Happening), w.isQueueing = false →
      s.queue = s.journal.queue → s.queue = Journal.queue (s.journal ++ [⟨b, w⟩]) := by
    intro s b w hw h
    rw [Journal.queue_append_of_not (by simpa using hw), h]
  have hconcat : ∀ (b : Option TaskId) (w : Happening), w.isQueueing = false →
      s.queue = Journal.queue (s.journal ++ [⟨b, w⟩]) := fun b w hw => happend s b w hw h
  cases m with
  | mark what hm =>
    exact hconcat _ _ (by cases what <;> simp_all [Happening.isMark, Happening.isQueueing])
  | host => exact h
  | notify => exact notify_keeps h (fun _ _ h => h) fun s₁ h => happend s₁ _ _ rfl h
  | stop => exact h
  | stage => exact h
  | listen => exact hconcat _ _ rfl
  | want => exact h
  | join => exact h
  | queue rules hk =>
    show s.queue ++ Script.parseAll rules = Journal.queue (s.journal ++ [⟨a, .queued rules⟩])
    rw [Journal.queue_append, h]
    simp [Journal.queue]
  | attach t ha hk =>
    have hq : s.ensureLoading.1.queue = s.queue := by
      unfold ensureLoading
      split <;> rfl
    show s.ensureLoading.1.queue = Journal.queue (s.ensureLoading.1.journal ++ [_])
    rw [hq, (setup_ensureLoading s).2]
    exact hconcat _ _ rfl
  | receive t load ha hk he => exact hconcat _ _ rfl
  | compiled r hk => exact hconcat _ _ rfl
  | reset hk =>
    rw [(reset_fields s a).2.2.2.2.1, h, extends_reset.queue]
    intro e he
    by_contra hq
    cases (he.eq_cycle (by simpa using hq)).2

theorem Moves.queue_eq (m : Moves k a s s') (h : s.queue = s.journal.queue) :
    s'.queue = s'.journal.queue :=
  m.keep (fun _ _ m h => m.queue_eq h) h

/-- A plain block leaves every trail as it is. -/
theorem Moves.trail_plain (m : Moves .plain a s s') (t : TaskId) :
    s'.journal.trail t = s.journal.trail t :=
  m.extends.trail fun _ he _ => not_isStage_of_isOf (by decide) (by decide) he.isOf

/-- A block leaves the trails of other tasks as they are. -/
theorem Moves.trail_other (m : Moves k a s s') {t : TaskId} (ht : a ≠ some t) :
    s'.journal.trail t = s.journal.trail t :=
  m.extends.trail fun _ he hu => absurd (he.eq_some hu) ht

end Moves

/-! ## Waiting and ending -/

section Suspend

variable {s : Session} {t u : TaskId} {p : Phase} {w : Wait} {due : List Due} {verdict : Verdict}
  {o : Outcome} {task : Task}

/-- To wait changes the record of the task and the turns. -/
theorem suspend_eq (s : Session) (t : TaskId) (p : Phase) (w : Wait) (due : List Due)
    (verdict : Verdict) : ∃ ready, s.suspend t p w due verdict =
      { s.modifyTask t (fun task => { task with phase := some p, due, verdict }) with
        waiting := s.waiting ++ [(t, w)], ready } := by
  unfold suspend
  dsimp only
  split
  · exact ⟨s.ready ++ [.relay t], rfl⟩
  · exact ⟨s.ready, rfl⟩

theorem task_suspend (ht : s.tasks[t]? = some task) : (s.suspend t p w due verdict).tasks[t]? =
    some { task with phase := some p, due, verdict } := by
  obtain ⟨ready, he⟩ := suspend_eq s t p w due verdict
  rw [he]
  show (s.modifyTask t _).tasks[t]? = _
  rw [tasks_modifyTask, if_pos rfl, ht]
  rfl

theorem task_finish (ht : s.tasks[t]? = some task) :
    (s.finish t o).tasks[t]? = some { task with outcome := some o, due := [] } := by
  rw [finish_eq]
  show (s.modifyTask t _).tasks[t]? = _
  rw [tasks_modifyTask, if_pos rfl, ht]
  rfl

theorem role?_suspend : (s.suspend t p w due verdict).role? u = s.role? u := by
  obtain ⟨ready, he⟩ := suspend_eq s t p w due verdict
  rw [he]
  exact role?_modifyTask (s := s) (by simp)

theorem role?_finish : (s.finish t o).role? u = s.role? u := by
  rw [finish_eq]
  exact role?_modifyTask (s := s) (by simp)

theorem outcome?_finish (ht : s.tasks[t]? = some task) :
    (s.finish t o).outcome? u = if t = u then some o else s.outcome? u := by
  rw [finish_eq]
  show ((s.modifyTask t _).tasks[u]?).bind _ = _
  rw [tasks_modifyTask]
  split_ifs with he
  · rw [← he, ht]
    rfl
  · rfl

theorem extends_suspend : Extends (fun _ => False) s (s.suspend t p w due verdict) := by
  obtain ⟨ready, he⟩ := suspend_eq s t p w due verdict
  rw [he]
  exact .of_eq rfl rfl

theorem extends_finish : Extends (fun e => ∃ x, e = ⟨some t, .reported x⟩) s (s.finish t o) := by
  rw [finish_eq]
  refine ⟨rfl, _, rfl, ?_⟩
  split
  · intro e he
    exact ⟨_, List.mem_singleton.1 he⟩
  · simp

end Suspend

/-! ## Steps -/

theorem Aside.extends {s s' : Session} (m : Aside s s') : Extends (fun _ => True) s s' := by
  cases m with
  | move m => exact m.extends.mono fun _ _ => trivial
  | spawn => exact .of_eq rfl rfl
  | tell => exact .of_concat rfl rfl trivial
  | note => exact .of_concat rfl rfl trivial
  | turns => exact .of_eq rfl rfl

/-- The journal only grows. -/
theorem Steps.extends {s s' : Session} (h : Reachable s) (steps : Steps s s') :
    Extends (fun _ => True) s s' := by
  induction steps with
  | refl => exact .refl s
  | tail k step ih =>
    refine step.keeps ?_ ?_ (tidy_of_reachable (h.steps k)) ih
    · exact fun _ _ m hs => hs.trans m.extends
    · intro s₁ t task turn hs
      refine resume_of_moves (P := Extends (fun _ => True) s) turn (hs.trans (.of_eq rfl rfl))
        ?_ ?_ ?_
      · exact fun k _ _ _ m _ hs => hs.trans (m.extends.mono fun _ _ => trivial)
      · exact fun s₂ p w due verdict _ hs => hs.trans (extends_suspend.mono fun _ _ => trivial)
      · exact fun s₂ o _ hs => hs.trans (extends_finish.mono fun _ _ => trivial)

end Session

end Snippets
