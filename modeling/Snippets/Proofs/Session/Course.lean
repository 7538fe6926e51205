import Snippets.Proofs.Session.Trail

/-!
# The course of a cycle

What a cycle went through is known from the phase in which it waits (`Course`), and every block
leads from one course to the next or to the end (`advances_blockOf`). A cycle that completes has
dispatched the whole queue as it was at one moment: the local snippets went to their handlers one
by one, and the others to the external runner in one batch, if it was loaded.
-/

namespace Snippets

/-- The call of a local snippet's handler. A registered name may have none. -/
def Registry.called? (r : Registry (Option Nat)) (snippet : Snippet Text) : Option Happening :=
  match r.resolve snippet.name with
  | some (some number) => some (.called number snippet)
  | _ => none

/-- A report of a dispatch: its parts are the split of a queue. -/
structure Report.Splits (r : Report) (registry : Registry (Option Nat))
    (queue : List (Snippet Text)) : Prop where
  locals : r.locals = queue.filter fun x => registry.contains x.name
  externals : r.externals = queue.filter fun x => !registry.contains x.name
  queued : r.queued = queue.length

def Happening.isAttached (load : TaskId) : Happening → Bool
  | .attached l => l = load
  | _ => false

def Happening.isReceived (load : TaskId) : Happening → Bool
  | .received l _ => l = load
  | _ => false

/-- What a cycle goes through after it has learned how the loading ended. -/
def Happening.isLate : Happening → Bool
  | .loadingKnown _ | .gateKnown _ | .called _ _ | .batched _ | .reported _ => true
  | _ => false

/-- The loading in which a task in this phase shares. -/
def Phase.shares? : Phase → Option TaskId
  | .loading _ load | .getting load => some load
  | _ => none

/-- Whoever went through `stages` has learned how each loading ended that it shared in, as often as
it did so, but has yet to learn it once of `due`. -/
def Owes (stages : List Happening) (due : Option TaskId) : Prop :=
  ∀ load, stages.countP (Happening.isAttached load) =
    stages.countP (Happening.isReceived load) + if due = some load then 1 else 0

/-- The stages of a cycle that queued at most once and owes nothing. -/
structure Settles (stages : List Happening) : Prop where
  once : stages.countP Happening.isQueueing ≤ 1
  owes : Owes stages none

theorem countP_late {stages : List Happening} (h : ∀ w ∈ stages, w.isLate) {f : Happening → Bool}
    (hf : ∀ w, w.isLate → f w = false) : stages.countP f = 0 :=
  List.countP_eq_zero.2 fun w hw => by simp [hf w (h w hw)]

theorem settles_late {rules : List Value} {load : TaskId} {o : Outcome} {stages : List Happening}
    (h : ∀ w ∈ stages, w.isLate) :
    Settles (.queued rules :: .attached load :: .received load o :: stages) := by
  have hq : stages.countP Happening.isQueueing = 0 :=
    countP_late h fun w hw => by cases w <;> first | rfl | cases hw
  refine ⟨by simp [List.countP_cons, Happening.isQueueing, hq], ?_⟩
  intro load'
  have ha : stages.countP (Happening.isAttached load') = 0 :=
    countP_late h fun w hw => by cases w <;> first | rfl | cases hw
  have hr : stages.countP (Happening.isReceived load') = 0 :=
    countP_late h fun w hw => by cases w <;> first | rfl | cases hw
  simp [List.countP_cons, Happening.isAttached, Happening.isReceived, ha, hr]

theorem settles_nil : Settles [] := ⟨Nat.zero_le _, fun _ => rfl⟩

namespace Session

/-! ## The course of a cycle -/

/-- The stages of a cycle before it knows whether it may dispatch. -/
def opening (rules : List Value) (load : TaskId) (o : Outcome) (e : Option Text) : List Happening :=
  [.queued rules, .attached load, .received load o, .loadingKnown e]

/-- The stages after that of a cycle that dispatches: the calls of the handlers, and the batch if
the external runner was loaded. -/
def closing (registry : Registry (Option Nat)) (r : Report) (e : Option Text) : List Happening :=
  r.locals.filterMap registry.called? ++
    if e = none then [.batched (r.externals.map Snippet.toFilter)] else []

/-- A cycle has begun to dispatch the queue that its report splits, and has gone through `stages`
since. -/
def Dispatches (s : Session) (t : TaskId) (r : Report) (e : Option Text) (stages : List Happening) :
    Prop :=
  ∃ (rules : List Value) (load : TaskId) (o : Outcome) (before after : Journal),
    s.journal = before ++ ⟨some t, .gateKnown true⟩ :: after ∧
      s.journal.trail t = opening rules load o e ++ .gateKnown true :: stages ∧
      r.parsed = (Script.parseAll rules).length ∧ r.Splits s.setup.registry before.queue

/-- What a cycle went through when it waits in a phase, or has not begun. -/
def Course (s : Session) (t : TaskId) : Option Phase → Prop
  | none | some .rules => s.journal.trail t = []
  | some (.loading parsed load) => ∃ rules, parsed = (Script.parseAll rules).length ∧
      s.journal.trail t = [.queued rules, .attached load]
  | some (.gate parsed e) => ∃ rules load o, parsed = (Script.parseAll rules).length ∧
      s.journal.trail t = opening rules load o e
  | some (.dispatched r _) =>
    s.Dispatches t r none (closing s.setup.registry r none)
  | some _ => False

/-- What a cycle went through when it has come to an outcome: if it completed, it dispatched. -/
structure Ends (s : Session) (t : TaskId) (o : Outcome) : Prop where
  once : (s.journal.trail t).countP Happening.isQueueing ≤ 1
  completed : ∀ r, o = .ok (.report r) → r.status = .completed →
    ∃ e, s.Dispatches t r e (closing s.setup.registry r e)

/-- What a block of a cycle brings about. -/
def Advances (t : TaskId) (r : Session × Progress) : Prop :=
  match r.2 with
  | .waits p _ => r.1.Course t (some p)
  | .ends o => Owes (r.1.journal.trail t) none ∧ r.1.Ends t o

section Extends

variable {s s' : Session} {ok : Entry → Prop} {t : TaskId}

theorem Dispatches.extends {r : Report} {e : Option Text} {stages : List Happening}
    (h : s.Dispatches t r e stages) (hx : Extends ok s s')
    (ht : s'.journal.trail t = s.journal.trail t) : s'.Dispatches t r e stages := by
  obtain ⟨rules, load, o, before, after, hj, hs, hp, hr⟩ := h
  obtain ⟨hsetup, new, hnew, -⟩ := hx
  refine ⟨rules, load, o, before, after ++ new, ?_, ht.trans hs, hp, hsetup ▸ hr⟩
  rw [hnew, hj, List.append_assoc, List.cons_append]

theorem Course.extends {p : Option Phase} (h : s.Course t p) (hx : Extends ok s s')
    (ht : s'.journal.trail t = s.journal.trail t) : s'.Course t p := by
  rcases p with _ | p
  · exact ht.trans h
  · cases p with
    | rules => exact ht.trans h
    | loading parsed load =>
      obtain ⟨rules, hp, hs⟩ := h
      exact ⟨rules, hp, ht.trans hs⟩
    | gate parsed e =>
      obtain ⟨rules, load, o, hp, hs⟩ := h
      exact ⟨rules, load, o, hp, ht.trans hs⟩
    | dispatched r failure =>
      unfold Course
      rw [hx.setup]
      exact Dispatches.extends h hx ht
    | _ => exact h

end Extends

/-! ## Blocks of a cycle -/

section Blocks

variable {s s' : Session} {t : TaskId}

theorem advances_ends {o : Outcome} (hs : Settles (s.journal.trail t))
    (hc : ∀ r, o = .ok (.report r) → r.status = .completed →
      ∃ e, s.Dispatches t r e (closing s.setup.registry r e)) :
    Advances t (s, .ends o) := ⟨hs.owes, hs.once, hc⟩

theorem Dispatches.plain {r : Report} {e : Option Text} {stages : List Happening}
    (h : s.Dispatches t r e stages) (m : Moves .plain (some t) s s') :
    s'.Dispatches t r e stages :=
  h.extends m.extends (m.trail_plain t)

theorem Dispatches.stage {r : Report} {e : Option Text} {stages : List Happening} {w : Happening}
    (h : s.Dispatches t r e stages) (hw : w.isStage) :
    (s.record (some t) w).Dispatches t r e (stages ++ [w]) := by
  obtain ⟨rules, load, o, before, after, hj, hs, hp, hr⟩ := h
  refine ⟨rules, load, o, before, after ++ [⟨some t, w⟩], ?_, ?_, hp, hr⟩
  · show s.journal ++ _ = _
    rw [hj, List.append_assoc, List.cons_append]
  · refine (Journal.trail_concat hw).trans ?_
    rw [hs, List.append_assoc, List.cons_append]

theorem Dispatches.settles {r : Report} {e : Option Text} {stages : List Happening}
    (h : s.Dispatches t r e stages) (hst : ∀ w ∈ stages, w.isLate) :
    Settles (s.journal.trail t) := by
  obtain ⟨rules, load, o, before, after, hj, hs, hp, hr⟩ := h
  rw [hs]
  show Settles (.queued rules :: .attached load :: .received load o :: .loadingKnown e ::
    .gateKnown true :: stages)
  refine settles_late ?_
  simpa [Happening.isLate] using hst

/-- Only the parts of the report matter. -/
theorem Dispatches.congr {r r' : Report} {e : Option Text} {stages : List Happening}
    (h : s.Dispatches t r e stages) (hl : r'.locals = r.locals) (hx : r'.externals = r.externals)
    (hq : r'.queued = r.queued) (hp : r'.parsed = r.parsed) : s.Dispatches t r' e stages := by
  obtain ⟨rules, load, o, before, after, hj, hs, hparsed, hr⟩ := h
  exact ⟨rules, load, o, before, after, hj, hs, hp.trans hparsed,
    hl.trans hr.locals, hx.trans hr.externals, hq.trans hr.queued⟩

theorem isLate_called {registry : Registry (Option Nat)} {snippets : List (Snippet Text)}
    {w : Happening} (h : w ∈ snippets.filterMap registry.called?) : w.isLate := by
  obtain ⟨snippet, -, hs⟩ := List.mem_filterMap.1 h
  unfold Registry.called? at hs
  split at hs
  · cases hs
    rfl
  · cases hs

theorem isLate_closing {registry : Registry (Option Nat)} {r : Report} {e : Option Text}
    {w : Happening} (h : w ∈ closing registry r e) : w.isLate := by
  rcases List.mem_append.1 h with h | h
  · exact isLate_called h
  · split_ifs at h
    · rw [List.mem_singleton.1 h]
      rfl
    · cases h

/-- A cycle that has dispatched has come to its end. -/
theorem Dispatches.advances {r : Report} {e : Option Text}
    (h : s.Dispatches t r e (closing s.setup.registry r e)) (o : Outcome)
    (ho : ∀ r', o = .ok (.report r') → s.Dispatches t r' e (closing s.setup.registry r' e)) :
    Advances t (s, .ends o) := by
  exact advances_ends (h.settles fun w => isLate_closing) fun r' hr' _ => ⟨e, ho r' hr'⟩

theorem advances_reportBatch {r : Report}
    (h : s.Dispatches t r none (closing s.setup.registry r none)) (failure : Option Failure) :
    Advances t (s.reportBatch t r failure) := by
  unfold reportBatch
  split
  · refine h.advances _ ?_
    rintro r' ⟨⟩
    exact h.congr rfl rfl rfl rfl
  · split_ifs
    · have h' := h.plain (moves_note (.error (text "External runner failed")))
      refine h'.advances _ ?_
      rintro r' ⟨⟩
      exact h'.congr rfl rfl rfl rfl
    · exact h.advances _ nofun

theorem advances_runBatch {r : Report}
    (h : s.Dispatches t r none (r.locals.filterMap s.setup.registry.called?)) :
    Advances t (s.runBatch t r) := by
  have h' := h.stage (w := .batched (r.externals.map Snippet.toFilter)) rfl
  unfold runBatch
  dsimp only
  generalize hs' : s.record (some t) (.batched (r.externals.map Snippet.toFilter)) = s' at h' ⊢
  have hclosing : closing s'.setup.registry r none =
      r.locals.filterMap s.setup.registry.called? ++
        [.batched (r.externals.map Snippet.toFilter)] := by
    rw [← hs']
    rfl
  rw [← hclosing] at h'
  split
  · exact advances_reportBatch h' _
  · next s'' failure hi =>
    have m : Moves .plain (some t) s' s'' := moves_invoke hi
    show s''.Dispatches t r none (closing s''.setup.registry r none)
    rw [m.extends.setup]
    exact h'.plain m

/-- The local snippets go to their handlers in order; all of them unless a failure cannot be
contained. -/
theorem dispatches_runLocals {r : Report} {e : Option Text} (errors : List Text)
    (snippets : List (Snippet Text)) {stages : List Happening} (h : s.Dispatches t r e stages) :
    ∃ calls : List Happening, (∀ w ∈ calls, w.isLate) ∧
      (s.runLocals t errors snippets).1.Dispatches t r e (stages ++ calls) ∧
      (s.runLocals t errors snippets).1.setup = s.setup ∧
      ∀ errors', (s.runLocals t errors snippets).2 = .ok errors' →
        calls = snippets.filterMap s.setup.registry.called? := by
  induction snippets generalizing s errors stages with
  | nil => exact ⟨[], by simp, by simpa [runLocals] using h, rfl, fun _ _ => rfl⟩
  | cons snippet rest ih =>
    unfold runLocals
    split
    · next hn =>
      obtain ⟨calls, hc, hd, hs, hok⟩ := ih errors h
      refine ⟨calls, hc, hd, hs, fun errors' he => ?_⟩
      rw [List.filterMap_cons_none (by simp [Registry.called?, hn]), hok errors' he]
    · next hn =>
      obtain ⟨calls, hc, hd, hs, hok⟩ := ih errors h
      refine ⟨calls, hc, hd, hs, fun errors' he => ?_⟩
      rw [List.filterMap_cons_none (by simp [Registry.called?, hn]), hok errors' he]
    · next number hn =>
      have hsome : s.setup.registry.called? snippet = some (.called number snippet) := by
        simp [Registry.called?, hn]
      have m := moves_callHandler (k := .plain) (t := t) (s := s) number snippet
      have h' := (h.stage (w := .called number snippet) rfl).plain m
      have hsetup : (s.callHandler t number snippet).1.setup = s.setup := m.extends.setup
      generalize s.callHandler t number snippet = q at h' hsetup ⊢
      obtain ⟨s', _ | ⟨f, message⟩⟩ := q
      · obtain ⟨calls, hc, hd, hs, hok⟩ := ih errors h'
        refine ⟨.called number snippet :: calls, ?_, by simpa using hd, hs.trans hsetup, ?_⟩
        · rintro w (_ | ⟨_, hw⟩)
          · rfl
          · exact hc w hw
        · intro errors' he
          rw [List.filterMap_cons_some hsome, hok errors' he, hsetup]
      · dsimp only
        split_ifs
        · obtain ⟨calls, hc, hd, hs, hok⟩ := ih
            (errors ++ [snippet.name ++ text ": " ++ message]) (h'.plain (moves_note
              (.warning (text "Local snippet " ++ snippet.name.quoted ++ text " failed"))))
          refine ⟨.called number snippet :: calls, ?_, by simpa using hd, hs.trans hsetup, ?_⟩
          · rintro w (_ | ⟨_, hw⟩)
            · rfl
            · exact hc w hw
          · intro errors' he
            rw [List.filterMap_cons_some hsome, hok errors' he]
            show _ = _ :: rest.filterMap s.setup.registry.called?
            rw [← hsetup]
            rfl
        · exact ⟨[.called number snippet], by simp [Happening.isLate], h', hsetup, by simp⟩

theorem advances_dispatch {rules : List Value} {load : TaskId} {o : Outcome} {e : Option Text}
    (hs : s.journal.trail t = opening rules load o e) (hq : s.queue = s.journal.queue) :
    Advances t
      ((s.record (some t) (.gateKnown true)).dispatch t (Script.parseAll rules).length e) := by
  unfold dispatch
  extract_lets s' p r
  have hd : s'.Dispatches t r e [] := by
    refine ⟨rules, load, o, s.journal, [], rfl, ?_, rfl, ?_⟩
    · rw [← hs]
      exact Journal.trail_concat rfl
    · rw [← hq]
      exact ⟨rfl, rfl, rfl⟩
  obtain ⟨calls, hc, hl, hsetup, hok⟩ := dispatches_runLocals (t := t) [] p.locals hd
  rw [List.nil_append] at hl
  have hsettles := hl.settles hc
  generalize s'.runLocals t [] p.locals = q at hl hsetup hok hsettles ⊢
  obtain ⟨s'', f | errors⟩ := q
  · exact advances_ends hsettles nofun
  · dsimp only at hl hsetup hsettles ⊢
    rw [hok errors rfl, ← hsetup] at hl
    cases e with
    | none => exact advances_runBatch (hl.congr rfl rfl rfl rfl)
    | some e =>
      refine advances_ends hsettles ?_
      rintro r' ⟨⟩ -
      refine ⟨some e, ?_⟩
      have hclosing : s''.Dispatches t { r with errors := errors ++ [e] } (some e) _ :=
        hl.congr rfl rfl rfl rfl
      rw [← List.append_nil (List.filterMap _ _)] at hclosing
      exact hclosing

/-- A cycle that queued once and has learned how the loading ended can end without a dispatch. -/
theorem advances_short {rules : List Value} {load : TaskId} {o : Outcome} (stages : List Happening)
    (hs : s.journal.trail t = .queued rules :: .attached load :: .received load o :: stages)
    (hst : ∀ w ∈ stages, w.isLate) {out : Outcome}
    (ho : ∀ r, out = .ok (.report r) → r.status ≠ .completed) : Advances t (s, .ends out) :=
  advances_ends (hs ▸ settles_late hst) fun r hr hc => absurd hc (ho r hr)

theorem advances_skipDispatch {rules : List Value} {load : TaskId} {o : Outcome} {e : Option Text}
    (hs : s.journal.trail t = opening rules load o e) (parsed : Nat) :
    Advances t (s.skipDispatch t parsed) := by
  have hs' : ((s.record (some t) (.gateKnown false)).note (some t)
      (.debug (text "Ad filtering disabled, skipping dispatch"))).journal.trail t =
      opening rules load o e ++ [.gateKnown false] := by
    rw [Moves.trail_plain (moves_note _), ← hs]
    exact Journal.trail_concat rfl
  refine advances_short [.loadingKnown e, .gateKnown false] hs' ?_ ?_
  · simp [Happening.isLate]
  · rintro r ⟨⟩
    simp

theorem advances_takeGate {rules : List Value} {load : TaskId} {o : Outcome} {e : Option Text}
    (hs : s.journal.trail t = opening rules load o e) (hq : s.queue = s.journal.queue) :
    Advances t (s.takeGate t (Script.parseAll rules).length e) := by
  unfold takeGate
  split
  · split_ifs
    · exact advances_dispatch hs hq
    · exact advances_skipDispatch hs _
  · split_ifs
    · exact advances_skipDispatch ((Moves.trail_plain (moves_note _) t).trans hs) _
    · exact advances_short [.loadingKnown e] hs (by simp [Happening.isLate]) nofun

theorem advances_askGate {rules : List Value} {load : TaskId} {o : Outcome}
    (hs : s.journal.trail t = [.queued rules, .attached load, .received load o])
    (hq : s.queue = s.journal.queue) (e : Option Text) :
    Advances t (s.askGate t (Script.parseAll rules).length e) := by
  have hq' : ((s.record (some t) (.loadingKnown e)).effect (some t) .askGate).queue =
      ((s.record (some t) (.loadingKnown e)).effect (some t) .askGate).journal.queue :=
    Moves.queue_eq (k := .cycle) ((moves_record (.loadingKnown e) rfl).trans
      (moves_record (.effect .askGate) rfl)) hq
  have hs' : ((s.record (some t) (.loadingKnown e)).effect (some t) .askGate).journal.trail t =
      opening rules load o e := by
    refine (Journal.trail_append_of_not (by simp [Happening.isStage])).trans ?_
    refine (Journal.trail_concat rfl).trans ?_
    rw [hs]
    rfl
  unfold askGate
  dsimp only
  split
  · exact ⟨rules, load, o, rfl, hs'⟩
  · exact advances_takeGate hs' hq'

theorem advances_takeLoading {rules : List Value} {load : TaskId}
    (hs : s.journal.trail t = [.queued rules, .attached load]) (hq : s.queue = s.journal.queue)
    (he : s.hasEnded load) : Advances t (s.takeLoading t (Script.parseAll rules).length load) := by
  have hs' : (s.receive t load).1.journal.trail t =
      [.queued rules, .attached load, .received load (s.outcomeOf load)] := by
    refine (Journal.trail_concat rfl).trans ?_
    rw [hs]
    rfl
  have hq' : (s.receive t load).1.queue = (s.receive t load).1.journal.queue :=
    Move.queue_eq (k := .cycle) (.receive s t load rfl (.inl rfl) he) hq
  unfold takeLoading
  generalize s.outcomeOf load = o at hs'
  generalize s.receive t load = q at hs' hq' ⊢
  obtain ⟨s', f | _⟩ := q
  · dsimp only at hs' hq' ⊢
    split_ifs
    · exact advances_askGate hs' hq' _
    · exact advances_short [] hs' (by simp) nofun
  · exact advances_askGate hs' hq' _

theorem trail_queueRules (hs : s.journal.trail t = []) (rules : List Value) :
    (s.queueRules t rules).journal.trail t = [.queued rules] := by
  unfold queueRules
  extract_lets notes s'
  have m : Moves .plain (some t) s s' := moves_recordAll _ (by simp [Happening.isMark])
  refine (Journal.trail_concat (j := s'.journal) rfl).trans ?_
  rw [m.trail_plain, hs]
  rfl

theorem trail_attach {stages : List Happening} (hs : s.journal.trail t = stages) :
    (s.attach t).1.journal.trail t = stages ++ [.attached (s.attach t).2] := by
  show Journal.trail (s.ensureLoading.1.journal ++ _) t = _
  rw [(setup_ensureLoading s).2]
  refine (Journal.trail_concat rfl).trans ?_
  rw [hs]
  rfl

/-- A cycle that has no rules to go by queues nothing. -/
theorem advances_nothing (hs : s.journal.trail t = []) {out : Outcome}
    (ho : ∀ r, out = .ok (.report r) → r.status ≠ .completed) : Advances t (s, .ends out) :=
  advances_ends (hs ▸ settles_nil) fun r hr hc => absurd hc (ho r hr)

theorem advances_takeRules (hs : s.journal.trail t = []) (hq : s.queue = s.journal.queue) :
    Advances t (s.takeRules t) := by
  have hnone : ∀ l, Advances t (s.reportNoRules t l) := by
    intro l
    refine advances_nothing ((Moves.trail_plain (moves_note _) t).trans hs) ?_
    rintro r ⟨⟩
    simp
  unfold takeRules
  split
  · split_ifs
    · exact hnone _
    · exact advances_nothing hs nofun
  · split
    · exact hnone _
    · next rules _ =>
      have hs' := trail_attach (trail_queueRules hs rules)
      have hq' : ((s.queueRules t rules).attach t).1.queue =
          ((s.queueRules t rules).attach t).1.journal.queue :=
        Move.queue_eq (k := .cycle) (.attach _ t rfl (.inl rfl))
          ((moves_queueRules (t := t) rules).queue_eq hq)
      dsimp only
      generalize (s.queueRules t rules).attach t = q at hs' hq' ⊢
      obtain ⟨s', load⟩ := q
      dsimp only at hs' hq' ⊢
      split_ifs with he
      · exact advances_takeLoading hs' hq' he
      · exact ⟨rules, rfl, hs'⟩

theorem advances_cycle (hs : s.journal.trail t = []) (hq : s.queue = s.journal.queue) :
    Advances t (s.cycle t) := by
  unfold cycle
  split_ifs
  · refine advances_nothing hs ?_
    rintro r ⟨⟩
    simp
  · have hs' : (s.effect (some t) .askSnippets).journal.trail t = [] :=
      (Journal.trail_append_of_not (by simp [Happening.isStage])).trans hs
    have hq' : (s.effect (some t) .askSnippets).queue =
        (s.effect (some t) .askSnippets).journal.queue :=
      Moves.queue_eq (k := .cycle) (moves_record (.effect .askSnippets) rfl) hq
    dsimp only
    split_ifs
    · exact hs'
    · exact advances_takeRules hs' hq'

theorem Course.once_and_owes {p : Option Phase} (h : s.Course t p) :
    (s.journal.trail t).countP Happening.isQueueing ≤ 1 ∧
      Owes (s.journal.trail t) (p.bind Phase.shares?) := by
  have hsettles : ∀ due, due = none → Settles (s.journal.trail t) →
      (s.journal.trail t).countP Happening.isQueueing ≤ 1 ∧ Owes (s.journal.trail t) due := by
    rintro due rfl hs
    exact ⟨hs.once, hs.owes⟩
  rcases p with _ | p
  · exact hsettles _ rfl (h ▸ settles_nil)
  · cases p with
    | rules => exact hsettles _ rfl (h ▸ settles_nil)
    | loading parsed load =>
      obtain ⟨rules, -, hs⟩ := h
      rw [hs]
      refine ⟨by simp [List.countP_cons, Happening.isQueueing], fun load' => ?_⟩
      simp [List.countP_cons, Happening.isAttached, Happening.isReceived, Phase.shares?]
    | gate parsed e =>
      obtain ⟨rules, load, o, -, hs⟩ := h
      refine hsettles _ rfl ?_
      rw [hs]
      exact settles_late (by simp [Happening.isLate])
    | dispatched r failure =>
      exact hsettles _ rfl (Dispatches.settles h fun w => isLate_closing)
    | _ => cases h

/-- Every block of a cycle that is not told to give up leads on in its course. -/
theorem advances_blockOf {task : Task} (hc : task.cancelRequested = false)
    (h : s.Course t task.phase) (hq : s.queue = s.journal.queue)
    (hover : ∀ p load, task.phase = some p → p.load? = some load → s.hasEnded load) :
    Advances t (s.blockOf t task .cycle) := by
  unfold blockOf
  rw [hc]
  cases hp : task.phase with
  | none =>
    rw [hp] at h
    exact advances_cycle h hq
  | some p =>
    rw [hp] at h
    dsimp only
    cases p with
    | rules => exact advances_takeRules h hq
    | loading parsed load =>
      obtain ⟨rules, rfl, hs⟩ := h
      exact advances_takeLoading hs hq (hover _ load hp rfl)
    | gate parsed e =>
      obtain ⟨rules, load, o, rfl, hs⟩ := h
      exact advances_takeGate hs hq
    | dispatched r failure => exact advances_reportBatch h failure
    | _ => cases h

/-- A cycle that is told to give up ends without a report. -/
theorem blockOf_cancelled {task : Task} (hc : task.cancelRequested = true)
    (hp : ∀ p, task.phase = some p → p.kind = .cycle) :
    s.blockOf t task .cycle = (s, .ends (.error .cancelled)) := by
  unfold blockOf
  rw [hc]
  cases h : task.phase with
  | none => rfl
  | some p =>
    have := hp p h
    cases p <;> first | rfl | cases this

/-- The turn of a cycle: it gives up if it was told to, and else goes on in its course. -/
theorem cycle_turn {task : Task} {scheduled : Bool} (turn : Turn s t task)
    (hr : task.role = .cycle scheduled) (h : s.Course t task.phase)
    (hq : s.queue = s.journal.queue) :
    ∃ r, s.resume t = r.1.conclude t r.2 ∧ Moves .cycle (some t) (s.heed t) r.1 ∧
      (task.cancelRequested = true ∧ r = (s.heed t, .ends (.error .cancelled)) ∨
        task.cancelRequested = false ∧ Advances t r) := by
  have hkind : ∀ p, task.phase = some p → p.kind = .cycle :=
    fun p hp => Role.kind_of_allows (hr ▸ turn.fits.phase p hp)
  have hblock : Block .cycle t (s.heed t) ((s.heed t).blockOf t task .cycle) :=
    block_blockOf (c := .cycle) hkind fun p load => turn.loaded_heed
  refine ⟨_, resume_single turn (c := .cycle) (by rw [hr]; rfl), hblock.moves, ?_⟩
  cases hc : task.cancelRequested with
  | true => exact .inl ⟨rfl, blockOf_cancelled hc hkind⟩
  | false =>
    have hcourse : (s.heed t).Course t task.phase := h
    exact .inr ⟨rfl, advances_blockOf hc hcourse hq fun p load hp hl => turn.loaded_heed hp hl hc⟩

end Blocks

end Session

end Snippets
