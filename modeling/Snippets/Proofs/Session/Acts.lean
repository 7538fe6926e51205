import Snippets.Proofs.Session.Sharing

/-!
# What a cycle does

The acts of a task are its entries in the journal without its notes. `Route` says of every phase
what a cycle in it has done so far, and `Left` how far a cycle that has ended has come; others do
not act for it, so both last (`Route.idle`, `Left.idle`). A dispatch consists of the calls of the
handlers, with what these do, and of one batch (`carries_runLocals`, `deeds_invoke`).
-/

namespace Snippets

/-! ## Acts -/

/-- What the handler of a local snippet does. -/
def Effect.isHandling : Effect → Bool
  | .handle _ _ | .evaluate _ | .select _ | .observe | .skip => true
  | _ => false

/-- What running a batch does. -/
def Effect.isRunning : Effect → Bool
  | .run _ _ _ | .exec _ _ _ => true
  | _ => false

/-- What a task does itself: everything but its notes, and that it was told to give up or ended. -/
def Happening.isAct : Happening → Bool
  | .log _ | .scheduled _ | .cancelled | .reported _ => false
  | _ => true

def Happening.isCall : Happening → Bool
  | .called _ _ => true
  | _ => false

def Happening.isHandling : Happening → Bool
  | .effect e => e.isHandling
  | _ => false

def Happening.isRunning : Happening → Bool
  | .effect e => e.isRunning
  | _ => false

/-- The entries in which a cycle takes down what the rule source or the feature gate answered. -/
def Happening.isAnswer : Happening → Bool
  | .queued _ | .gateKnown _ => true
  | _ => false

namespace Journal

/-- What a task did, in order. -/
def acts (j : Journal) (t : TaskId) : List Happening :=
  ((j.of t).map Entry.what).filter Happening.isAct

variable {j new : Journal} {t : TaskId}

theorem acts_append (j new : Journal) (t : TaskId) :
    (j ++ new).acts t = j.acts t ++ new.acts t := by
  simp [acts, of, List.filter_append]

theorem mem_acts {w : Happening} : w ∈ j.acts t ↔ ⟨some t, w⟩ ∈ j ∧ w.isAct := by
  simp only [acts, of, List.mem_filter, List.mem_map]
  constructor
  · rintro ⟨⟨⟨task, what⟩, ⟨he, ht⟩, rfl⟩, hw⟩
    have ht : task = some t := by simpa using ht
    rw [← ht]
    exact ⟨he, hw⟩
  · rintro ⟨he, hw⟩
    exact ⟨⟨_, ⟨he, by simp⟩, rfl⟩, hw⟩

/-- Others do not act for a task. -/
theorem acts_eq_nil (h : ∀ e ∈ new, e.task = some t → e.what.isAct = false) :
    new.acts t = [] := by
  rw [List.eq_nil_iff_forall_not_mem]
  intro w hw
  obtain ⟨he, ha⟩ := mem_acts.1 hw
  rw [h _ he rfl] at ha
  cases ha

theorem acts_append_of_not (h : ∀ e ∈ new, e.task = some t → e.what.isAct = false) :
    (j ++ new).acts t = j.acts t := by
  rw [acts_append, acts_eq_nil h, List.append_nil]

theorem acts_cons {w : Happening} (hw : w.isAct) :
    acts (⟨some t, w⟩ :: j) t = w :: j.acts t := by
  show acts ([_] ++ j) t = _
  rw [acts_append]
  simp [acts, of, hw]

theorem acts_concat {w : Happening} (hw : w.isAct) :
    acts (j ++ [⟨some t, w⟩]) t = j.acts t ++ [w] := by
  rw [acts_append]
  simp [acts, of, hw]

end Journal

/-! ## The order -/

/-- What a cycle does before it knows whether it may dispatch. -/
def approach (rules : List Value) (load : TaskId) (o : Outcome) (e : Option Text) :
    List Happening :=
  [.effect .askSnippets, .queued rules, .attached load, .received load o, .loadingKnown e,
    .effect .askGate]

/-- What a cycle makes of how the loading ended: the external runner is there, or it could not be
loaded and there is a message about it. Any other failure ends the cycle. -/
def Tells : Outcome → Option Text → Prop
  | .ok _, e => e = none
  | .error f, e => f.isLoading ∧ e = some f.message

/-- Whether the feature gate lets a cycle dispatch; a gate that fails does not. -/
def GateAnswer.opens (g : GateAnswer) : Bool :=
  match g.ads with
  | .ok v => v.truthy
  | .error _ => false

/-- The calls of the handlers of a queue's local snippets. -/
def localCalls (registry : Registry (Option Nat)) (queue : List (Snippet Text)) : List Happening :=
  (Partition.of registry queue).locals.filterMap registry.called?

/-- The batch of a queue's other snippets. -/
def batchOf (registry : Registry (Option Nat)) (queue : List (Snippet Text)) : Happening :=
  .batched ((Partition.of registry queue).externals.map Snippet.toFilter)

/-- A dispatch of a queue as far as it has come: first the local snippets, in order, and after the
last of them one batch, if the external runner was loaded. -/
structure Dispatched (registry : Registry (Option Nat)) (queue : List (Snippet Text))
    (e : Option Text) (handled batch : List Happening) : Prop where
  handles : ∀ w ∈ handled, w.isCall ∨ w.isHandling
  calls : handled.filter Happening.isCall <+: localCalls registry queue
  batch : batch = [] ∨ e = none ∧ handled.filter Happening.isCall = localCalls registry queue ∧
    ∃ runs, batch = batchOf registry queue :: runs ∧ ∀ w ∈ runs, w.isRunning

/-- All local snippets of the queue were carried out, and the batch was handed over if the external
runner was loaded. -/
structure Complete (registry : Registry (Option Nat)) (queue : List (Snippet Text))
    (e : Option Text) (handled batch : List Happening) : Prop where
  calls : handled.filter Happening.isCall = localCalls registry queue
  batch : e = none → batch ≠ []

namespace Session

/-- A cycle was let through the gate when the queue was `queue`, and has done `acts` since. -/
def Opened (s : Session) (t : TaskId) (queue : List (Snippet Text)) (e : Option Text)
    (acts : List Happening) : Prop :=
  ∃ (rules : List Value) (load : TaskId) (o : Outcome) (before after : Journal),
    s.journal = before ++ ⟨some t, .gateKnown true⟩ :: after ∧
      before.acts t = approach rules load o e ∧ Tells o e ∧ before.queue = queue ∧
      after.acts t = acts

/-- A cycle was not let through the gate, or has not come so far: it neither called a handler nor
handed over a batch. -/
def Barred (s : Session) (t : TaskId) : Prop :=
  ∃ rules load o e, s.journal.acts t <+: approach rules load o e ++ [.gateKnown false] ∧
    (.loadingKnown e ∈ s.journal.acts t → Tells o e)

/-- What a cycle has done when it waits in a phase, or has not begun. -/
def Route (s : Session) (t : TaskId) : Option Phase → Prop
  | none => s.journal.acts t = []
  | some .rules => s.journal.acts t = [.effect .askSnippets]
  | some (.loading _ load) =>
    ∃ rules, s.journal.acts t = [.effect .askSnippets, .queued rules, .attached load]
  | some (.gate _ e) =>
    ∃ rules load o, Tells o e ∧ s.journal.acts t = approach rules load o e
  | some (.dispatched _ _) => ∃ queue handled batch, s.Opened t queue none (handled ++ batch) ∧
      Dispatched s.setup.registry queue none handled batch ∧
      Complete s.setup.registry queue none handled batch
  | some _ => False

/-- What a cycle has done when it has come to an outcome. Only a failure that cannot be contained
breaks off a dispatch. -/
def Left (s : Session) (t : TaskId) (out : Outcome) : Prop :=
  s.Barred t ∨ ∃ queue e handled batch, s.Opened t queue e (handled ++ batch) ∧
    Dispatched s.setup.registry queue e handled batch ∧
    ((∀ f, out = .error f → f.isContained) → Complete s.setup.registry queue e handled batch)

/-- What a cycle takes down is what the collaborators answered. -/
def Honest (h : Host) (e : Entry) : Prop :=
  match e.what with
  | .queued rules => ∃ v, h.snippets = .ok v ∧ v.items? = some rules
  | .gateKnown enabled => enabled = h.gate.opens
  | _ => True

theorem honest_of_not {h : Host} {e : Entry} (he : e.what.isAnswer = false) : Honest h e := by
  unfold Honest
  split
  · next hw => simp [hw, Happening.isAnswer] at he
  · next hw => simp [hw, Happening.isAnswer] at he
  · trivial

/-! ## Other tasks -/

section Idle

variable {s s' : Session} {t u : TaskId} {k : Kind} {a : Option TaskId} {ok : Entry → Prop}

/-- An entry that is no act of a task. -/
def NoActOf (t : TaskId) (e : Entry) : Prop := e.task = some t → e.what.isAct = false

theorem Extends.acts_eq (h : Extends (NoActOf t) s s') : s'.journal.acts t = s.journal.acts t := by
  obtain ⟨-, new, hj, hnew⟩ := h
  rw [hj]
  exact Journal.acts_append_of_not hnew

theorem Opened.extends {queue : List (Snippet Text)} {e : Option Text} {acts : List Happening}
    (h : s.Opened t queue e acts) {new : Journal} (hj : s'.journal = s.journal ++ new) :
    s'.Opened t queue e (acts ++ new.acts t) := by
  obtain ⟨rules, load, o, before, after, hs, hb, ht, hq, ha⟩ := h
  refine ⟨rules, load, o, before, after ++ new, ?_, hb, ht, hq, ?_⟩
  · rw [hj, hs, List.append_assoc, List.cons_append]
  · rw [Journal.acts_append, ha]

theorem Opened.idle {queue : List (Snippet Text)} {e : Option Text} {acts : List Happening}
    (h : s.Opened t queue e acts) (hx : Extends (NoActOf t) s s') : s'.Opened t queue e acts := by
  obtain ⟨-, new, hj, hnew⟩ := hx
  have h' := h.extends hj
  rw [Journal.acts_eq_nil hnew, List.append_nil] at h'
  exact h'

theorem Barred.idle (h : s.Barred t) (hx : Extends (NoActOf t) s s') : s'.Barred t := by
  unfold Barred
  rw [hx.acts_eq]
  exact h

theorem Route.idle {p : Option Phase} (h : s.Route t p) (hx : Extends (NoActOf t) s s') :
    s'.Route t p := by
  have ha := hx.acts_eq
  rcases p with _ | p
  · exact ha.trans h
  · cases p with
    | rules => exact ha.trans h
    | loading parsed load =>
      obtain ⟨rules, hs⟩ := h
      exact ⟨rules, ha.trans hs⟩
    | gate parsed e =>
      obtain ⟨rules, load, o, ht, hs⟩ := h
      exact ⟨rules, load, o, ht, ha.trans hs⟩
    | dispatched r failure =>
      obtain ⟨queue, handled, batch, ho, hd⟩ := h
      refine ⟨queue, handled, batch, ho.idle hx, ?_⟩
      rw [hx.setup]
      exact hd
    | _ => exact h

theorem Left.idle {out : Outcome} (h : s.Left t out) (hx : Extends (NoActOf t) s s') :
    s'.Left t out := by
  rcases h with h | ⟨queue, e, handled, batch, ho, hd⟩
  · exact .inl (h.idle hx)
  · refine .inr ⟨queue, e, handled, batch, ho.idle hx, ?_⟩
    rw [hx.setup]
    exact hd

theorem Moves.idle (m : Moves k a s s') (ha : a ≠ some u) : Extends (NoActOf u) s s' :=
  m.extends.mono fun _ he hu => absurd (he.eq_some hu) ha

theorem idle_suspend (p : Phase) (w : Wait) (due : List Due) (verdict : Verdict) :
    Extends (NoActOf u) s (s.suspend t p w due verdict) :=
  extends_suspend.mono fun _ he => he.elim

theorem idle_finish (o : Outcome) : Extends (NoActOf u) s (s.finish t o) := by
  refine extends_finish.mono ?_
  rintro e ⟨x, rfl⟩ -
  rfl

theorem Turn.idle {task : Task} (turn : Turn s t task) (hne : t ≠ u) :
    Extends (NoActOf u) s (s.resume t) := by
  refine resume_of_moves (P := Extends (NoActOf u) s) turn (.of_eq rfl rfl) ?_ ?_ ?_
  · exact fun k s₁ s₂ _ m _ h => h.trans (m.idle fun he => hne (Option.some.inj he))
  · exact fun s₁ p w due verdict _ h => h.trans (idle_suspend p w due verdict)
  · exact fun s₁ o _ h => h.trans (idle_finish o)

theorem Aside.idle (m : Aside s s') (u : TaskId) : Extends (NoActOf u) s s' := by
  cases m with
  | move m => exact Moves.idle (.single m) nofun
  | spawn | turns => exact .of_eq rfl rfl
  | tell | note => exact .of_concat rfl rfl fun _ => rfl

end Idle

/-! ## Local snippets and the batch -/

/-- The entries of a dispatch: what `t` does is of a sort, and nothing is taken down. -/
structure IsDeed (t : TaskId) (sort : Happening → Prop) (e : Entry) : Prop where
  own : e.task = some t → e.what.isAct → sort e.what
  mute : e.what.isAnswer = false

section Deeds

variable {s s' : Session} {t : TaskId} {sort : Happening → Prop} {a : Option TaskId}

theorem isDeed_log (l : Log) : IsDeed t sort ⟨a, .log l⟩ := ⟨fun _ => nofun, rfl⟩

theorem isDeed_effect {e : Effect} (h : sort (.effect e)) : IsDeed t sort ⟨a, .effect e⟩ :=
  ⟨fun _ _ => h, rfl⟩

theorem IsDeed.mono {sort' : Happening → Prop} {e : Entry} (h : IsDeed t sort e)
    (himp : ∀ w, sort w → sort' w) : IsDeed t sort' e :=
  ⟨fun ht ha => himp _ (h.own ht ha), h.mute⟩

theorem acts_deeds {new : Journal} (h : ∀ e ∈ new, IsDeed t sort e) : ∀ w ∈ new.acts t, sort w := by
  intro w hw
  obtain ⟨he, ha⟩ := Journal.mem_acts.1 hw
  exact (h _ he).own rfl ha

theorem deeds_host (h : Host) : Extends (IsDeed t sort) s (s.withHost h) := .of_eq rfl rfl

theorem deeds_note (l : Log) : Extends (IsDeed t sort) s (s.note a l) :=
  .of_concat rfl rfl (isDeed_log l)

theorem deeds_recordAll {effects : List Effect} (h : ∀ e ∈ effects, sort (.effect e))
    (logs : List Log) :
    Extends (IsDeed t sort) s (s.recordAll a (effects.map .effect ++ logs.map .log)) := by
  refine ⟨by simp, _, by rw [recordAll_eq], ?_⟩
  intro e he
  obtain ⟨w, hw, rfl⟩ := List.mem_map.1 he
  rcases List.mem_append.1 hw with hw | hw
  · obtain ⟨x, hx, rfl⟩ := List.mem_map.1 hw
    exact isDeed_effect (h x hx)
  · obtain ⟨l, -, rfl⟩ := List.mem_map.1 hw
    exact isDeed_log l

/-- A notification is no act of anybody. -/
theorem deeds_notify : Extends (IsDeed t sort) s s.notify.1 := by
  refine notify_keeps (P := Extends (IsDeed t sort) s) (.refl s)
    (fun _ _ h => h.trans (.of_eq rfl rfl)) fun _ h => h.trans (.of_concat rfl rfl ?_)
  exact ⟨fun _ => nofun, rfl⟩

theorem deeds_runScripted (number emissions : Nat) (stops : Bool) (fault : Option Fault) :
    Extends (IsDeed t sort) s (s.runScripted number emissions stops fault).1 := by
  have hstop : ∀ s : Session, Extends (IsDeed t sort) s (if stops then s.stop else s) := by
    intro s
    split
    · exact .of_eq rfl rfl
    · exact .refl s
  unfold runScripted
  cases emissions with
  | zero => exact hstop s
  | succ n =>
    have hn : Extends (IsDeed t sort) s (s.withHost { s.host with
        handlers := s.host.handlers.set number (.scripted n stops fault) }).notify.1 :=
      (deeds_host _).trans deeds_notify
    dsimp only
    generalize (s.withHost { s.host with
      handlers := s.host.handlers.set number (.scripted n stops fault) }).notify = r at hn ⊢
    obtain ⟨s', _ | f⟩ := r
    · exact hn.trans (hstop s')
    · exact hn

theorem deeds_runReloading (number : Nat) (collections : List Value) :
    Extends (IsDeed t sort) s (s.runReloading t number collections).1 := by
  unfold runReloading
  split
  · exact .refl s
  · next v rest =>
    have hhost : Extends (IsDeed t sort) s (s.withHost { s.host with
      handlers := s.host.handlers.set number (.reloading rest) }) := deeds_host _
    dsimp only
    generalize s.withHost { s.host with
      handlers := s.host.handlers.set number (.reloading rest) } = s' at hhost ⊢
    split
    · exact hhost
    · next h =>
      unfold reloadSource at h
      split at h
      · cases h
      · cases h
        exact ((hhost.trans (deeds_host _)).trans (deeds_note _)).trans deeds_notify

/-- What a page does for a handler. -/
theorem isHandling_deeds (deeds : List Deed) :
    ∀ e ∈ deeds.filterMap Deed.effect?, e.isHandling := by
  intro e he
  obtain ⟨d, -, hd⟩ := List.mem_filterMap.1 he
  cases d with
  | ask i q => cases q <;> cases hd <;> rfl
  | observe | skip =>
    cases hd
    rfl
  | observed | notified | found | skipped => cases hd

/-- A handler that is called does what handlers do. -/
theorem deeds_callHandler (number : Nat) (snippet : Snippet Text) :
    Extends (IsDeed t (·.isHandling)) (s.record (some t) (.called number snippet))
      (s.callHandler t number snippet).1 := by
  unfold callHandler
  dsimp only
  generalize s.record (some t) (.called number snippet) = s'
  have hhandle : Extends (IsDeed t (·.isHandling)) s'
      (s'.effect (some t) (.handle snippet.name snippet.args)) :=
    .of_concat rfl rfl (isDeed_effect rfl)
  split
  · exact .refl s'
  · exact hhandle.trans (deeds_runScripted _ _ _ _)
  · exact hhandle.trans (deeds_runReloading _ _)
  · exact (deeds_host _).trans (deeds_recordAll (isHandling_deeds _) _)

/-- What running a batch does. -/
theorem deeds_invoke {world : World} {filters : List (List Text)} {failure : Option Failure}
    (h : s.invoke t world filters = .ok (s', failure)) :
    Extends (IsDeed t (·.isRunning)) s s' := by
  unfold invoke at h
  split at h
  · cases h
  · next r _ =>
    cases h
    refine (deeds_note _).trans ((deeds_host _).trans (deeds_recordAll ?_ _))
    intro e he
    cases r <;> simp_all [CompiledRunner.run, ScriptRunner.run, ScriptRunner.effect,
      Effect.isRunning, Happening.isRunning]

/-- Local snippets are carried out in order; all of them unless a failure cannot be contained. -/
structure Carries (t : TaskId) (s : Session) (snippets : List (Snippet Text)) (s' : Session)
    (r : Except Failure (List Text)) (new : Journal) : Prop where
  setup : s'.setup = s.setup
  journal : s'.journal = s.journal ++ new
  deeds : ∀ e ∈ new, IsDeed t (fun w => w.isCall ∨ w.isHandling) e
  calls : (new.acts t).filter Happening.isCall <+: snippets.filterMap s.setup.registry.called?
  all : ∀ errors, r = .ok errors →
    (new.acts t).filter Happening.isCall = snippets.filterMap s.setup.registry.called?
  broken : ∀ f, r = .error f → f.isContained = false

theorem filter_isCall_eq_nil {acts : List Happening} (h : ∀ w ∈ acts, w.isHandling) :
    acts.filter Happening.isCall = [] := by
  refine List.filter_eq_nil_iff.2 fun w hw => ?_
  have := h w hw
  cases w <;> simp_all [Happening.isHandling, Happening.isCall]

theorem Carries.skip {snippet : Snippet Text} {snippets : List (Snippet Text)}
    {r : Except Failure (List Text)} {new : Journal}
    (hn : s.setup.registry.called? snippet = none) (h : Carries t s snippets s' r new) :
    Carries t s (snippet :: snippets) s' r new := by
  refine ⟨h.setup, h.journal, h.deeds, ?_, ?_, h.broken⟩
  · rw [List.filterMap_cons_none hn]
    exact h.calls
  · rw [List.filterMap_cons_none hn]
    exact h.all

/-- The call of one handler, with what the handler does. -/
theorem acts_call (number : Nat) (snippet : Snippet Text) {deeds : Journal}
    (hd : ∀ e ∈ deeds, IsDeed t (·.isHandling) e) :
    (∀ e ∈ ⟨some t, .called number snippet⟩ :: deeds,
      IsDeed t (fun w => w.isCall ∨ w.isHandling) e) ∧
    (Journal.acts (⟨some t, .called number snippet⟩ :: deeds) t).filter Happening.isCall =
      [.called number snippet] := by
  constructor
  · intro e he
    rcases List.mem_cons.1 he with rfl | he
    · exact ⟨fun _ _ => .inl rfl, rfl⟩
    · exact (hd e he).mono fun _ => .inr
  · rw [Journal.acts_cons rfl, List.filter_cons_of_pos rfl, filter_isCall_eq_nil (acts_deeds hd)]

theorem Carries.call {number : Nat} {snippet : Snippet Text} {snippets : List (Snippet Text)}
    {r : Except Failure (List Text)} {s₁ : Session} {new : Journal}
    (hn : s.setup.registry.called? snippet = some (.called number snippet))
    (hx : Extends (IsDeed t (·.isHandling)) (s.record (some t) (.called number snippet)) s₁)
    (h : Carries t s₁ snippets s' r new) : ∃ new', Carries t s (snippet :: snippets) s' r new' := by
  obtain ⟨hs, deeds, hj, hd⟩ := hx
  have hsetup : s₁.setup = s.setup := hs
  obtain ⟨hdeeds, hcalls⟩ := acts_call number snippet hd
  have hacts : (Journal.acts (⟨some t, .called number snippet⟩ :: deeds ++ new) t).filter
      Happening.isCall = .called number snippet :: (new.acts t).filter Happening.isCall := by
    rw [Journal.acts_append, List.filter_append, hcalls]
    rfl
  refine ⟨⟨some t, .called number snippet⟩ :: deeds ++ new, h.setup.trans hsetup, ?_, ?_, ?_, ?_,
    h.broken⟩
  · rw [h.journal, hj]
    simp [record]
  · intro e he
    rcases List.mem_append.1 he with he | he
    · exact hdeeds e he
    · exact h.deeds e he
  · rw [hacts, List.filterMap_cons_some hn, ← hsetup]
    exact List.prefix_cons_inj _ |>.2 h.calls
  · intro errors hr
    rw [hacts, List.filterMap_cons_some hn, ← hsetup, h.all errors hr]

theorem carries_runLocals (errors : List Text) (snippets : List (Snippet Text)) :
    ∃ new, Carries t s snippets (s.runLocals t errors snippets).1
      (s.runLocals t errors snippets).2 new := by
  induction snippets generalizing s errors with
  | nil => exact ⟨[], rfl, by simp [runLocals], by simp, List.prefix_refl _, fun _ _ => rfl, nofun⟩
  | cons snippet rest ih =>
    unfold runLocals
    split
    · next hn =>
      obtain ⟨new, h⟩ := ih (s := s) errors
      exact ⟨new, h.skip (by simp [Registry.called?, hn])⟩
    · next hn =>
      obtain ⟨new, h⟩ := ih (s := s) errors
      exact ⟨new, h.skip (by simp [Registry.called?, hn])⟩
    · next number hn =>
      have hsome : s.setup.registry.called? snippet = some (.called number snippet) := by
        simp [Registry.called?, hn]
      have hx := deeds_callHandler (s := s) (t := t) number snippet
      generalize s.callHandler t number snippet = q at hx ⊢
      obtain ⟨s₁, _ | ⟨f, message⟩⟩ := q
      · obtain ⟨new, h⟩ := ih (s := s₁) errors
        exact h.call hsome hx
      · dsimp only
        split_ifs with hf
        · obtain ⟨new, h⟩ := ih (s := s₁.note (some t)
              (.warning (text "Local snippet " ++ snippet.name.quoted ++ text " failed")))
            (errors ++ [snippet.name ++ text ": " ++ message])
          exact h.call hsome (hx.trans (deeds_note _))
        · -- the failure passes through: nothing follows this call
          obtain ⟨hs, deeds, hj, hd⟩ := hx
          obtain ⟨hdeeds, hcalls⟩ := acts_call number snippet hd
          refine ⟨⟨some t, .called number snippet⟩ :: deeds, hs, ?_, hdeeds, ?_, ?_, ?_⟩
          · rw [hj]
            simp [record]
          · rw [hcalls, List.filterMap_cons_some hsome]
            exact ⟨_, rfl⟩
          · rintro _ ⟨⟩
          · rintro f' ⟨⟩
            simpa using hf

end Deeds

end Session

end Snippets
