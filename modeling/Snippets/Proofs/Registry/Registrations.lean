import Mathlib.Data.List.Nodup
import Mathlib.Tactic.SplitIfs
import Snippets.Proofs.Session.Blocks

/-!
# Registries over whole histories

A registry holds what was registered before it was first frozen, but for empty names
(`handlers_run`): its names stand in the order in which they first came, each with the handler that
came last. No name is ever taken out of it again, so whatever a dispatch takes for local still has a
handler when its turn comes (`resolve_of_local`), and none of it is passed over (`runAll_eq`).
`registry_history` puts these together.
-/

namespace Snippets

/-! ## Filling an association list -/

namespace Assoc

variable {κ α : Type} [DecidableEq κ]

/-- Puts entries into a list, one after another. -/
def putAll (l entries : List (κ × α)) : List (κ × α) :=
  entries.foldl (fun l e => put e.1 e.2 l) l

theorem putAll_concat (l entries : List (κ × α)) (e : κ × α) :
    putAll l (entries ++ [e]) = put e.1 e.2 (putAll l entries) :=
  List.foldl_append

theorem nodup_putAll (entries : List (κ × α)) : ((putAll [] entries).map Prod.fst).Nodup := by
  induction entries using List.reverseRecOn with
  | nil => exact List.nodup_nil
  | append_singleton entries e ih =>
    rw [putAll_concat, map_fst_put]
    split_ifs with h
    · exact ih
    · exact List.concat_eq_append ▸ ih.concat h

variable [BEq κ] [LawfulBEq κ]

/-- The keys stand in the order in which they first came. -/
theorem map_fst_putAll (entries : List (κ × α)) :
    (putAll [] entries).map Prod.fst = (entries.map Prod.fst).eraseDups := by
  induction entries using List.reverseRecOn with
  | nil => rfl
  | append_singleton entries e ih =>
    rw [putAll_concat, map_fst_put, ih, List.map_append, List.eraseDups_append]
    simp only [List.mem_eraseDups]
    split_ifs with h
    · simp [List.removeAll, h]
    · simp [List.removeAll, h, List.eraseDups_cons]

/-- Under each key stands what came last. -/
theorem lookup_putAll (entries : List (κ × α)) (key : κ) :
    (putAll [] entries).lookup key = entries.reverse.lookup key := by
  induction entries using List.reverseRecOn with
  | nil => rfl
  | append_singleton entries e ih =>
    obtain ⟨k, v⟩ := e
    rw [putAll_concat, List.reverse_concat, List.lookup_cons]
    by_cases h : key = k
    · subst h
      rw [lookup_put_self, beq_self_eq_true]
    · rw [lookup_put_of_ne h, ih, beq_false_of_ne h]

end Assoc

/-! ## Histories -/

namespace Registry

variable {η : Type}

/-- What is done to a registry. -/
inductive Act (η : Type) where
  | register (name : Text) (handler : η)
  | freeze

/-- Does something to a registry. A registration that is refused changes nothing. -/
def act (r : Registry η) : Act η → Registry η × Option RegisterError
  | .register name handler =>
    match r.register name handler with
    | .ok r' => (r', none)
    | .error e => (r, some e)
  | .freeze => (r.freeze, none)

def run (r : Registry η) (acts : List (Act η)) : Registry η :=
  acts.foldl (fun r a => (r.act a).1) r

/-- The registrations that count: those under a name, before the first freezing. -/
def registrations : List (Act η) → List (Text × η)
  | [] => []
  | .freeze :: _ => []
  | .register name handler :: rest =>
    if name = [] then registrations rest else (name, handler) :: registrations rest

section Run

variable {r : Registry η} {name : Text} {handler : η}

theorem run_cons (r : Registry η) (a : Act η) (acts : List (Act η)) :
    r.run (a :: acts) = (r.act a).1.run acts := rfl

theorem act_of_frozen (hname : name ≠ []) (hr : r.frozen) :
    r.act (.register name handler) = (r, some (.frozen name)) := by
  simp [act, register, hname, hr]

theorem act_of_open (hname : name ≠ []) (hr : r.frozen = false) :
    r.act (.register name handler) =
      ({ r with handlers := Assoc.put name handler r.handlers }, none) := by
  simp [act, register, hname, hr]

/-- A frozen registry stays as it is. -/
theorem run_of_frozen (hr : r.frozen) (acts : List (Act η)) : r.run acts = r := by
  induction acts with
  | nil => rfl
  | cons a acts ih =>
    have hact : (r.act a).1 = r := by
      cases a with
      | register name handler =>
        by_cases hname : name = []
        · subst hname
          rfl
        · rw [act_of_frozen hname hr]
      | freeze =>
        obtain ⟨handlers, _⟩ := r
        cases hr
        rfl
    rw [run_cons, hact, ih]

/-- An open registry takes up the registrations that count, and is frozen by the first freezing. -/
theorem run_of_open (hr : r.frozen = false) (acts : List (Act η)) :
    (r.run acts).handlers = Assoc.putAll r.handlers (registrations acts) ∧
      ((r.run acts).frozen ↔ .freeze ∈ acts) := by
  induction acts generalizing r with
  | nil => exact ⟨rfl, by simp [run, hr]⟩
  | cons a acts ih =>
    rw [run_cons]
    cases a with
    | freeze =>
      have hfreeze : (r.act .freeze).1.run acts = r.freeze := run_of_frozen rfl acts
      rw [hfreeze]
      exact ⟨rfl, by simp [freeze]⟩
    | register name handler =>
      rw [registrations]
      by_cases hname : name = []
      · subst hname
        have hsame : (r.act (.register [] handler)).1 = r := rfl
        rw [hsame, if_pos rfl]
        obtain ⟨hhandlers, hfrozen⟩ := ih hr
        exact ⟨hhandlers, by simpa using hfrozen⟩
      · rw [act_of_open hname hr, if_neg hname]
        obtain ⟨hhandlers, hfrozen⟩ :=
          ih (r := { r with handlers := Assoc.put name handler r.handlers }) hr
        exact ⟨hhandlers, by simpa using hfrozen⟩

/-- Registrations that count go on counting. -/
theorem prefix_registrations (acts later : List (Act η)) :
    registrations acts <+: registrations (acts ++ later) := by
  induction acts with
  | nil => exact List.nil_prefix
  | cons a acts ih =>
    cases a with
    | freeze => exact List.prefix_refl _
    | register name handler =>
      rw [List.cons_append, registrations, registrations]
      split_ifs
      · exact ih
      · exact (List.prefix_cons_inj _).2 ih

theorem resolve_run (acts : List (Act η)) (name : Text) :
    (({} : Registry η).run acts).resolve name = (registrations acts).reverse.lookup name := by
  unfold resolve
  rw [(run_of_open rfl acts).1]
  exact Assoc.lookup_putAll _ _

theorem names_run (acts : List (Act η)) :
    (({} : Registry η).run acts).names = ((registrations acts).map Prod.fst).eraseDups := by
  unfold names
  rw [(run_of_open rfl acts).1]
  exact Assoc.map_fst_putAll _

theorem nodup_names_run (acts : List (Act η)) : (({} : Registry η).run acts).names.Nodup := by
  unfold names
  rw [(run_of_open rfl acts).1]
  exact Assoc.nodup_putAll _

theorem contains_iff : r.contains name ↔ name ∈ r.names := List.contains_iff_mem

end Run

/-! ## Dispatching -/

/-- What is local when a queue is split has a handler from then on, if nothing was registered
without one. -/
theorem resolve_of_local {α : Type} {acts later : List (Act (Option α))}
    (h : ∀ e ∈ registrations (acts ++ later), e.2 ≠ none) {queue : List (Snippet Text)}
    {snippet : Snippet Text}
    (hs : snippet ∈ (Partition.of (({} : Registry (Option α)).run acts) queue).locals) :
    ∃ handler, (({} : Registry (Option α)).run (acts ++ later)).resolve snippet.name =
      some (some handler) := by
  have hname : snippet.name ∈ (registrations acts).map Prod.fst := by
    have hcontains := contains_iff.1 (List.mem_filter.1 hs).2
    rwa [names_run, List.mem_eraseDups] at hcontains
  have hlater : snippet.name ∈ (registrations (acts ++ later)).reverse.map Prod.fst := by
    rw [List.map_reverse, List.mem_reverse]
    exact ((prefix_registrations acts later).map Prod.fst).subset hname
  rw [resolve_run]
  cases hlookup : (registrations (acts ++ later)).reverse.lookup snippet.name with
  | none =>
    obtain ⟨e, he, hkey⟩ := List.mem_map.1 hlater
    have hne := List.lookup_eq_none_iff.1 hlookup e he
    simp [hkey] at hne
  | some entry =>
    obtain ⟨before, after, heq, -⟩ := List.lookup_eq_some_iff.1 hlookup
    have hmem : (snippet.name, entry) ∈ registrations (acts ++ later) := by
      rw [← List.mem_reverse, heq]
      simp
    obtain ⟨handler, rfl⟩ := Option.ne_none_iff_exists'.1 (h _ hmem)
    exact ⟨handler, rfl⟩

end Registry

namespace Session

/-- Carries out local snippets in order as `runLocals` does, but gives up at one without a handler
instead of passing it over. -/
def runAll (s : Session) (t : TaskId) (errors : List Text) :
    List (Snippet Text) → Option (Session × Except Failure (List Text))
  | [] => some (s, .ok errors)
  | snippet :: rest =>
    match s.setup.registry.resolve snippet.name with
    | none | some none => none
    | some (some number) =>
      match s.callHandler t number snippet with
      | (s, none) => s.runAll t errors rest
      | (s, some (f, message)) =>
        if f.isContained then
          (s.note (some t) (failedNote snippet)).runAll t
            (errors ++ [snippet.name ++ text ": " ++ message]) rest
        else some (s, .error f)

/-- Where every snippet has a handler, none is passed over. -/
theorem runAll_eq {s : Session} {t : TaskId} (errors : List Text) (snippets : List (Snippet Text))
    (h : ∀ snippet ∈ snippets, ∃ number, s.setup.registry.resolve snippet.name =
      some (some number)) :
    s.runAll t errors snippets = some (s.runLocals t errors snippets) := by
  induction snippets generalizing s errors with
  | nil => rfl
  | cons snippet rest ih =>
    rw [List.forall_mem_cons] at h
    obtain ⟨⟨number, hnumber⟩, hrest⟩ := h
    have hsetup : (s.callHandler t number snippet).1.setup = s.setup :=
      (moves_callHandler (k := .plain) (t := t) (s := s) number snippet).extends.setup
    unfold runAll runLocals
    rw [hnumber]
    dsimp only
    generalize s.callHandler t number snippet = q at hsetup ⊢
    obtain ⟨s', _ | ⟨f, message⟩⟩ := q
    · exact ih errors (hsetup ▸ hrest)
    · dsimp only
      split_ifs
      · exact ih _ (hsetup ▸ hrest)
      · rfl

end Session

namespace Registry

/-- Over any history a registry holds the names that were registered before it was first frozen,
each once and in the order in which they first came, and under each name the handler that came last.
An empty name is refused at any time and every name after the first freezing, which changes nothing.
What is local when a queue is split has a handler from then on, unless something was registered
without one; so a dispatch passes no local snippet over. -/
theorem registry_history :
    (∀ (η : Type) (acts : List (Act η)),
      let r := ({} : Registry η).run acts
      (r.names = ((registrations acts).map Prod.fst).eraseDups ∧ r.names.Nodup) ∧
        (∀ name, r.resolve name = (registrations acts).reverse.lookup name) ∧
        (∀ name, r.contains name ↔ name ∈ r.names) ∧ r.size = r.names.length ∧
        (r.frozen ↔ .freeze ∈ acts) ∧
        ∀ name handler,
          (name = [] → r.act (.register name handler) = (r, some .emptyName)) ∧
          (name ≠ [] → .freeze ∈ acts →
            r.act (.register name handler) = (r, some (.frozen name))) ∧
          (name ≠ [] → .freeze ∉ acts → (r.act (.register name handler)).2 = none)) ∧
    (∀ (α : Type) (acts later : List (Act (Option α))) (queue : List (Snippet Text)),
      (∀ e ∈ registrations (acts ++ later), e.2 ≠ none) →
        ∀ snippet ∈ (Partition.of (({} : Registry (Option α)).run acts) queue).locals,
          ∃ handler, (({} : Registry (Option α)).run (acts ++ later)).resolve snippet.name =
            some (some handler)) ∧
    ∀ (acts : List (Act (Option Nat))) (s : Session) (t : TaskId) (errors : List Text),
      (∀ e ∈ registrations acts, e.2 ≠ none) → s.setup.registry = ({} : Registry _).run acts →
        s.runAll t errors s.partition.locals = some (s.runLocals t errors s.partition.locals) := by
  refine ⟨fun η acts => ?_, ?_, ?_⟩
  · obtain ⟨-, hfrozen⟩ := run_of_open (η := η) (r := {}) rfl acts
    refine ⟨⟨names_run acts, nodup_names_run acts⟩, resolve_run acts, fun _ => contains_iff,
      (List.length_map _).symm, hfrozen, fun name handler => ⟨?_, ?_, ?_⟩⟩
    · rintro rfl
      rfl
    · exact fun hname hfreeze => act_of_frozen hname (hfrozen.2 hfreeze)
    · intro hname hfreeze
      rw [act_of_open hname (Bool.eq_false_iff.2 fun h => hfreeze (hfrozen.1 h))]
  · exact fun α acts later queue h snippet hs => resolve_of_local h hs
  · intro acts s t errors h hregistry
    refine Session.runAll_eq errors _ fun snippet hs => ?_
    rw [Session.partition, hregistry] at hs
    rw [hregistry]
    have hall : ∀ e ∈ registrations (acts ++ []), e.2 ≠ none := by simpa using h
    simpa using resolve_of_local hall hs

/-- One of two names is registered again; an empty name and a late one are refused. -/
def sampleActs : List (Act (Option Nat)) :=
  [.register (text "a") (some 1), .register (text "b") (some 2), .register (text "a") (some 3),
    .register [] (some 4), .freeze, .register (text "c") (some 5)]

def sampleRegistered : Registry (Option Nat) := ({} : Registry (Option Nat)).run sampleActs

def sampleDispatching : Session :=
  { Session.sample with
    setup := { Session.sample.setup with registry := sampleRegistered }
    queue := [⟨text "b", []⟩, ⟨text "c", []⟩] }

theorem registry_history_sampleActs :
    (∀ e ∈ registrations sampleActs, e.2 ≠ none) ∧
      sampleRegistered.names = [text "a", text "b"] ∧
      sampleRegistered.resolve (text "a") = some (some 3) ∧
      sampleRegistered.act (.register (text "d") none) =
        (sampleRegistered, some (.frozen (text "d"))) ∧
      sampleDispatching.partition.locals = [⟨text "b", []⟩] ∧
      sampleDispatching.runAll 0 [] sampleDispatching.partition.locals =
        some (sampleDispatching.runLocals 0 [] sampleDispatching.partition.locals) := by
  obtain ⟨hhistory, -, hdispatch⟩ := registry_history
  obtain ⟨⟨hnames, -⟩, hresolve, -, -, -, hact⟩ := hhistory (Option Nat) sampleActs
  have hsome : ∀ e ∈ registrations sampleActs, e.2 ≠ none := by decide +kernel
  refine ⟨hsome, hnames.trans (by decide +kernel), (hresolve _).trans (by decide +kernel), ?_,
    by decide +kernel, hdispatch sampleActs sampleDispatching 0 [] hsome rfl⟩
  exact (hact (text "d") none).2.1 (by decide +kernel) (by simp [sampleActs])

end Registry

end Snippets
