import Snippets.Proofs.Event.Rounds
import Snippets.Proofs.Rules.Reloading
import Snippets.Rules.Workspace

/-!
# The rule source over a history

Whatever is done in a workspace, its source is the last one that was made, and the source's
collection is the last one that it was given: when it was made, or by a reload that had a collection
or could read the file (`run_last`). A reload that cannot read the file leaves everything as it was;
any other reload tells all listeners, and they find the collection that it has brought
(`act_reload_cases`). `source_history` puts these together.
-/

namespace Snippets

/-- What a reload leaves as it is. -/
def RuleSource.origin (s : RuleSource) : Option Path × Value := (s.path, s.whitelisted)

/-! ## One reload -/

namespace LiveSource

open Event (Turn Rounds)

/-- From `s` to `s'` the listeners that were registered had these turns, and everybody who was
called found the collection that `s'` holds. -/
structure Notified (s s' : LiveSource) (turns : List Turn) (fault : Option Fault) : Prop where
  rounds : Rounds s.event.registered turns fault
  plain : ∀ t ∈ turns, t.Plain s.event
  calls : s'.event.calls = s.event.calls ++ turns.flatMap Turn.calls
  found : s'.found = s.found ++ (turns.flatMap Turn.calls).map (·, s'.source.snippets)

theorem notified_emit (s : LiveSource) (source : RuleSource) :
    ∃ turns, Notified s { s with source }.emit.1 turns { s with source }.emit.2 := by
  obtain ⟨turns, hrounds, hcalls, hplain⟩ := Event.rounds_emit s.event
  refine ⟨turns, hrounds, hplain, hcalls, ?_⟩
  show s.found ++ (s.event.emit.1.calls.drop s.event.calls.length).map _ = _
  rw [hcalls, List.drop_left]
  rfl

theorem reload_eq (s : LiveSource) (files : Tree) (v : Value) :
    s.reload files v = (s.source.reload files v).map fun source => { s with source }.emit := by
  unfold reload
  cases s.source.reload files v <;> rfl

end LiveSource

namespace Workspace

open LiveSource (Notified)
open Event (Turn)

variable {w : Workspace} {s : LiveSource} {α : Type}

theorem act_reload (hs : w.current = some s) (v : Value) :
    w.act (.reload v) =
      match s.source.reload w.files v with
      | .ok source => ({ w with current := some { s with source }.emit.1 },
          { s with source }.emit.2.map .listener)
      | .error e => (w, some (.load e)) := by
  unfold act
  dsimp only
  rw [hs]
  dsimp only
  rw [LiveSource.reload_eq]
  cases s.source.reload w.files v <;> rfl

/-- The collection that a reload brings a source, if it brings one: what it is given, or else what
the file holds. -/
def brought (files : Tree) (path : Option Path) : Value → Option Value
  | .null => path.bind fun path =>
      (MappingFile.load files .rules path).toOption.map RuleSource.snippetsIn
  | v => some v

/-- A reload fails to read the file, or it takes place: then it brings a collection, or has neither
a collection nor a file to read, and the listeners are told in either case. -/
theorem act_reload_cases (hs : w.current = some s) (v : Value) :
    (∃ path e, v = .null ∧ s.source.path = some path ∧
        MappingFile.load w.files .rules path = .error e ∧
        w.act (.reload v) = (w, some (.load e))) ∨
      ∃ s' turns fault, w.act (.reload v) =
          ({ w with current := some s' }, fault.map .listener) ∧
        s'.source = { s.source with
          snippets := (brought w.files s.source.path v).getD s.source.snippets } ∧
        (brought w.files s.source.path v = none → v = .null ∧ s.source.path = none) ∧
        Notified s s' turns fault := by
  have hact := act_reload hs v
  obtain ⟨hv, hreload⟩ | ⟨rfl, hnone, hreload⟩ | ⟨rfl, path, hpath, hreload⟩ :=
    s.source.reload_cases w.files v
  · rw [hreload] at hact
    have hbrought : brought w.files s.source.path v = some v := by
      cases v with
      | null => exact absurd rfl hv
      | bool | int | real | text | list | tuple | map => rfl
    obtain ⟨turns, hnotified⟩ := s.notified_emit { s.source with snippets := v }
    refine .inr ⟨_, turns, _, hact, ?_, ?_, hnotified⟩
    · rw [hbrought]
      rfl
    · rw [hbrought]
      nofun
  · rw [hreload] at hact
    have hbrought : brought w.files s.source.path .null = none := by
      rw [hnone]
      rfl
    obtain ⟨turns, hnotified⟩ := s.notified_emit s.source
    refine .inr ⟨_, turns, _, hact, ?_, fun _ => ⟨rfl, hnone⟩, hnotified⟩
    rw [hbrought]
    rfl
  · rw [hreload] at hact
    cases hload : MappingFile.load w.files .rules path with
    | error e =>
      rw [hload] at hact
      exact .inl ⟨path, e, rfl, hpath, hload, hact⟩
    | ok entries =>
      rw [hload] at hact
      have hbrought : brought w.files s.source.path .null =
          some (RuleSource.snippetsIn entries) := by
        rw [hpath, brought, Option.bind_some, hload]
        rfl
      obtain ⟨turns, hnotified⟩ := s.notified_emit { s.source with
        snippets := RuleSource.snippetsIn entries }
      refine .inr ⟨_, turns, _, hact, ?_, ?_, hnotified⟩
      · rw [hbrought]
        rfl
      · rw [hbrought]
        nofun

/-! ## Histories -/

/-- The source that an action makes, if it succeeds in that. -/
def made (w : Workspace) : Action → Option RuleSource
  | .create snippets whitelisted _ => some (.new snippets whitelisted)
  | .openFile path _ => (RuleSource.ofFile w.files path).toOption
  | _ => none

/-- The collection that an action gives the current source. A source that is made has one. -/
def given (w : Workspace) : Action → Option Value
  | .reload v => w.current.bind fun s => brought w.files s.source.path v
  | a => (w.made a).map RuleSource.snippets

/-- What `f` gets from the last of the actions from which it gets anything. It sees each of them in
the workspace in which it is carried out. -/
def last? (f : Workspace → Action → Option α) : Workspace → List Action → Option α
  | _, [] => none
  | w, a :: actions => (last? f (w.act a).1 actions).or (f w a)

theorem last?_map {β : Type} (f : Workspace → Action → Option α) (g : α → β) (w : Workspace)
    (actions : List Action) :
    last? (fun w a => (f w a).map g) w actions = (last? f w actions).map g := by
  induction actions generalizing w with
  | nil => rfl
  | cons a actions ih => rw [last?, last?, ih, Option.map_or]

/-- What every action either changes to what `f` gets from it or leaves as it is, a history has
changed to what `f` gets last. -/
theorem run_last {f : Workspace → Action → Option α} {g : LiveSource → α}
    (hact : ∀ w a, (w.act a).1.current.map g = (f w a).or (w.current.map g)) (w : Workspace)
    (actions : List Action) :
    (w.run actions).current.map g = (last? f w actions).or (w.current.map g) := by
  induction actions generalizing w with
  | nil => rfl
  | cons a actions ih =>
    show ((w.act a).1.run actions).current.map g = _
    rw [ih, hact, last?, Option.or_assoc]

/-- Making a source succeeds, or changes nothing. -/
theorem act_openFile (w : Workspace) (path : Path) (event : Event) :
    w.act (.openFile path event) =
      match RuleSource.ofFile w.files path with
      | .ok source => ({ w with current := some { source, event } }, none)
      | .error e => (w, some (.load e)) := rfl

theorem act_reload_none (h : w.current = none) (v : Value) :
    w.act (.reload v) = (w, some .noSource) := by
  unfold act
  dsimp only
  rw [h]

theorem origin_act (w : Workspace) (a : Action) :
    ((w.act a).1.current.map fun s => s.source.origin) =
      ((w.made a).map RuleSource.origin).or (w.current.map fun s => s.source.origin) := by
  cases a with
  | write | delete | create => rfl
  | openFile path event =>
    rw [act_openFile, made]
    cases RuleSource.ofFile w.files path <;> rfl
  | reload v =>
    show _ = w.current.map fun s => s.source.origin
    cases hs : w.current with
    | none => rw [act_reload_none hs, hs]
    | some s =>
      obtain ⟨path, e, -, -, -, hact⟩ | ⟨s', turns, fault, hact, hsource, -⟩ :=
        act_reload_cases hs v
      · rw [hact, hs]
      · rw [hact]
        show some s'.source.origin = some s.source.origin
        rw [hsource]
        rfl

theorem snippets_act (w : Workspace) (a : Action) :
    ((w.act a).1.current.map fun s => s.source.snippets) =
      (w.given a).or (w.current.map fun s => s.source.snippets) := by
  cases a with
  | write | delete | create => rfl
  | openFile path event =>
    rw [act_openFile]
    dsimp only [given, made]
    cases RuleSource.ofFile w.files path <;> rfl
  | reload v =>
    cases hs : w.current with
    | none =>
      rw [act_reload_none hs, given, hs]
      rfl
    | some s =>
      rw [given, hs, Option.bind_some]
      obtain ⟨path, e, rfl, hpath, hload, hact⟩ | ⟨s', turns, fault, hact, hsource, -⟩ :=
        act_reload_cases hs v
      · rw [hact, hs, hpath, brought, Option.bind_some, hload]
        rfl
      · rw [hact]
        show some s'.source.snippets = _
        rw [hsource]
        cases brought w.files s.source.path v <;> rfl

/-- Over any history the source is the last that was made, with its path and its flag, and has the
collection that it was given last. Making a source from a file that cannot be loaded changes
nothing, and neither does a reload that cannot read the file. Any other reload changes the
collection only, and keeps it if there is neither a collection nor a file; then everybody who is
registered is called in turn, up to the first that fails, and finds the collection that is there
after the reload. -/
theorem source_history (w : Workspace) :
    (∀ actions, ((w.run actions).current.map fun s => s.source.origin) =
        ((last? made w actions).or (w.current.map LiveSource.source)).map RuleSource.origin ∧
      ((w.run actions).current.map fun s => s.source.snippets) =
        (last? given w actions).or (w.current.map fun s => s.source.snippets)) ∧
    (∀ path event e, RuleSource.ofFile w.files path = .error e →
      w.act (.openFile path event) = (w, some (.load e))) ∧
    ∀ s v, w.current = some s →
      (∃ path e, v = .null ∧ s.source.path = some path ∧
        (w.files.holds path = false ∧ e = .missing .rules path ∨
          MappingFile.Reading w.files .rules path (.error e)) ∧
        w.act (.reload v) = (w, some (.load e))) ∨
      ∃ s' turns fault, w.act (.reload v) =
          ({ w with current := some s' }, fault.map .listener) ∧
        s'.source = { s.source with
          snippets := (brought w.files s.source.path v).getD s.source.snippets } ∧
        (brought w.files s.source.path v = none → v = .null ∧ s.source.path = none) ∧
        Notified s s' turns fault := by
  refine ⟨fun actions => ⟨?_, run_last snippets_act w actions⟩, ?_, ?_⟩
  · rw [run_last origin_act w actions, last?_map, Option.map_or, Option.map_map]
    rfl
  · intro path event e h
    rw [act_openFile, h]
  · intro s v hs
    obtain ⟨path, e, hv, hpath, hload, hact⟩ | htold := act_reload_cases hs v
    · refine .inl ⟨path, e, hv, hpath, ?_, hact⟩
      obtain ⟨hholds, hmissing⟩ | ⟨-, hreading⟩ := MappingFile.load_cases w.files .rules path
      · rw [hload] at hmissing
        cases hmissing
        exact .inl ⟨hholds, rfl⟩
      · rw [hload] at hreading
        exact .inr hreading
    · exact .inr htold

/-- A file is opened, its source is given another collection, and the file is removed. -/
def sampleActions : List Action :=
  [.openFile RuleSource.samplePath {}, .reload (.list [.text (text "b")]),
    .delete RuleSource.samplePath]

def sampleWorkspace : Workspace := { files := RuleSource.sampleRules "snippets: [a]" }

theorem source_history_sampleActions :
    ∃ s, (sampleWorkspace.run sampleActions).current = some s ∧
      s.source.path = some RuleSource.samplePath ∧
      s.source.snippets = .list [.text (text "b")] := by
  obtain ⟨s₀, hmade⟩ := RuleSource.ofFile_sampleRules
  -- nothing but `hmade` is to be known of the files
  obtain ⟨w, hw⟩ : ∃ w, w = sampleWorkspace := ⟨_, rfl⟩
  have hfile : RuleSource.ofFile w.files RuleSource.samplePath = .ok s₀ := by
    rw [hw, sampleWorkspace, hmade]
  have hopen : w.act (.openFile RuleSource.samplePath {}) =
      ({ w with current := some { source := s₀ } }, none) := by
    rw [act_openFile, hfile]
  have hlast : last? made w sampleActions = some s₀ := by
    show (RuleSource.ofFile w.files RuleSource.samplePath).toOption = some s₀
    rw [hfile]
    rfl
  have hgiven : last? given w sampleActions = some (.list [.text (text "b")]) := by
    show (given (w.act (.openFile RuleSource.samplePath {})).1 (.reload _)).or _ = _
    rw [hopen]
    rfl
  obtain ⟨hhistory, -⟩ := source_history w
  obtain ⟨horigin, hsnippets⟩ := hhistory sampleActions
  rw [hlast] at horigin
  rw [hgiven] at hsnippets
  rw [← hw]
  obtain ⟨s, hs, hpath⟩ := Option.map_eq_some_iff.1 horigin
  rw [hs] at hsnippets
  refine ⟨s, hs, ?_, Option.some.inj hsnippets⟩
  exact (congrArg Prod.fst hpath).trans (RuleSource.path_ofFile hmade)

end Workspace

end Snippets
