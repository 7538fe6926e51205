import Mathlib.Logic.Relation
import Snippets.Proofs.File.Loading
import Snippets.Proofs.Session.Accounting

/-!
# Reloading a rules file and loading it anew

A reload keeps everything about a source but its collection (`reload_cases`), so a source that was
made from a file still reads that file after any reloads. What it finds there becomes its collection
as it is, whereas a source that is made from the file takes an empty list for null. So the two agree
on every document but those that hold null under `snippets`. There the next cycle of the reloaded
source finds that it has no rules, and that of the new one goes on with an empty list
(`reload_eq_ofFile_iff`).
-/

namespace Snippets

namespace RuleSource

open MappingFile (LoadError)

variable {s s' : RuleSource} {files : Tree} {path : Path} {v : Value}

/-! ## One reload -/

/-- A reload takes the given collection, or else what the file holds, or else it changes nothing. -/
theorem reload_cases (s : RuleSource) (files : Tree) (v : Value) :
    (v ≠ .null ∧ s.reload files v = .ok { s with snippets := v }) ∨
      (v = .null ∧ s.path = none ∧ s.reload files v = .ok s) ∨
      (v = .null ∧ ∃ path, s.path = some path ∧
        s.reload files v = (MappingFile.load files .rules path).map fun entries =>
          { s with snippets := snippetsIn entries }) := by
  unfold reload
  split
  · next path hpath =>
    refine .inr (.inr ⟨rfl, path, hpath, ?_⟩)
    cases MappingFile.load files .rules path <;> rfl
  · next hpath => exact .inr (.inl ⟨rfl, hpath, rfl⟩)
  · next hread hmemory =>
    refine .inl ⟨?_, rfl⟩
    rintro rfl
    cases hpath : s.path with
    | none => exact hmemory rfl hpath
    | some path => exact hread path rfl hpath

theorem reload_read (h : s.path = some path) (files : Tree) :
    s.reload files .null = (MappingFile.load files .rules path).map fun entries =>
      { s with snippets := snippetsIn entries } := by
  obtain ⟨hv, -⟩ | ⟨-, hnone, -⟩ | ⟨-, path', hpath, hreload⟩ := reload_cases s files .null
  · exact absurd rfl hv
  · rw [hnone] at h
    cases h
  · rw [h] at hpath
    cases hpath
    exact hreload

theorem path_reload (h : s.reload files v = .ok s') : s'.path = s.path := by
  obtain ⟨-, hreload⟩ | ⟨-, -, hreload⟩ | ⟨-, path, -, hreload⟩ := reload_cases s files v <;>
    rw [hreload] at h
  · cases h
    rfl
  · cases h
    rfl
  · cases hload : MappingFile.load files .rules path <;> rw [hload] at h <;> cases h
    rfl

/-! ## Making a source from a file -/

/-- A source of a file, made from the entries there. -/
def ofEntries (path : Path) (entries : List (Value × Value)) : RuleSource :=
  { new (some (snippetsIn entries)) (.bool (whitelistedIn entries)) with path := some path }

theorem ofFile_eq (files : Tree) (path : Path) :
    ofFile files path = (MappingFile.load files .rules path).map (ofEntries path) := by
  unfold ofFile
  cases MappingFile.load files .rules path <;> rfl

theorem path_ofFile (h : ofFile files path = .ok s) : s.path = some path := by
  rw [ofFile_eq] at h
  cases hload : MappingFile.load files .rules path <;> rw [hload] at h <;> cases h
  rfl

/-- A collection is taken as it is, unless it is null. -/
theorem snippets_new (h : v ≠ .null) (whitelisted : Value) :
    (new (some v) whitelisted).snippets = v := by
  cases v with
  | null => exact absurd rfl h
  | bool | int | real | text | list | tuple | map => rfl

theorem snippetsIn_eq_null_iff {entries : List (Value × Value)} :
    snippetsIn entries = .null ↔ Value.lookup (text "snippets") entries = some .null := by
  unfold snippetsIn
  cases Value.lookup (text "snippets") entries with
  | none => exact iff_of_false nofun nofun
  | some v => exact Option.some_inj.symm

/-- A new source of a file takes an empty list for null. -/
theorem snippets_ofEntries_of_null {entries : List (Value × Value)}
    (h : snippetsIn entries = .null) (path : Path) :
    (ofEntries path entries).snippets = .list [] := by
  rw [ofEntries, h]
  rfl

/-- A new source of a file takes anything but null as it is. -/
theorem snippets_ofEntries {entries : List (Value × Value)} (h : snippetsIn entries ≠ .null)
    (path : Path) : (ofEntries path entries).snippets = snippetsIn entries :=
  snippets_new h (.bool (whitelistedIn entries))

/-! ## Any number of reloads -/

/-- One source comes from another by reloads, each with any collection and any files. -/
abbrev Reloads : RuleSource → RuleSource → Prop :=
  Relation.ReflTransGen fun s s' => ∃ files v, s.reload files v = .ok s'

theorem Reloads.path_eq (h : Reloads s s') : s'.path = s.path := by
  induction h with
  | refl => rfl
  | tail _ step ih =>
    obtain ⟨files, v, hreload⟩ := step
    exact (path_reload hreload).trans ih

end RuleSource

/-! ## What a cycle makes of a collection -/

namespace Session

/-- The session with another rule source. -/
def sourced (s : Session) (r : RuleSource) : Session := s.withHost { s.host with source := r }

variable {s : Session} {r : RuleSource}

/-- A source without rules ends a cycle. -/
theorem takeRules_of_items?_eq_none {v : Value} (hs : s.host.snippets = .ok v)
    (hv : v.items? = none) (t : TaskId) : (s.takeRules t).2 =
      .ends (.ok (.report { status := .noRules, queued := s.queue.length })) := by
  unfold takeRules
  rw [hs]
  dsimp only
  rw [hv]
  rfl

/-- A cycle that has rules to go by, be it an empty list of them, does not report that it has
none. -/
theorem RulesBlock.status_ne {m : Session} {t : TaskId} {block : Session × Progress}
    {rules : List Value} (h : RulesBlock t m block) (hrules : m.host.rules? = some rules)
    {report : Report} (hreport : block.2 = .ends (.ok (.report report))) :
    report.status ≠ .noRules := by
  cases h with
  | broken => cases hreport
  | none hnone =>
    rw [hrules] at hnone
    cases hnone
  | awaits => cases hreport
  | goes _ hloading =>
    cases hloading with
    | broken | asks => cases hreport
    | goes _ hgate =>
      cases hgate with
      | broken | hands => cases hreport
      | shut | done =>
        cases hreport
        nofun

theorem snippets_sourced (h : s.host.snippetsFault = none) (r : RuleSource) :
    (s.sourced r).host.snippets = .ok r.snippets := by
  show Host.snippets { s.host with source := r } = _
  unfold Host.snippets
  dsimp only
  rw [h]

theorem rules?_sourced (h : s.host.snippetsFault = none) (r : RuleSource) :
    (s.sourced r).host.rules? = r.snippets.items? := by
  rw [Host.rules?, snippets_sourced h]

theorem rulesBlock_sourced (hs : Reachable s) (r : RuleSource) (t : TaskId) :
    RulesBlock t (s.sourced r) ((s.sourced r).takeRules t) := by
  have hload : s.LoadsOrBreaks s.shares := loadsOrBreaks_shares hs
  exact rulesBlock_takeRules (.refl _) rfl rfl rfl rfl hload

end Session

/-! ## Reloaded and new -/

namespace RuleSource

/-- After any reloads a source that was made from a file reads what the file holds by now, as a
source does that is made from it anew. Their collections are the same, and give a cycle the same
rules, exactly if the document does not hold null under `snippets`. If it does, the cycle of the
reloaded source reports that there are no rules, and that of the new one goes by an empty list. -/
theorem reload_eq_ofFile_iff {s₀ s : RuleSource} {files₀ files : Tree} {path : Path}
    {entries : List (Value × Value)} (hmade : ofFile files₀ path = .ok s₀)
    (hreloads : Reloads s₀ s) (hload : MappingFile.load files .rules path = .ok entries) :
    ∃ reloaded fresh, s.reload files .null = .ok reloaded ∧ ofFile files path = .ok fresh ∧
      reloaded.snippets = (Value.lookup (text "snippets") entries).getD (.list []) ∧
      (reloaded.snippets = fresh.snippets ↔
        Value.lookup (text "snippets") entries ≠ some .null) ∧
      ∀ (m : Session) (t : TaskId), m.Reachable → m.host.snippetsFault = none →
        ((m.sourced reloaded).host.rules? = (m.sourced fresh).host.rules? ↔
          Value.lookup (text "snippets") entries ≠ some .null) ∧
        (Value.lookup (text "snippets") entries = some .null →
          ((m.sourced reloaded).takeRules t).2 =
            .ends (.ok (.report { status := .noRules, queued := m.queue.length })) ∧
          (m.sourced fresh).host.rules? = some [] ∧
          ∀ report, ((m.sourced fresh).takeRules t).2 = .ends (.ok (.report report)) →
            report.status ≠ .noRules) := by
  have hpath : s.path = some path := hreloads.path_eq.trans (path_ofFile hmade)
  refine ⟨{ s with snippets := snippetsIn entries }, ofEntries path entries, ?_, ?_, rfl, ?_⟩
  · rw [reload_read hpath, hload]
    rfl
  · rw [ofFile_eq, hload]
    rfl
  rw [Ne, ← snippetsIn_eq_null_iff]
  by_cases hnull : snippetsIn entries = .null
  · have hfresh := snippets_ofEntries_of_null hnull path
    have hrules : ∀ m : Session, m.host.snippetsFault = none →
        (m.sourced (ofEntries path entries)).host.rules? = some [] := by
      intro m hfault
      rw [Session.rules?_sourced hfault, hfresh]
      rfl
    refine ⟨?_, fun m t hm hfault => ⟨?_, fun _ => ⟨?_, hrules m hfault, ?_⟩⟩⟩
    · rw [hfresh, hnull]
      simp
    · rw [hrules m hfault, Session.rules?_sourced hfault, hnull]
      simp [Value.items?]
    · exact Session.takeRules_of_items?_eq_none (Session.snippets_sourced hfault _)
        (by rw [hnull]; rfl) t
    · exact fun report hreport =>
        (Session.rulesBlock_sourced hm _ t).status_ne (hrules m hfault) hreport
  · have hsame := snippets_ofEntries hnull path
    refine ⟨⟨fun _ => hnull, fun _ => hsame.symm⟩,
      fun m t _ hfault => ⟨?_, fun h => absurd h hnull⟩⟩
    rw [Session.rules?_sourced hfault, Session.rules?_sourced hfault, hsame]
    exact ⟨fun _ => hnull, fun _ => rfl⟩

/-! ## A file that loses its rules -/

def samplePath : Path := ⟨[], [text "r.yaml"]⟩

/-- A rules file with a document. -/
def sampleRules (document : String) : Tree where
  nodes := [(samplePath.parts, .file ((text document).flatMap Utf8.encodePoint))]

def isNull : Option Value → Bool
  | some .null => true
  | _ => false

theorem eq_of_isNull {v : Option Value} (h : isNull v) : v = some .null := by
  unfold isNull at h
  split at h
  · rfl
  · cases h

theorem load_sampleRules_null : ∃ entries,
    MappingFile.load (sampleRules "snippets:") .rules samplePath = .ok entries ∧
      Value.lookup (text "snippets") entries = some .null := by
  have hany : (MappingFile.load (sampleRules "snippets:") .rules samplePath).toOption.any
      fun entries => isNull (Value.lookup (text "snippets") entries) := by decide +kernel
  obtain ⟨entries, hload, hnull⟩ := exists_of_any hany
  exact ⟨entries, hload, eq_of_isNull hnull⟩

theorem ofFile_sampleRules : ∃ s, ofFile (sampleRules "snippets: [a]") samplePath = .ok s := by
  have hany : (MappingFile.load (sampleRules "snippets: [a]") .rules samplePath).toOption.any
      fun _ => true := by decide +kernel
  obtain ⟨entries, hload, -⟩ := exists_of_any hany
  refine ⟨ofEntries samplePath entries, ?_⟩
  rw [ofFile_eq, hload]
  rfl

theorem reload_eq_ofFile_iff_sampleRules :
    ∃ s₀ s reloaded fresh, ofFile (sampleRules "snippets: [a]") samplePath = .ok s₀ ∧
      Reloads s₀ s ∧ s.reload (sampleRules "snippets:") .null = .ok reloaded ∧
      ofFile (sampleRules "snippets:") samplePath = .ok fresh ∧
      reloaded.snippets ≠ fresh.snippets ∧
      ((Session.sample.sourced reloaded).takeRules 0).2 =
        .ends (.ok (.report { status := .noRules, queued := 0 })) := by
  obtain ⟨s₀, hmade⟩ := ofFile_sampleRules
  obtain ⟨entries, hload, hnull⟩ := load_sampleRules_null
  have hreloads : Reloads s₀ { s₀ with snippets := .list [.text (text "b")] } :=
    .single ⟨{}, .list [.text (text "b")], rfl⟩
  obtain ⟨reloaded, fresh, hreload, hfresh, -, hiff, hcycle⟩ :=
    reload_eq_ofFile_iff hmade hreloads hload
  obtain ⟨-, hnone⟩ := hcycle Session.sample 0
    (.new Session.sample.setup Session.sample.host {}) rfl
  exact ⟨s₀, _, reloaded, fresh, hmade, hreloads, hreload, hfresh, fun h => hiff.1 h hnull,
    (hnone hnull).1⟩

/-- A source whose file came to hold null under `snippets` reloads null, where a new source of the
file holds the empty list. -/
theorem not_reload_eq_ofFile :
    ∃ s reloaded fresh, ofFile (sampleRules "snippets: [a]") samplePath = .ok s ∧
      s.reload (sampleRules "snippets:") .null = .ok reloaded ∧
      ofFile (sampleRules "snippets:") samplePath = .ok fresh ∧
      reloaded.snippets = .null ∧ fresh.snippets = .list [] := by
  obtain ⟨s, hmade⟩ := ofFile_sampleRules
  obtain ⟨entries, hload, hnull⟩ := load_sampleRules_null
  have hread := snippetsIn_eq_null_iff.2 hnull
  refine ⟨s, { s with snippets := snippetsIn entries }, ofEntries samplePath entries, hmade, ?_, ?_,
    hread, snippets_ofEntries_of_null hread _⟩
  · rw [reload_read (path_ofFile hmade), hload]
    rfl
  · rw [ofFile_eq, hload]
    rfl

end RuleSource

end Snippets
