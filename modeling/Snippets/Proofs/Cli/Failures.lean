import Mathlib.Tactic.ByContra
import Snippets.Proofs.Cli.Completion
import Snippets.Proofs.Yaml.Kinds

/-!
# How the commands fail

Two things that can be wrong with a file are let through instead of being told to the user: that it
is a directory, and that its text is malformed (`Unforeseen`). The commands that read files let such
an error through exactly if there is one. Otherwise they complete their output, or tell the user the
message of what is wrong (`commands_end_iff`); a table, however, has to be one that the terminal can
show, and what fails in a run apart from its files has to be of a sort that can be contained.
-/

namespace Snippets

namespace Cli

open MappingFile (Purpose)

section Errors

variable {ε α : Type} {x : Except ε α} {p : ε → Prop}

theorem exists_error_iff {e : ε} (h : x = .error e) : (∃ e', x = .error e' ∧ p e') ↔ p e := by
  rw [h]
  exact ⟨by rintro ⟨_, ⟨⟩, he⟩; exact he, fun he => ⟨e, rfl, he⟩⟩

theorem not_exists_error {a : α} (h : x = .ok a) : ¬ ∃ e, x = .error e ∧ p e := by
  rw [h]
  rintro ⟨_, ⟨⟩, -⟩

end Errors

/-! ## Files -/

/-- There is something at a path that loading does not foresee: a directory, or a malformed text. -/
def Unforeseen (files : Tree) (path : Path) : Prop :=
  files.resolve path = .ok .directory ∨
    ∃ t, files.readText path = .ok t ∧ Yaml.parse t = none

section Files

variable {files : Tree} {purpose : Purpose} {path : Path} {entries : List (Value × Value)}

theorem not_unforeseen_of_parse {t : Text} {v : Value} (h : files.readText path = .ok t)
    (hp : Yaml.parse t = some v) : ¬ Unforeseen files path := by
  rintro (hdir | ⟨t', ht', hp'⟩)
  · rw [Tree.readText_of_directory hdir] at h
    cases h
  · rw [h] at ht'
    cases ht'
    rw [hp] at hp'
    cases hp'

theorem unforeseen_iff_of_reading {r : Except MappingFile.LoadError (List (Value × Value))}
    (h : MappingFile.Reading files purpose path r) :
    Unforeseen files path ↔ ∃ e, r = .error e ∧ isUserError e = false := by
  cases h with
  | directory h => exact ⟨fun _ => ⟨_, rfl, rfl⟩, fun _ => .inl h⟩
  | malformed h hp => exact ⟨fun _ => ⟨_, rfl, rfl⟩, fun _ => .inr ⟨_, h, hp⟩⟩
  | undecodable h hd =>
    refine iff_of_false ?_ (by rw [exists_error_iff rfl]; nofun)
    rintro (hdir | ⟨t, ht, -⟩)
    · rw [h] at hdir
      cases hdir
    · rw [Tree.readText_of_file h, hd] at ht
      cases ht
  | notMapping h hp =>
    exact iff_of_false (not_unforeseen_of_parse h hp) (by rw [exists_error_iff rfl]; nofun)
  | empty h hp | mapping h hp =>
    exact iff_of_false (not_unforeseen_of_parse h hp) (not_exists_error rfl)

theorem not_unforeseen_of_not_holds (h : files.holds path = false) : ¬ Unforeseen files path := by
  have hnone : ∀ node, files.resolve path ≠ .ok node := by
    intro node hnode
    rw [Tree.holds_iff.2 ⟨node, hnode⟩] at h
    cases h
  rintro (hdir | ⟨t, ht, -⟩)
  · exact hnone _ hdir
  · cases hr : files.resolve path with
    | ok node => exact hnone node hr
    | error e =>
      unfold Tree.readText Tree.readBytes at ht
      rw [hr] at ht
      cases ht

theorem unforeseen_iff_load (files : Tree) (purpose : Purpose) (path : Path) :
    Unforeseen files path ↔
      ∃ e, MappingFile.load files purpose path = .error e ∧ isUserError e = false := by
  obtain ⟨hholds, hload⟩ | ⟨-, hreading⟩ := MappingFile.load_cases files purpose path
  · rw [hload]
    exact iff_of_false (not_unforeseen_of_not_holds hholds) (by rw [exists_error_iff rfl]; nofun)
  · exact unforeseen_iff_of_reading hreading

/-- The place of the configuration: the file that was named, or the default one. -/
def configPlace (files : Tree) (config : Option Path) : Path :=
  config.getD (Config.defaultPath files)

theorem unforeseen_iff_entriesIn (files : Tree) (config : Option Path) :
    Unforeseen files (configPlace files config) ↔
      ∃ e, Config.entriesIn files config = .error e ∧ isUserError e = false := by
  cases config with
  | some path => exact unforeseen_iff_load files .config path
  | none =>
    show Unforeseen files (Config.defaultPath files) ↔ _
    unfold Config.entriesIn
    dsimp only
    split_ifs with hholds
    · exact unforeseen_iff_of_reading (MappingFile.reading_read hholds)
    · exact iff_of_false (not_unforeseen_of_not_holds (by simpa using hholds))
        (by rintro ⟨_, ⟨⟩, -⟩)

/-- A configuration fails to load because of its file exactly as its entries do. -/
theorem load_eq_file_iff {config : Option Path} {url : Option Text} {e : MappingFile.LoadError} :
    Config.load files config url = .error (.file e) ↔
      Config.entriesIn files config = .error e := by
  unfold Config.load
  cases Config.entriesIn files config with
  | error e' =>
    show (Except.error (Config.LoadError.file e') : Except _ Config) = _ ↔ _
    simp
  | ok entries =>
    show ((Config.ofEntries (Config.withUrl url entries)).mapError Config.LoadError.invalid) = _ ↔ _
    cases Config.ofEntries (Config.withUrl url entries) <;> simp [Except.mapError]

theorem unforeseen_iff_config (files : Tree) (config : Option Path) (url : Option Text) :
    Unforeseen files (configPlace files config) ↔
      ∃ e, Config.load files config url = .error (.file e) ∧ isUserError e = false := by
  simp only [load_eq_file_iff]
  exact unforeseen_iff_entriesIn files config

/-- The collection of a rules file is no tuple. -/
theorem snippetsIn_ne_tuple (h : MappingFile.load files purpose path = .ok entries)
    (items : List Value) : RuleSource.snippetsIn entries ≠ .tuple items := by
  unfold RuleSource.snippetsIn
  cases hv : Value.lookup (text "snippets") entries with
  | none => nofun
  | some v =>
    obtain ⟨-, hmissing⟩ | ⟨-, hreading⟩ := MappingFile.load_cases files purpose path
    · rw [h] at hmissing
      cases hmissing
    · rw [h] at hreading
      cases hreading with
      | empty => cases hv
      | mapping _ hp =>
        exact ((Yaml.untupled_parse hp).entries entries rfl).lookup hv items

end Files

/-! ## Commands -/

/-- A command completes its output, or tells the user what is wrong. -/
inductive Ends (a : Answer) : Prop where
  | completes (output : Text) (effects : List Effect) (h : a = { output, effects })
  | complains (message : Text) (h : a = .complain message)

/-- What the command to run a rules file does not foresee: first it loads the configuration. -/
def RunUnforeseen (w : Surroundings) (rules : Path) (config : Option Path) : Prop :=
  Unforeseen w.files (configPlace w.files config) ∨
    (∃ c, Config.load w.files config w.environmentUrl = .ok c) ∧ Unforeseen w.files rules

section Commands

variable {w : Surroundings} {rules : Path} {a : Answer}

theorem Ends.escaped_eq (h : Ends a) : a.escaped = none := by
  obtain ⟨output, effects, rfl⟩ | ⟨message, rfl⟩ := h <;> rfl

theorem not_ends_escape (x : Escape) : ¬ Ends (.escape x) := by
  intro h
  cases h.escaped_eq

theorem loadFailed_of_not_user {e : MappingFile.LoadError} (h : isUserError e = false) :
    loadFailed e = .escape (.load e) := by
  unfold loadFailed
  rw [h]
  rfl

theorem print_cases (t : Text) :
    ((∀ c ∈ t, c.isSurrogate = false) ∧ Answer.print t = { output := t }) ∨
      ((∃ c ∈ t, c.isSurrogate) ∧ ∃ e, Answer.print t = .escape (.unprintable e)) := by
  unfold Answer.print
  by_cases h : ∃ c ∈ t, c.isSurrogate
  · obtain ⟨e, he⟩ := Utf8.encode_of_exists h
    rw [he]
    exact .inr ⟨h, e, rfl⟩
  · have hall : ∀ c ∈ t, c.isSurrogate = false := by
      intro c hc
      by_contra hs
      exact h ⟨c, hc, by simpa using hs⟩
    rw [Utf8.encode_of_forall hall]
    exact .inl ⟨hall, rfl⟩

/-- An error of loading that was foreseen is told to the user. -/
theorem loadFailed_of_foreseen {files : Tree} {purpose : MappingFile.Purpose} {path : Path}
    {e : MappingFile.LoadError} (h : MappingFile.load files purpose path = .error e)
    (hu : ¬ Unforeseen files path) : loadFailed e = .complain e.message := by
  unfold loadFailed
  cases huser : isUserError e with
  | true => rfl
  | false => exact absurd ((unforeseen_iff_load files purpose path).2 ⟨e, h, huser⟩) hu

theorem configFailed_of_foreseen {config : Option Path} {url : Option Text} {files : Tree}
    {e : Config.LoadError} (h : Config.load files config url = .error e)
    (hu : ¬ Unforeseen files (configPlace files config)) :
    configFailed e = .complain e.message := by
  cases e with
  | invalid is => rfl
  | file e =>
    show loadFailed e = _
    unfold loadFailed
    cases huser : isUserError e with
    | true => rfl
    | false => exact absurd ((unforeseen_iff_config files config url).2 ⟨e, h, huser⟩) hu

/-! ### The table of a rules file -/

/-- The table of a rules file can be shown: the terminal reads its title, and there is nothing in it
that cannot be encoded. -/
def Printable (w : Surroundings) (rules : Path) : Prop :=
  ∀ entries items, MappingFile.load w.files .rules rules = .ok entries →
    RuleSource.snippetsIn entries = .list items →
    ∃ title, w.console.title (text "Snippets in " ++ rules.render) = .ok title ∧
      ∀ c ∈ (partitionTable title w.console.cell (Script.parseAll items)).render,
        c.isSurrogate = false

/-- The table is shown, or the user is told why it is not, or the file was not foreseen, or the
table cannot be shown. -/
theorem partition_cases (w : Surroundings) (rules : Path) :
    (Unforeseen w.files rules ∧ ∃ e, partition w rules = .escape (.load e)) ∨
      (¬ Unforeseen w.files rules ∧ Printable w rules ∧ Ends (partition w rules)) ∨
      (¬ Unforeseen w.files rules ∧ ¬ Printable w rules ∧
        ∃ x, partition w rules = .escape x ∧ ∀ e, x ≠ .load e) := by
  by_cases hu : Unforeseen w.files rules
  · obtain ⟨e, hload, huser⟩ := (unforeseen_iff_load w.files .rules rules).1 hu
    refine .inl ⟨hu, e, ?_⟩
    unfold partition
    rw [hload]
    exact loadFailed_of_not_user huser
  right
  unfold partition Printable
  cases hload : MappingFile.load w.files .rules rules with
  | error e => exact .inl ⟨hu, nofun, .complains _ (loadFailed_of_foreseen hload hu)⟩
  | ok entries =>
    dsimp only
    split
    · next items hitems =>
      cases htitle : w.console.title (text "Snippets in " ++ rules.render) with
      | error f =>
        refine .inr ⟨hu, fun h => ?_, _, rfl, nofun⟩
        obtain ⟨title, htitle', -⟩ := h entries items rfl hitems
        cases htitle'
      | ok title =>
        dsimp only
        obtain ⟨hall, hprint⟩ | ⟨⟨c, hc, hs⟩, e, hprint⟩ :=
          print_cases (partitionTable title w.console.cell (Script.parseAll items)).render
        · refine .inl ⟨hu, ?_, .completes _ [] hprint⟩
          rintro _ items' ⟨⟩ hitems'
          rw [hitems] at hitems'
          cases hitems'
          exact ⟨title, rfl, hall⟩
        · refine .inr ⟨hu, fun h => ?_, _, hprint, nofun⟩
          obtain ⟨_, ⟨⟩, hall⟩ := h entries items rfl hitems
          rw [hall c hc] at hs
          cases hs
    · next hnone =>
      refine .inl ⟨hu, ?_, .complains _ rfl⟩
      rintro _ items ⟨⟩ hitems
      exact absurd hitems (hnone items)

/-! ### The run of a rules file -/

theorem ofEntries_ne_tuple {entries : List (Value × Value)}
    (h : MappingFile.load w.files .rules rules = .ok entries) (items : List Value) :
    (RuleSource.ofEntries rules entries).snippets ≠ .tuple items := by
  by_cases hnull : RuleSource.snippetsIn entries = .null
  · rw [RuleSource.snippets_ofEntries_of_null hnull]
    nofun
  · rw [RuleSource.snippets_ofEntries hnull]
    exact snippetsIn_ne_tuple h items

theorem ends_shown (s : Session) (r : Result) : Ends (shown (s, .ok r)) := by
  unfold shown
  dsimp only
  rw [print_indented]
  exact .completes _ _ rfl

theorem shown_not_load (x : Session × Outcome) (e : MappingFile.LoadError) :
    (shown x).escaped ≠ some (.load e) := by
  obtain ⟨s, f | r⟩ := x
  · nofun
  · rw [(ends_shown s r).escaped_eq]
    nofun

section Loaded

variable {config : Option Path} {c : Config} {entries : List (Value × Value)}

theorem run_of_config_error {e : Config.LoadError} (given : Option Text)
    (h : Config.load w.files config w.environmentUrl = .error e) :
    run w rules config given = configFailed e := by
  unfold run
  rw [h]

theorem run_of_rules_error {e : MappingFile.LoadError} (given : Option Text)
    (hconfig : Config.load w.files config w.environmentUrl = .ok c)
    (h : MappingFile.load w.files .rules rules = .error e) :
    run w rules config given = loadFailed e := by
  unfold run
  rw [hconfig]
  dsimp only
  rw [RuleSource.ofFile_eq, h]
  rfl

/-- An error in the configuration that was foreseen is told to the user. -/
theorem run_complains_config {e : Config.LoadError} (given : Option Text)
    (h : Config.load w.files config w.environmentUrl = .error e)
    (hu : ¬ RunUnforeseen w rules config) : run w rules config given = .complain e.message := by
  rw [run_of_config_error given h]
  exact configFailed_of_foreseen h fun hplace => hu (.inl hplace)

theorem run_complains_rules {e : MappingFile.LoadError} (given : Option Text)
    (hconfig : Config.load w.files config w.environmentUrl = .ok c)
    (h : MappingFile.load w.files .rules rules = .error e) (hu : ¬ RunUnforeseen w rules config) :
    run w rules config given = .complain e.message := by
  rw [run_of_rules_error given hconfig h]
  exact loadFailed_of_foreseen h fun hrules => hu (.inr ⟨⟨c, hconfig⟩, hrules⟩)

/-- With a configuration and a rules file, a run shows how its session ended, unless it has no
address. -/
theorem run_of_loaded (given : Option Text)
    (hconfig : Config.load w.files config w.environmentUrl = .ok c)
    (hload : MappingFile.load w.files .rules rules = .ok entries) :
    (∃ message, run w rules config given = .complain message) ∨
      ∃ url, run w rules config given =
        shown (runOnce (runSession w c (RuleSource.ofEntries rules entries) url)) := by
  have hsource : RuleSource.ofFile w.files rules = .ok (RuleSource.ofEntries rules entries) := by
    rw [RuleSource.ofFile_eq, hload]
    rfl
  cases hurl : chooseUrl given c.runnerUrl with
  | none =>
    left
    simp only [run, hconfig, hsource, hurl]
    exact ⟨_, rfl⟩
  | some url => exact .inr ⟨url, run_eq_shown hconfig hsource hurl⟩

theorem run_ends (given : Option Text)
    (hconfig : Config.load w.files config w.environmentUrl = .ok c)
    (hload : MappingFile.load w.files .rules rules = .ok entries)
    (hfetch : ∀ f, w.replies.now.source = .error f → f.reach = .contained)
    (hprocess : ∀ f, w.processes.now = .fault f → f.reach = .contained) :
    Ends (run w rules config given) := by
  obtain ⟨message, hrun⟩ | ⟨url, hrun⟩ := run_of_loaded given hconfig hload
  · exact .complains message hrun
  · obtain ⟨s, r, hended⟩ : ∃ s r,
        runOnce (runSession w c (RuleSource.ofEntries rules entries) url) = (s, .ok r) :=
      runOnce_ends c (RuleSource.whitelistedIn entries) rules url (ofEntries_ne_tuple hload)
        hfetch hprocess
    rw [hrun, hended]
    exact ends_shown s r

/-- With a configuration and a rules file, a run lets no error of loading through. -/
theorem run_not_load (given : Option Text)
    (hconfig : Config.load w.files config w.environmentUrl = .ok c)
    (hload : MappingFile.load w.files .rules rules = .ok entries) (e : MappingFile.LoadError) :
    (run w rules config given).escaped ≠ some (.load e) := by
  obtain ⟨message, hrun⟩ | ⟨url, hrun⟩ := run_of_loaded given hconfig hload <;> rw [hrun]
  · nofun
  · exact shown_not_load _ e

end Loaded

/-- A run does not foresee a file, or what it lets through is no error of loading. Then it completes
its output or tells the user what is wrong, if what fails in the network and in the child process
can be contained. -/
theorem run_cases (w : Surroundings) (rules : Path) (config : Option Path) (given : Option Text) :
    (RunUnforeseen w rules config ∧ ∃ e, run w rules config given = .escape (.load e)) ∨
      (¬ RunUnforeseen w rules config ∧
        (∀ e, (run w rules config given).escaped ≠ some (.load e)) ∧
        ((∀ f, w.replies.now.source = .error f → f.reach = .contained) →
          (∀ f, w.processes.now = .fault f → f.reach = .contained) →
          Ends (run w rules config given))) := by
  by_cases hu : RunUnforeseen w rules config
  · refine .inl ⟨hu, ?_⟩
    obtain hplace | ⟨⟨c, hconfig⟩, hrules⟩ := hu
    · obtain ⟨e, hload, huser⟩ :=
        (unforeseen_iff_config w.files config w.environmentUrl).1 hplace
      exact ⟨e, (run_of_config_error given hload).trans (loadFailed_of_not_user huser)⟩
    · obtain ⟨e, hload, huser⟩ := (unforeseen_iff_load w.files .rules rules).1 hrules
      exact ⟨e, (run_of_rules_error given hconfig hload).trans (loadFailed_of_not_user huser)⟩
  · refine .inr ⟨hu, ?_⟩
    cases hconfig : Config.load w.files config w.environmentUrl with
    | error e =>
      rw [run_complains_config given hconfig hu]
      exact ⟨nofun, fun _ _ => .complains _ rfl⟩
    | ok c =>
      cases hload : MappingFile.load w.files .rules rules with
      | error e =>
        rw [run_complains_rules given hconfig hload hu]
        exact ⟨nofun, fun _ _ => .complains _ rfl⟩
      | ok entries => exact ⟨run_not_load given hconfig hload, run_ends given hconfig hload⟩

/-- The commands that read files let an error of loading through exactly if a file is a directory or
malformed, where they should tell the user. If none is, they tell the user the message of what is
wrong with a file, or complete their output, except that the table of a rules file has to be one
that the terminal can show, and that a run may be broken off by what can be contained nowhere. -/
theorem commands_end_iff (w : Surroundings) (args : List Text) :
    (∀ rules, Invocation.read args = .ok (.partition rules) →
      ((∃ e, (answer w args).escaped = some (.load e)) ↔ Unforeseen w.files rules) ∧
      (Ends (answer w args) ↔ ¬ Unforeseen w.files rules ∧ Printable w rules) ∧
      ∀ e, MappingFile.load w.files .rules rules = .error e → ¬ Unforeseen w.files rules →
        answer w args = .complain e.message) ∧
    ∀ rules config given, Invocation.read args = .ok (.run rules config given) →
      ((∃ e, (answer w args).escaped = some (.load e)) ↔ RunUnforeseen w rules config) ∧
      ((∀ f, w.replies.now.source = .error f → f.reach = .contained) →
        (∀ f, w.processes.now = .fault f → f.reach = .contained) →
        (Ends (answer w args) ↔ ¬ RunUnforeseen w rules config)) ∧
      (∀ e, Config.load w.files config w.environmentUrl = .error e →
        ¬ RunUnforeseen w rules config → answer w args = .complain e.message) ∧
      ∀ c e, Config.load w.files config w.environmentUrl = .ok c →
        MappingFile.load w.files .rules rules = .error e → ¬ RunUnforeseen w rules config →
        answer w args = .complain e.message := by
  refine ⟨fun rules hread => ?_, fun rules config given hread => ?_⟩
  · have hanswer : answer w args = partition w rules := by
      unfold answer
      rw [hread]
      rfl
    have hmessage : ∀ e, MappingFile.load w.files .rules rules = .error e →
        ¬ Unforeseen w.files rules → partition w rules = .complain e.message := by
      intro e hload hu
      unfold partition
      rw [hload]
      exact loadFailed_of_foreseen hload hu
    rw [hanswer]
    obtain ⟨hu, e, he⟩ | ⟨hu, hp, hends⟩ | ⟨hu, hp, x, he, hx⟩ := partition_cases w rules
    · rw [he] at hmessage ⊢
      exact ⟨⟨fun _ => hu, fun _ => ⟨e, rfl⟩⟩,
        ⟨fun h => (not_ends_escape _ h).elim, fun h => absurd hu h.1⟩, hmessage⟩
    · refine ⟨⟨?_, fun h => absurd h hu⟩, ⟨fun _ => ⟨hu, hp⟩, fun _ => hends⟩, hmessage⟩
      rintro ⟨e, he⟩
      rw [hends.escaped_eq] at he
      cases he
    · rw [he] at hmessage ⊢
      refine ⟨⟨?_, fun h => absurd h hu⟩,
        ⟨fun h => (not_ends_escape _ h).elim, fun h => absurd h.2 hp⟩, hmessage⟩
      rintro ⟨e, he⟩
      exact absurd (Option.some.inj he) (hx e)
  · have hanswer : answer w args = run w rules config given := by
      unfold answer
      rw [hread]
      rfl
    have hconfig : ∀ e, Config.load w.files config w.environmentUrl = .error e →
        ¬ RunUnforeseen w rules config → run w rules config given = .complain e.message :=
      fun e => run_complains_config given
    have hrules : ∀ c e, Config.load w.files config w.environmentUrl = .ok c →
        MappingFile.load w.files .rules rules = .error e → ¬ RunUnforeseen w rules config →
        run w rules config given = .complain e.message :=
      fun c e => run_complains_rules given
    rw [hanswer]
    obtain ⟨hu, e, he⟩ | ⟨hu, hnot, hends⟩ := run_cases w rules config given
    · rw [he] at hconfig hrules ⊢
      exact ⟨⟨fun _ => hu, fun _ => ⟨e, rfl⟩⟩,
        fun _ _ => ⟨fun h => (not_ends_escape _ h).elim, fun h => absurd hu h⟩, hconfig, hrules⟩
    · exact ⟨⟨fun ⟨e, he⟩ => absurd he (hnot e), fun h => absurd h hu⟩,
        fun hfetch hprocess => ⟨fun _ => hu, fun _ => hends hfetch hprocess⟩, hconfig, hrules⟩

end Commands

/-- The run of a rules file that is there and well formed ends. -/
theorem commands_end_iff_sampleSurroundings :
    Ends (answer sampleSurroundings
      [text "run", text "rules.yaml", text "--runner-url", text "runner.js"]) := by
  have hread : Invocation.read
      [text "run", text "rules.yaml", text "--runner-url", text "runner.js"] =
        .ok (.run ⟨[], [text "rules.yaml"]⟩ none (some (text "runner.js"))) := by decide +kernel
  have hconfig : ¬ Unforeseen sampleSurroundings.files
      (configPlace sampleSurroundings.files none) :=
    not_unforeseen_of_not_holds (by decide +kernel)
  have hrules : ¬ Unforeseen sampleSurroundings.files ⟨[], [text "rules.yaml"]⟩ := by
    obtain ⟨entries, hload, -⟩ := load_sampleSurroundings
    exact (unforeseen_iff_load _ .rules _).not.2 (not_exists_error hload)
  obtain ⟨-, hruns⟩ := commands_end_iff sampleSurroundings
    [text "run", text "rules.yaml", text "--runner-url", text "runner.js"]
  obtain ⟨-, hends, -⟩ := hruns _ _ _ hread
  exact (hends nofun nofun).2 (not_or.2 ⟨hconfig, fun h => hrules h.2⟩)

/-- A directory, and a file with an open bracket. -/
def sampleMisplaced : Surroundings where
  files :=
    { nodes := [([text "d"], .directory), ([text "m"], .file ((text "[").flatMap
        Utf8.encodePoint))] }
  replies := ⟨.body none .null, []⟩
  processes := ⟨.exit 0 [], []⟩

/-- Neither the directory nor the malformed text is told to the user. -/
theorem not_commands_end :
    (∃ e, answer sampleMisplaced [text "partition", text "d"] = .escape (.load e)) ∧
      ∃ e, answer sampleMisplaced [text "run", text "m"] = .escape (.load e) := by
  have hpartition : Invocation.read [text "partition", text "d"] =
      .ok (.partition ⟨[], [text "d"]⟩) := by decide +kernel
  have hrun : Invocation.read [text "run", text "m"] = .ok (.run ⟨[], [text "m"]⟩ none none) := by
    decide +kernel
  have hdirectory : Unforeseen sampleMisplaced.files ⟨[], [text "d"]⟩ := .inl (by decide +kernel)
  have hmalformed : Unforeseen sampleMisplaced.files ⟨[], [text "m"]⟩ :=
    .inr ⟨text "[", by decide +kernel, Option.isNone_iff_eq_none.1 (by decide +kernel)⟩
  have hconfig : ∃ c, Config.load sampleMisplaced.files none none = .ok c := by
    obtain ⟨c, hc, -⟩ := exists_of_any (p := fun _ => true) (x :=
      Config.load sampleMisplaced.files none none) (by decide +kernel)
    exact ⟨c, hc⟩
  constructor
  · obtain ⟨-, e, he⟩ | ⟨hu, -⟩ | ⟨hu, -⟩ := partition_cases sampleMisplaced ⟨[], [text "d"]⟩
    · refine ⟨e, ?_⟩
      unfold answer
      rw [hpartition]
      exact he
    · exact absurd hdirectory hu
    · exact absurd hdirectory hu
  · obtain ⟨-, e, he⟩ | ⟨hu, -⟩ := run_cases sampleMisplaced ⟨[], [text "m"]⟩ none none
    · refine ⟨e, ?_⟩
      unfold answer
      rw [hrun]
      exact he
    · exact absurd (.inr ⟨hconfig, hmalformed⟩) hu

end Cli

end Snippets
