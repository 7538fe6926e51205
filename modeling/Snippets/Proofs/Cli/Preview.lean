import Snippets.Cli.Program
import Snippets.Proofs.Cli.Drawing
import Snippets.Proofs.Json.Roundtrip
import Snippets.Proofs.Rules.Reloading
import Snippets.Proofs.Session.Feeding
import Snippets.Proofs.Text.Utf8

/-!
# What the partition of a rules file foretells

The command that shows how the snippets of a rules file are split goes through the rules by itself,
and knows the built-in handlers only by their names. It agrees with a snippet runner: the rows that
it draws are, in order, the snippets that a cycle puts into the queue when the rule source is made
from that file, and a row says that its snippet is local exactly if the runner takes it for local
when its registry holds the built-in handlers (`partition_foretells`).
-/

namespace Snippets

/-! ## The registry of the built-in handlers -/

namespace Registry

variable {η : Type} {handler : η} {name : Text}

/-- The registry of the built-in handlers, as a host puts it together: the handler that skips media
is registered, and then the registry is frozen. -/
def builtIn (handler : η) : Except RegisterError (Registry η) :=
  (register {} Page.skipName handler).map freeze

theorem builtIn_eq (handler : η) : builtIn handler = .ok (standard handler) := by
  have hname : Page.skipName ≠ [] := by decide +kernel
  rw [builtIn, register, if_neg hname]
  rfl

@[simp] theorem contains_standard (handler : η) (name : Text) :
    (standard handler).contains name = standardNames.contains name := by
  have hnames : (standard handler).names = standardNames := by
    rw [names, standard, List.map_map]
    exact List.map_id' standardNames
  rw [contains, hnames]

end Registry

section Partition

variable {η : Type} {r : Registry η} {queue : List (Snippet Text)} {s : Snippet Text}

theorem mem_locals : s ∈ (Partition.of r queue).locals ↔ s ∈ queue ∧ r.contains s.name :=
  List.mem_filter

theorem mem_externals :
    s ∈ (Partition.of r queue).externals ↔ s ∈ queue ∧ r.contains s.name = false := by
  rw [Partition.of, List.mem_filter, Bool.not_eq_true']

end Partition

namespace Cli

/-! ## Texts on the output -/

/-- The program prints a text, and nothing else happens. A text with a surrogate has no encoding;
then nothing is printed, and the error is let through. -/
structure Answer.Prints (a : Answer) (t : Text) : Prop where
  printed : (∀ c ∈ t, c.isSurrogate = false) →
    a = { exit := 0, output := t, errors := [], effects := [], escaped := none }
  unprintable : (∃ c ∈ t, c.isSurrogate) → ∃ e, Utf8.encode t = .error e ∧
    a = { exit := 1, output := [], errors := [], effects := [], escaped := some (.unprintable e) }

theorem prints_print (t : Text) : (Answer.print t).Prints t where
  printed h := by
    rw [Answer.print, Utf8.encode_of_forall h]
  unprintable h := by
    obtain ⟨e, he⟩ := Utf8.encode_of_exists h
    refine ⟨e, he, ?_⟩
    rw [Answer.print, he]
    rfl

/-! ## Rows -/

/-- The columns of the table: numbers are aligned to the right. -/
def partitionColumns : List Column :=
  [⟨text "#", .right⟩, ⟨text "Name", .left⟩, ⟨text "Arguments", .left⟩, ⟨text "Target", .left⟩]

/-- What a row says of a snippet: its number, its name, and its arguments as a list in JSON, where
they are read with their surrogate pairs joined; and whether it is local or external. -/
structure Shows (n : Nat) (s : Snippet Text) (row : List Text) : Prop where
  length : row.length = 4
  number : row[0]? = some (Text.ofNat n)
  name : row[1]? = some s.name
  args : ∃ cell, row[2]? = some cell ∧ ∀ v, Json.Document v cell ↔
    v = .list ((s.args.map Text.joinPairs).map .text)
  target : row[3]? = some (text "local (DOM host)") ∨ row[3]? = some (text "external")

variable {rules : Path} {snippets : List (Snippet Text)} {s : Snippet Text} {i : Nat}

theorem target_cases (s : Snippet Text) :
    target s = text "local (DOM host)" ∧ Registry.standardNames.contains s.name ∨
      target s = text "external" ∧ Registry.standardNames.contains s.name = false := by
  unfold target
  cases Registry.standardNames.contains s.name
  · exact .inr ⟨rfl, rfl⟩
  · exact .inl ⟨rfl, rfl⟩

theorem target_eq_local_iff :
    target s = text "local (DOM host)" ↔ Registry.standardNames.contains s.name := by
  have hne : text "external" ≠ text "local (DOM host)" := by decide +kernel
  rcases target_cases s with ⟨ht, hs⟩ | ⟨ht, hs⟩
  · exact iff_of_true ht hs
  · exact iff_of_false (ht ▸ hne) (Bool.eq_false_iff.1 hs)

theorem target_eq_external_iff :
    target s = text "external" ↔ Registry.standardNames.contains s.name = false := by
  have hne : text "local (DOM host)" ≠ text "external" := by decide +kernel
  rcases target_cases s with ⟨ht, hs⟩ | ⟨ht, hs⟩
  · exact iff_of_false (ht ▸ hne) (by rw [hs]; nofun)
  · exact iff_of_true ht hs

/-- What the rows tell of snippets, before the terminal reads it. -/
def partitionRows (snippets : List (Snippet Text)) : List (List Text) :=
  snippets.zipIdx.map fun (s, i) => partitionRow (i + 1) s

theorem length_partitionRows (snippets : List (Snippet Text)) :
    (partitionRows snippets).length = snippets.length := by
  rw [partitionRows, List.length_map, List.length_zipIdx]

theorem getElem?_partitionRows (h : snippets[i]? = some s) :
    (partitionRows snippets)[i]? = some (partitionRow (i + 1) s) := by
  simp [partitionRows, List.getElem?_map, List.getElem?_zipIdx, h]

theorem shows_row (n : Nat) (s : Snippet Text) :
    Shows n s (partitionRow n s) where
  length := rfl
  number := rfl
  name := rfl
  args := by
    refine ⟨_, rfl, fun v => ?_⟩
    rw [Json.document_compact_iff (Value.isSimple_texts s.args), Value.paired_texts]
  target := (target_cases s).imp (fun h => congrArg some h.1) fun h => congrArg some h.1

/-- The table of snippets is drawn under its title. -/
theorem drawn_partitionTable (title : Text) (cell : Text → Text) (snippets : List (Snippet Text)) :
    ∃ drawing,
      Table.Drawn partitionColumns ((partitionRows snippets).map (List.map cell)) drawing ∧
        (partitionTable title cell snippets).render =
          (partitionTable title cell snippets).heading ++ drawing := by
  have hrows : (partitionTable title cell snippets).rows =
      (partitionRows snippets).map (List.map cell) := by
    rw [partitionRows, List.map_map]
    rfl
  rw [← hrows]
  refine Table.drawn_render (t := partitionTable title cell snippets) (by simp [partitionTable]) ?_
  intro row hrow
  obtain ⟨⟨s, i⟩, -, rfl⟩ := List.mem_map.1 hrow
  rfl

section Command

variable {w : Surroundings} {entries : List (Value × Value)} {items : List Value}

theorem partition_of_title {title : Text}
    (hload : MappingFile.load w.files .rules rules = .ok entries)
    (hlist : RuleSource.snippetsIn entries = .list items)
    (htitle : w.console.title (text "Snippets in " ++ rules.render) = .ok title) :
    partition w rules =
      .print (partitionTable title w.console.cell (Script.parseAll items)).render := by
  simp only [partition, hload, hlist, htitle]

theorem partition_of_refused {f : Fault}
    (hload : MappingFile.load w.files .rules rules = .ok entries)
    (hlist : RuleSource.snippetsIn entries = .list items)
    (htitle : w.console.title (text "Snippets in " ++ rules.render) = .error f) :
    partition w rules = .escape (.failure (.fault f)) := by
  simp only [partition, hload, hlist, htitle]

end Command

/-! ## The command and the runner -/

/-- The command prints a table under its title, unless the terminal refuses the title. The rows that
it draws, as the terminal reads their cells, are in order and numbered from one the snippets that a
cycle puts into the queue of a snippet runner whose rule source is made from the same file. A row
tells that its snippet is local, or external, exactly if the runner counts the snippet among those
when its registry is that of the built-in handlers. -/
theorem partition_foretells {w : Surroundings} {rules : Path} {entries : List (Value × Value)}
    {items : List Value} (hload : MappingFile.load w.files .rules rules = .ok entries)
    (hlist : RuleSource.snippetsIn entries = .list items) :
    ∃ (rows : List (List Text)) (source : RuleSource),
      (∀ title, w.console.title (text "Snippets in " ++ rules.render) = .ok title →
        ∃ (width : Nat) (drawing : Text),
          (partition w rules).Prints
            (((Table.wrap width title).flatMap fun l => Table.centre width l ++ text "\n") ++
              drawing) ∧
          Table.Drawn partitionColumns (rows.map (List.map w.console.cell)) drawing) ∧
      (∀ f, w.console.title (text "Snippets in " ++ rules.render) = .error f →
        partition w rules = .escape (.failure (.fault f))) ∧
      RuleSource.ofFile w.files rules = .ok source ∧
      Session.Appends source (Script.parseAll items) ∧
      rows.length = (Script.parseAll items).length ∧
      ∀ i s, (Script.parseAll items)[i]? = some s → ∃ row, rows[i]? = some row ∧
        Shows (i + 1) s row ∧
        ∀ handler : Option Nat, ∃ registry, Registry.builtIn handler = .ok registry ∧
          ∀ m : Session, m.setup.registry = registry → s ∈ m.queue →
            (row[3]? = some (text "local (DOM host)") ↔ s ∈ m.partition.locals) ∧
            (row[3]? = some (text "external") ↔ s ∈ m.partition.externals) := by
  have hitems : (RuleSource.ofEntries rules entries).snippets.items? = some items := by
    rw [RuleSource.snippets_ofEntries (by rw [hlist]; nofun), hlist]
    rfl
  refine ⟨partitionRows (Script.parseAll items), RuleSource.ofEntries rules entries,
    fun title htitle => ?_, fun f hf => ?_, ?_, Session.appends_of_items? hitems,
    length_partitionRows _, ?_⟩
  · obtain ⟨drawing, hdrawn, hrender⟩ :=
      drawn_partitionTable title w.console.cell (Script.parseAll items)
    refine ⟨(partitionTable title w.console.cell (Script.parseAll items)).totalWidth, drawing, ?_,
      hdrawn⟩
    rw [partition_of_title hload hlist htitle, hrender]
    exact prints_print _
  · exact partition_of_refused hload hlist hf
  · rw [RuleSource.ofFile_eq, hload]
    rfl
  intro i s hs
  refine ⟨_, getElem?_partitionRows hs, shows_row (i + 1) s, fun handler =>
    ⟨_, Registry.builtIn_eq handler, fun m hm hqueue => ?_⟩⟩
  have hcontains : m.setup.registry.contains s.name = Registry.standardNames.contains s.name := by
    rw [hm, Registry.contains_standard]
  have hcell : ∀ t, (partitionRow (i + 1) s)[3]? = some t ↔ target s = t :=
    fun t => Option.some_inj
  constructor
  · rw [hcell, target_eq_local_iff, Session.partition, mem_locals, hcontains]
    exact (and_iff_right hqueue).symm
  · rw [hcell, target_eq_external_iff, Session.partition, mem_externals, hcontains]
    exact (and_iff_right hqueue).symm

/-! ## A file of mixed rules -/

/-- A rules file that holds a number between two scripts. -/
def sampleMixed : Surroundings where
  files := RuleSource.sampleRules "snippets: ['a x; skip-current-media p', 7, b]"
  replies := ⟨.body none .null, []⟩
  processes := ⟨.exit 0 [], []⟩

/-- The snippets of the mixed rules. -/
def mixedSnippets : List (Snippet Text) :=
  [⟨text "a", [text "x"]⟩, ⟨text "skip-current-media", [text "p"]⟩, ⟨text "b", []⟩]

/-- A list of rules with the given snippets. -/
def isListOfRules (snippets : List (Snippet Text)) : Value → Bool
  | .list items => Script.parseAll items = snippets
  | _ => false

theorem load_sampleMixed : ∃ entries items,
    MappingFile.load sampleMixed.files .rules RuleSource.samplePath = .ok entries ∧
      RuleSource.snippetsIn entries = .list items ∧ Script.parseAll items = mixedSnippets := by
  have hany : (MappingFile.load sampleMixed.files .rules RuleSource.samplePath).toOption.any
      fun entries => isListOfRules mixedSnippets (RuleSource.snippetsIn entries) := by
    decide +kernel
  obtain ⟨entries, hload, hlist⟩ := exists_of_any hany
  unfold isListOfRules at hlist
  split at hlist
  · next items hitems => exact ⟨entries, items, hload, hitems, of_decide_eq_true hlist⟩
  · cases hlist

/-- The mixed rules are shown in a table whose second row is local, and a cycle queues the three
snippets. -/
theorem partition_foretells_sampleMixed :
    ∃ (width : Nat) (drawing : Text) (rows : List (List Text)) (source : RuleSource)
      (row : List Text),
      (partition sampleMixed RuleSource.samplePath).Prints
        (((Table.wrap width (text "Snippets in " ++ RuleSource.samplePath.render)).flatMap fun l =>
          Table.centre width l ++ text "\n") ++ drawing) ∧
      Table.Drawn partitionColumns (rows.map (List.map id)) drawing ∧
      RuleSource.ofFile sampleMixed.files RuleSource.samplePath = .ok source ∧
      ((Session.sample.sourced source).takeRules 0).1.queue = mixedSnippets ∧
      rows.length = 3 ∧ rows[1]? = some row ∧
      row[0]? = some (text "2") ∧ row[3]? = some (text "local (DOM host)") := by
  obtain ⟨entries, items, hload, hlist, hsnippets⟩ := load_sampleMixed
  obtain ⟨rows, source, hshown, -, hsource, happends, hlength, hrows⟩ :=
    partition_foretells hload hlist
  obtain ⟨width, drawing, hprints, hdrawn⟩ := hshown _ rfl
  rw [hsnippets] at happends hlength hrows
  obtain ⟨row, hrow, hshows, hregistry⟩ := hrows 1 ⟨text "skip-current-media", [text "p"]⟩ rfl
  obtain ⟨registry, hbuilt, hsplit⟩ := hregistry none
  rw [Registry.builtIn_eq] at hbuilt
  cases hbuilt
  have hqueue := happends.taking (Session.sample.sourced source) 0 ⟨rfl, rfl⟩
  let m : Session :=
    { setup := { registry := .standard none, url := [] }
      host := Session.sample.host
      queue := mixedSnippets }
  have hlocal := (hsplit m rfl (by decide +kernel)).1
  refine ⟨width, drawing, rows, source, row, hprints, hdrawn, hsource, hqueue, hlength, hrow, ?_,
    hlocal.2 ?_⟩
  · rw [hshows.number]
    decide +kernel
  · decide +kernel

end Cli

end Snippets
