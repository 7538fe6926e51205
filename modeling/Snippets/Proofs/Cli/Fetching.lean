import Mathlib.Tactic.SplitIfs
import Snippets.Cli.Program
import Snippets.Proofs.Session.Jobs

/-!
# Loading the runner of a run

The address of the runner leads to a source, or it does not, and the source makes a script, or it
does not (`Surroundings.scriptAt`). A task that loads the runner comes to just that: either in its
first turn, or in the turn after it has read a file (`Fresh.load`, `Bare.takeFile`).
-/

namespace Snippets

namespace Cli

/-! ## What is found at an address -/

/-- The source at an address: what the network replies first, or what a file holds; or why there is
none. -/
def Surroundings.sourceAt (w : Surroundings) (url : Text) : Except Text Text :=
  match Url.split url with
  | .error e => .error e.message
  | .ok u =>
    if u.isRemote then w.replies.now.source.mapError Fault.message
    else (w.files.readText (Path.ofText (if u.isFile then u.path else url))).mapError
      Tree.ReadError.message

/-- The script that is made of a source, or why there is none: what the system says, or what is wrong
with the source. -/
def scriptOf (refusal : Option Text) (source : Text) : Except Text (List UInt8) :=
  if (Text.trim source).isEmpty then .error CompileError.blank.message
  else
    match refusal with
    | some message => .error message
    | none => (Utf8.encode source).mapError Utf8.EncodeError.message

/-- The script at an address, if its source can be fetched and compiled. -/
def Surroundings.scriptAt (w : Surroundings) (url : Text) : Except Text (List UInt8) :=
  match w.sourceAt url with
  | .ok source => scriptOf w.refusal source
  | .error reason => .error reason

/-- What is fetched from the network. -/
def requests (url : Text) : List Effect :=
  match Url.split url with
  | .ok u => if u.isRemote then [.fetch url] else []
  | .error _ => []

/-- The runner that a script makes: it is the first scratch file. -/
def runnerOf (settings : ScriptSettings) : Except Text (List UInt8) → Option CompiledRunner
  | .ok _ => some (.script ⟨0, settings⟩)
  | .error _ => none

/-- How the loading ends. -/
def loadingOf (settings : ScriptSettings) (url : Text) : Except Text (List UInt8) → Outcome
  | .ok _ => .ok (.runner (.script ⟨0, settings⟩))
  | .error reason => .error (.loading url reason)

/-- Compiling a source on a bench where no scratch file has been made. -/
theorem compile_cases (settings : ScriptSettings) (source : Text) {b : Bench}
    (hb : b.scratch = {}) :
    ∃ scratch, match scriptOf b.refusal source with
      | .ok bytes => scratch.files = [(0, bytes)] ∧ (Compiler.script settings).compile source b =
          { bench := { b with scratch }, logs := [ScriptSettings.compiledNote ⟨0, settings⟩]
            result := .ok (.script ⟨0, settings⟩) }
      | .error reason => ∃ e : CompileError, (∀ f, e = .fault f → f.reach = .contained) ∧
          e.message = reason ∧ (Compiler.script settings).compile source b =
            { bench := { b with scratch }, result := .error e } := by
  obtain ⟨scratch, processes, refusal, made, runFault, closeFault⟩ := b
  obtain rfl : scratch = {} := hb
  unfold scriptOf Compiler.compile Bench.refusalOf ScriptSettings.compile
  dsimp only
  split_ifs with hblank
  · exact ⟨{}, .blank, nofun, rfl, rfl⟩
  · cases refusal with
    | some message =>
      refine ⟨{}, .fault (.system message), ?_, rfl, rfl⟩
      rintro _ ⟨⟩
      rfl
    | none =>
      dsimp only [Scratch.create]
      cases Utf8.encode source with
      | ok bytes => exact ⟨⟨[(0, bytes)], 1⟩, rfl, rfl⟩
      | error e => exact ⟨⟨[(0, [])], 1⟩, .unencodable e, nofun, rfl, rfl⟩

/-- A fault that can be contained becomes a failure to load. -/
theorem loadingFailure_of_contained (s : Session) {f : Fault} (h : f.reach = .contained) :
    s.loadingFailure (.ofFault f) = .loading s.setup.url f.message := by
  rw [Failure.ofFault, h, Session.loadingFailure, if_pos (by simp [Failure.isContained, h])]
  rfl

theorem compileSource_cases {s : Session} {settings : ScriptSettings} (t : TaskId) (source : Text)
    (hc : s.host.compiler = .script settings) (hb : s.host.bench.scratch = {})
    (hr : s.runner = none) :
    ∃ scratch j, (∀ bytes, scriptOf s.host.bench.refusal source = .ok bytes →
        scratch.files = [(0, bytes)]) ∧
      j.effects = s.journal.effects ∧
      s.compileSource t source =
        ({ s with
            host := { s.host with bench := { s.host.bench with scratch } }
            runner := runnerOf settings (scriptOf s.host.bench.refusal source)
            journal := j },
          .ends (loadingOf settings s.setup.url (scriptOf s.host.bench.refusal source))) := by
  obtain ⟨scratch, hcompile⟩ := compile_cases settings source hb
  rw [← hc] at hcompile
  unfold Session.compileSource
  dsimp only [Session.record]
  cases hscript : scriptOf s.host.bench.refusal source with
  | ok bytes =>
    rw [hscript] at hcompile
    obtain ⟨hfiles, hcompile⟩ := hcompile
    rw [hcompile]
    refine ⟨scratch, _, ?_, ?_, rfl⟩
    · rintro _ ⟨⟩
      exact hfiles
    · simp [Journal.effects, Session.withHost]
  | error reason =>
    rw [hscript] at hcompile
    obtain ⟨e, hfault, rfl, hcompile⟩ := hcompile
    have hnone : runnerOf settings (.error e.message) = s.runner := hr.symm
    rw [hcompile, hnone]
    cases e with
    | fault f =>
      refine ⟨scratch, s.journal ++ [⟨some t, .compiling source⟩], ?_, Journal.effects_snoc rfl _,
        ?_⟩
      · rintro _ ⟨⟩
      · exact congrArg (fun x => (_, Progress.ends (.error x)))
          (loadingFailure_of_contained _ (hfault f rfl))
    | blank | unencodable =>
      refine ⟨scratch, _, ?_, Journal.effects_snoc rfl _, rfl⟩
      rintro _ ⟨⟩

/-! ## The loading -/

/-- What a run works with: the surroundings, the settings, a rules file and its items, and the
address of the runner. -/
structure Errand where
  around : Surroundings
  config : Config
  rules : Path
  items : List Value
  url : Text

namespace Errand

section Loads

variable (e : Errand)

def settings : ScriptSettings := ⟨e.config.interpreter, e.config.timeout, e.around.folder⟩

/-- The script of the runner, or why there is none. -/
def script : Except Text (List UInt8) := e.around.scriptAt e.url

/-- How the loading ends. -/
def ended : Outcome := loadingOf e.settings e.url e.script

/-- What is read from the file at an address. -/
def reading (u : Url) : Except Tree.ReadError Text :=
  e.around.files.readText (Path.ofText (if u.isFile then u.path else e.url))

/-- A session in which nothing has been compiled yet. -/
structure Bare (s : Session) : Prop where
  url : s.setup.url = e.url
  compiler : s.host.compiler = .script e.settings
  scratch : s.host.bench.scratch = {}
  refusal : s.host.bench.refusal = e.around.refusal
  runner : s.runner = none

/-- A session in which nothing has been fetched yet either. -/
structure Fresh (s : Session) : Prop extends e.Bare s where
  client : s.setup.ownClient = false
  files : s.host.files = e.around.files
  replies : s.host.replies = e.around.replies
  held : s.host.isHeld .fetch = false

/-- The block of a loading that ends it, with what it fetches: the script is there, or it is said
why not. -/
def Loads (s : Session) (fetched : List Effect) (r : Session × Progress) : Prop :=
  ∃ scratch replies j, (∀ bytes, e.script = .ok bytes → scratch.files = [(0, bytes)]) ∧
    j.effects = s.journal.effects ++ fetched ∧
    r = ({ s with
        host := { s.host with replies, bench := { s.host.bench with scratch } }
        runner := runnerOf e.settings e.script
        journal := j }, .ends e.ended)

variable {e} {s : Session} {t : TaskId}

theorem Bare.record (h : e.Bare s) (what : Happening) : e.Bare (s.record (some t) what) :=
  ⟨h.url, h.compiler, h.scratch, h.refusal, h.runner⟩

theorem Fresh.record (h : e.Fresh s) (what : Happening) : e.Fresh (s.record (some t) what) :=
  ⟨h.toBare.record what, h.client, h.files, h.replies, h.held⟩

/-- Notes in the journal may come before. -/
theorem Loads.after {s' : Session} {fetched before : List Effect} {r : Session × Progress}
    (hs : s' = { s with journal := s'.journal })
    (hj : s'.journal.effects = s.journal.effects ++ before) (h : e.Loads s' fetched r) :
    e.Loads s (before ++ fetched) r := by
  obtain ⟨scratch, replies, j, hfiles, heffects, rfl⟩ := h
  refine ⟨scratch, replies, j, hfiles, ?_, ?_⟩
  · rw [heffects, hj, List.append_assoc]
  · rw [hs]

theorem Bare.compile (h : e.Bare s) {source : Text} (hs : e.around.sourceAt e.url = .ok source) :
    e.Loads s [] (s.compileSource t source) := by
  obtain ⟨scratch, j, hfiles, heffects, hcompile⟩ :=
    compileSource_cases t source h.compiler h.scratch h.runner
  have hscript : e.script = scriptOf s.host.bench.refusal source := by
    rw [script, Surroundings.scriptAt, hs, h.refusal]
  rw [hcompile, h.url, Loads, ended, hscript]
  exact ⟨scratch, s.host.replies, j, hfiles, heffects.trans (List.append_nil _).symm, rfl⟩

theorem Bare.fail (h : e.Bare s) {reason : Text} (hs : e.around.sourceAt e.url = .error reason) :
    e.Loads s [] (s, .ends (.error (.loading s.setup.url reason))) := by
  have hscript : e.script = .error reason := by
    rw [script, Surroundings.scriptAt, hs]
  rw [h.url, Loads, ended, hscript]
  dsimp only [runnerOf, loadingOf]
  rw [← h.runner]
  exact ⟨s.host.bench.scratch, s.host.replies, s.journal, nofun, (List.append_nil _).symm, rfl⟩

/-- What was read ends the loading. -/
theorem Bare.takeFile (h : e.Bare s) {u : Url} (hu : Url.split e.url = .ok u)
    (hremote : u.isRemote = false) : e.Loads s [] (s.takeFile t (e.reading u)) := by
  have hsource : e.around.sourceAt e.url = (e.reading u).mapError Tree.ReadError.message := by
    rw [Surroundings.sourceAt, hu]
    dsimp only
    rw [if_neg (by simp [hremote])]
    rfl
  cases hr : e.reading u with
  | ok source =>
    rw [hr] at hsource
    exact h.compile hsource
  | error x =>
    rw [hr] at hsource
    exact h.fail hsource

/-- So does a reply, if its fault can be contained. -/
theorem Fresh.takeReply (h : e.Fresh s) {u : Url} (hu : Url.split e.url = .ok u)
    (hremote : u.isRemote)
    (hfetch : ∀ f, e.around.replies.now.source = .error f → f.reach = .contained) :
    e.Loads s [] (s.takeReply t) := by
  have hsource : e.around.sourceAt e.url = e.around.replies.now.source.mapError Fault.message := by
    rw [Surroundings.sourceAt, hu]
    dsimp only
    rw [if_pos hremote]
  obtain ⟨s', hs'⟩ : ∃ s', s.withHost { s.host with replies := s.host.replies.next } = s' :=
    ⟨_, rfl⟩
  have hbare : e.Bare s' := by
    subst hs'
    exact ⟨h.url, h.compiler, h.scratch, h.refusal, h.runner⟩
  have hclient : s'.setup.ownClient = false := by
    subst hs'
    exact h.client
  have hsame : ∀ b, e.Loads s' [] b → e.Loads s [] b := by
    subst hs'
    exact fun _ h => h
  unfold Session.takeReply
  dsimp only
  rw [hs', if_neg (by simp [hclient]), h.replies]
  refine hsame _ ?_
  cases hs : e.around.replies.now.source with
  | ok source =>
    rw [hs] at hsource
    exact hbare.compile hsource
  | error f =>
    rw [hs] at hsource
    dsimp only
    rw [loadingFailure_of_contained s' (hfetch f hs)]
    exact hbare.fail hsource

/-- The first turn of a loading ends it, or reads a file. -/
theorem Fresh.load (h : e.Fresh s)
    (hfetch : ∀ f, e.around.replies.now.source = .error f → f.reach = .contained) :
    e.Loads s (requests e.url) (s.load t) ∨
      ∃ u j, Url.split e.url = .ok u ∧ u.isRemote = false ∧
        j.effects = s.journal.effects ++ requests e.url ∧
        s.load t = ({ s with journal := j }, .waits (.reading (e.reading u)) .turn) := by
  obtain ⟨s', hs'⟩ : ∃ s', s.record (some t) (.fetching s.setup.url) = s' := ⟨_, rfl⟩
  have hfresh : e.Fresh s' := hs' ▸ h.record _
  have hsame : s' = { s with journal := s'.journal } := by
    subst hs'
    rfl
  have heffects : s'.journal.effects = s.journal.effects := by
    subst hs'
    exact Journal.effects_snoc rfl _
  unfold Session.load
  dsimp only
  rw [hs', hfresh.url]
  cases hu : Url.split e.url with
  | error x =>
    have hfail := hfresh.fail (show e.around.sourceAt e.url = .error x.message by
      rw [Surroundings.sourceAt, hu])
    rw [hfresh.url] at hfail
    rw [requests, hu]
    exact .inl (.after hsame (heffects.trans (List.append_nil _).symm) hfail)
  | ok u =>
    dsimp only
    rw [requests, hu]
    dsimp only
    by_cases hremote : u.isRemote
    · obtain ⟨s'', hs''⟩ : ∃ s'', s'.effect (some t) (.fetch s'.setup.url) = s'' := ⟨_, rfl⟩
      have hclient : (if s'.setup.ownClient then s'.effect (some t) .openClient else s') = s' :=
        if_neg (by simp [hfresh.client])
      have hasked : e.Fresh s'' := hs'' ▸ hfresh.record _
      have hfetched : s''.journal.effects = s.journal.effects ++ [.fetch e.url] := by
        rw [← hs'', ← heffects, ← hfresh.url]
        exact Journal.effects_append ..
      rw [if_pos hremote, if_pos hremote, hclient, hs'', if_neg (by simp [hasked.held])]
      refine .inl (.after ?_ hfetched (hasked.takeReply hu hremote hfetch))
      rw [← hs'', hsame]
      rfl
    · rw [if_neg hremote, if_neg hremote, hfresh.files]
      refine .inr ⟨u, s'.journal, rfl, by simpa using hremote, ?_, ?_⟩
      · exact heffects.trans (List.append_nil _).symm
      · rw [← hsame]
        rfl

end Loads

end Errand

end Cli

end Snippets
