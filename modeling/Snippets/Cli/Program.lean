import Snippets.Cli.Invocation
import Snippets.Cli.Table
import Snippets.Config.Basic
import Snippets.Session.Command

/-!
The program behind the command line, as a function of its arguments and of the world around it:
files, the environment, the network and child processes. What it writes and how it exits is its
answer.
-/

namespace Snippets.Cli

/-- How the terminal reads what it is given to show. Brackets in a title may be marks, which are
not shown, and marks that do not fit together are refused. Cells are guarded against that, but names
of emoji are shown as emoji. Left alone, both are shown as they stand. -/
structure Console where
  title : Text → Except Fault Text := .ok
  cell : Text → Text := id

/-- What the program can reach. -/
structure Surroundings where
  files : Tree
  environmentUrl : Option Text := none
  replies : Supply Reply
  processes : Supply ProcessEnd
  console : Console := {}
  /-- the folder of the scratch files, if it is known -/
  folder : Option Text := none
  /-- what the system says if it gives no scratch files -/
  refusal : Option Text := none

/-- What the program lets through instead of answering. -/
inductive Escape where
  | load (e : MappingFile.LoadError)
  | failure (f : Failure)
  | unprintable (e : Utf8.EncodeError)

structure Answer where
  exit : Nat := 0
  output : Text := []
  errors : Text := []
  effects : List Effect := []
  escaped : Option Escape := none

namespace Answer

/-- An error that the user can mend. -/
def complain (message : Text) : Answer :=
  { exit := 1, errors := text "Error: " ++ message ++ text "\n" }

def escape (e : Escape) : Answer := { exit := 1, escaped := some e }

/-- Text on the output, unless it cannot be encoded. -/
def print (t : Text) : Answer :=
  match Utf8.encode t with
  | .ok _ => { output := t }
  | .error e => escape (.unprintable e)

/-- Lines on the output, up to the first that cannot be encoded. -/
def printLines : List Text → Answer
  | [] => {}
  | line :: rest =>
    match Utf8.encode line with
    | .ok _ =>
      let others := printLines rest
      { others with output := line ++ text "\n" ++ others.output }
    | .error e => escape (.unprintable e)

end Answer

/-! ## Errors of files -/

/-- Whether an error of loading a mapping is told to the user; others are let through. -/
def isUserError : MappingFile.LoadError → Bool
  | .missing _ _ | .notMapping _ _ => true
  | .malformed => false
  | .unreadable e =>
    match e with
    | .isDirectory _ | .notDirectory _ => false
    | _ => true

def loadFailed (e : MappingFile.LoadError) : Answer :=
  if isUserError e then .complain e.message else .escape (.load e)

def configFailed : Config.LoadError → Answer
  | .file e => loadFailed e
  | .invalid is => .complain (Config.renderIssues is)

/-! ## Commands -/

/-- The line of one snippet: its number, its name and its arguments in quotes. -/
def snippetLine (n : Nat) (s : Snippet Text) : Text :=
  Text.trimRight (Text.ofNat n ++ text ". " ++ s.name ++ text " " ++
    Text.join (text " ") (s.args.map Text.quoted))

def parse (script : Text) (format : Format) : Answer :=
  let snippets := Script.parse script
  match format with
  | .json =>
    .print (Json.indented (.list (snippets.map fun s => .list (s.toFilter.map .text))) ++ text "\n")
  | .text =>
    if snippets.isEmpty then .print (text "No snippets found\n")
    else .printLines (snippets.zipIdx.map fun (s, i) => snippetLine (i + 1) s)

/-- Where a snippet would run on a host with the built-in handlers. -/
def target (s : Snippet Text) : Text :=
  text (if Registry.standardNames.contains s.name then "local (DOM host)" else "external")

/-- What the row of a snippet tells: its number, its name, its arguments and where it would run. -/
def partitionRow (n : Nat) (s : Snippet Text) : List Text :=
  [Text.ofNat n, s.name, Json.compact (.list (s.args.map .text)), target s]

/-- The table of snippets under a title, with the cells that are shown. -/
def partitionTable (title : Text) (cell : Text → Text) (snippets : List (Snippet Text)) :
    Table where
  title
  columns := [{ header := text "#", alignment := .right }, { header := text "Name" },
    { header := text "Arguments" }, { header := text "Target" }]
  rows := snippets.zipIdx.map fun (s, i) => (partitionRow (i + 1) s).map cell

def partition (w : Surroundings) (rules : Path) : Answer :=
  match MappingFile.load w.files .rules rules with
  | .error e => loadFailed e
  | .ok entries =>
    match RuleSource.snippetsIn entries with
    | .list items =>
      match w.console.title (text "Snippets in " ++ rules.render) with
      | .error f => .escape (.failure (.fault f))
      | .ok title => .print (partitionTable title w.console.cell (Script.parseAll items)).render
    | _ => .complain (text "'snippets' must be a list of scripts")

/-- The session of one run. There are no local handlers. -/
def runSession (w : Surroundings) (config : Config) (source : RuleSource) (url : Text) :
    Session where
  setup := { registry := ({} : Registry (Option Nat)).freeze, world := config.world, url }
  host :=
    { source, replies := w.replies, files := w.files
      compiler := .script ⟨config.interpreter, config.timeout, w.folder⟩
      bench := { processes := w.processes, refusal := w.refusal } }

/-- What one run does: it starts the runner, waits for its cycles and, whatever happened, stops and
closes everything. -/
def runDue : List Due :=
  [⟨.start, false⟩, ⟨.drain, false⟩, ⟨.stop, true⟩, ⟨.close, true⟩]

/-- The session after one run, and how the run ended. -/
def runOnce (s : Session) : Session × Outcome :=
  let (s, t) := s.spawn .other runDue
  let s := s.runUntil t
  (s, s.outcomeOf t)

/-- What a run prints: its report, or that the page is exempt. -/
def resultValue : Result → Value
  | .report r => r.toValue
  | _ => .map [(.text (text "status"), .text Status.suppressed.label)]

/-- The address that was given, or else the configured one; an empty one is none. -/
def chooseUrl (given configured : Option Text) : Option Text :=
  match given, configured with
  | some (c :: rest), _ => some (c :: rest)
  | _, some (c :: rest) => some (c :: rest)
  | _, _ => none

def run (w : Surroundings) (rules : Path) (configPath : Option Path) (given : Option Text) :
    Answer :=
  match Config.load w.files configPath w.environmentUrl with
  | .error e => configFailed e
  | .ok config =>
    match RuleSource.ofFile w.files rules with
    | .error e => loadFailed e
    | .ok source =>
      match chooseUrl given config.runnerUrl with
      | none => .complain (text ("No external runner configured. Pass --runner-url or set " ++
          "runner_url in .snippet-runner/config.yaml"))
      | some url =>
        let (s, o) := runOnce (runSession w config source url)
        let answer := match o with
          | .ok r => Answer.print (Json.indented (resultValue r) ++ text "\n")
          | .error f => .escape (.failure f)
        { answer with effects := s.journal.effects }

/-! ## The program -/

def versionNumber : Text := text "0.3.0"

def perform (w : Surroundings) : Invocation → Answer
  | .version => .print (programName ++ text ", version " ++ versionNumber ++ text "\n")
  | .help c => .print (usage c)
  | .parse script format => parse script format
  | .partition rules => partition w rules
  | .run rules config url => run w rules config url

/-- The answer to a command line. -/
def answer (w : Surroundings) (args : List Text) : Answer :=
  match Invocation.read args with
  | .ok i => perform w i
  | .error r => { exit := 2, errors := r.message }

end Snippets.Cli
