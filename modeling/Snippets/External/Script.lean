import Snippets.Effect
import Snippets.Failure
import Snippets.Json.Writer
import Snippets.Log
import Snippets.Supply
import Snippets.Text.Blank
import Snippets.Text.Utf8

/-!
The external runner as a script: its source is written to a scratch file, and each batch starts an
interpreter on that file and hands it the batch as JSON on its input. The exit code of the process
is noted and otherwise ignored.
-/

namespace Snippets

/-- Scratch files by number; numbers are not used twice. -/
structure Scratch where
  files : List (Nat × List UInt8) := []
  next : Nat := 0
  deriving DecidableEq, Repr

namespace Scratch

/-- Makes an empty file. -/
def create (s : Scratch) : Scratch × Nat :=
  ({ files := s.files ++ [(s.next, [])], next := s.next + 1 }, s.next)

/-- Replaces the contents of a file. -/
def write (s : Scratch) (file : Nat) (bytes : List UInt8) : Scratch :=
  { s with files := s.files.map fun f => if f.1 = file then (f.1, bytes) else f }

/-- Removes a file; it need not be there. -/
def remove (s : Scratch) (file : Nat) : Scratch :=
  { s with files := s.files.filter fun f => f.1 != file }

def contents? (s : Scratch) (file : Nat) : Option (List UInt8) := s.files.lookup file

/-- How a scratch file is shown where nothing is known of the folder in which it lies. -/
def name (_ : Nat) : Text := text "<script>"

/-- The path of a scratch file. In a folder that is known each has a path of its own. -/
def path (folder : Option Text) (file : Nat) : Text :=
  match folder with
  | none => name file
  | some folder => folder ++ text "/" ++ Text.ofNat file ++ text ".js"

end Scratch

/-- How scripts are run. -/
structure ScriptSettings where
  interpreter : List Text := [text "node"]
  timeout : Int := 30
  /-- the folder of the scratch files, if it is known -/
  folder : Option Text := none
  deriving DecidableEq, Repr

/-- A script that is ready to run. -/
structure ScriptRunner where
  script : Nat
  settings : ScriptSettings
  deriving DecidableEq, Repr

/-- Why a source is not compiled. -/
inductive CompileError where
  | blank
  | unencodable (e : Utf8.EncodeError)
  | fault (f : Fault)
  deriving DecidableEq, Repr

def CompileError.message : CompileError → Text
  | .blank => text "External runner source is empty"
  | .unencodable e => e.message
  | .fault f => f.message

namespace ScriptSettings

/-- Writes a source to a new scratch file. The file is made before the source is encoded. -/
def compile (settings : ScriptSettings) (source : Text) (scratch : Scratch) :
    Scratch × Except CompileError ScriptRunner :=
  if (Text.trim source).isEmpty then (scratch, .error .blank)
  else
    let (scratch, file) := scratch.create
    match Utf8.encode source with
    | .ok bytes => (scratch.write file bytes, .ok ⟨file, settings⟩)
    | .error e => (scratch, .error (.unencodable e))

/-- The note of a compilation that succeeded. -/
def compiledNote (r : ScriptRunner) : Log :=
  .debug (text "Compiled external runner to " ++ Scratch.path r.settings.folder r.script)

end ScriptSettings

/-- How a child process ends. -/
inductive ProcessEnd where
  | exit (code : Int) (errors : Text)
  | timeout
  | fault (f : Fault)
  deriving DecidableEq, Repr

namespace ScriptRunner

/-- What the script reads: the context and the batch. -/
def payload (context : Value) (filters : List (List Text)) : Text :=
  Json.compact (.map [(.text (text "context"), context),
    (.text (text "filters"), .list (filters.map fun f => .list (f.map .text)))])

def argv (r : ScriptRunner) : List Text :=
  r.settings.interpreter ++ [Scratch.path r.settings.folder r.script]

/-- The effect of running a batch. -/
def effect (r : ScriptRunner) (context : Value) (filters : List (List Text)) : Effect :=
  .exec r.argv (payload context filters) r.settings.timeout

/-- What becomes of a batch whose process ended in a certain way: a note, or a failure. -/
def conclude (r : ScriptRunner) : ProcessEnd → List Log × Option Failure
  | .exit code errors =>
    (if code = 0 then []
      else [.warning (text "External runner exited with code " ++ Text.ofInt code ++ text ": " ++
        Text.trim errors)], none)
  | .timeout => ([], some (.timedOut r.argv r.settings.timeout))
  | .fault f => ([], some (.ofFault f))

/-- What one batch did. -/
structure Run where
  effect : Effect
  logs : List Log
  failure : Option Failure

/-- Runs a batch in the next child process. -/
def run (r : ScriptRunner) (context : Value) (filters : List (List Text))
    (processes : Supply ProcessEnd) : Run × Supply ProcessEnd :=
  let (logs, failure) := r.conclude processes.now
  (⟨r.effect context filters, logs, failure⟩, processes.next)

/-- Removes the script. -/
def close (r : ScriptRunner) (scratch : Scratch) : Scratch := scratch.remove r.script

end ScriptRunner

end Snippets
