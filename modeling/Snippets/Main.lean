import Snippets.Cli.Program

/-!
The executable. It reads the files that the arguments may mean, asks the pure program for its
answer, and writes it. It has no access to the network and starts no child processes, so running
snippets reports that the external runner is not to be had.
-/

namespace Snippets.Main

/-- What stands in for the network and for child processes. -/
def unavailable : Fault := ⟨text "OSError", text "not available", .contained⟩

/-- Adds a file to the tree if it can be read. -/
def addFile (files : Tree) (name : String) : IO Tree := do
  try
    let bytes ← IO.FS.readBinFile name
    return files.write (Path.ofText (text name)) (.file bytes.toList)
  catch _ => return files

/-- The files that a command line may mean: every argument, the default configuration, and the
runner that a configuration names. -/
def readFiles (args : List String) (environment : Option String) : IO Tree := do
  let names := args ++ [".snippet-runner/config.yaml"] ++ environment.toList
  let mut files : Tree := {}
  for name in names do
    files ← addFile files name
  for name in names do
    match Config.load files (some (Path.ofText (text name))) none with
    | .ok config =>
      match config.runnerUrl.bind Text.toString? with
      | some url => files ← addFile files url
      | none => pure ()
    | .error _ => pure ()
  return files

def escapeMessage : Cli.Escape → Text
  | .load e => e.message
  | .failure f => f.message
  | .unprintable e => e.message

end Snippets.Main

open Snippets

def main (args : List String) : IO UInt32 := do
  let environment ← IO.getEnv "SNIPPET_RUNNER_URL"
  let files ← Main.readFiles args environment
  let answer := Cli.answer
    { files, environmentUrl := environment.map text
      replies := ⟨.fault Main.unavailable, []⟩, processes := ⟨.fault Main.unavailable, []⟩ }
    (args.map text)
  let out := (answer.output.toString?).getD ""
  let err := ((answer.errors ++ (answer.escaped.map Main.escapeMessage).getD []).toString?).getD ""
  (← IO.getStdout).putStr out
  (← IO.getStderr).putStr err
  return UInt32.ofNat answer.exit
