import Snippets.Cli.Arguments
import Snippets.File.Path

/-!
What a command line asks for. The program has three commands: `parse` shows the snippets of a
script, `partition` shows where the snippets of a rules file would run, and `run` runs them once.
-/

namespace Snippets.Cli

/-- How parsed snippets are shown. -/
inductive Format where
  | text
  | json
  deriving DecidableEq, Repr

def Format.label : Format → Text
  | .text => Snippets.text "text"
  | .json => Snippets.text "json"

inductive CommandName where
  | parse
  | partition
  | run
  deriving DecidableEq, Repr

inductive Invocation where
  | version
  | help (command : Option CommandName)
  | parse (script : Text) (format : Format)
  | partition (rules : Path)
  | run (rules : Path) (config : Option Path) (url : Option Text)
  deriving DecidableEq, Repr

/-- What is wrong with a command line. -/
inductive UsageError where
  | noArguments
  | arguments (e : ArgumentError)
  | badChoice (option value : Text) (choices : List Text)
  | missingArgument (name : Text)
  | extraArguments (args : List Text)
  | missingCommand
  | noSuchCommand (name : Text)
  deriving DecidableEq, Repr

/-- A command line that is refused, by the program or by one of its commands. -/
structure Refusal where
  command : Option CommandName
  error : UsageError
  deriving DecidableEq, Repr

/-! ## Names -/

namespace CommandName

def label : CommandName → Text
  | parse => text "parse"
  | partition => text "partition"
  | run => text "run"

def ofLabel? (t : Text) : Option CommandName :=
  [parse, partition, run].find? fun c => c.label == t

/-- The name of the one plain argument. -/
def argument : CommandName → Text
  | parse => text "SCRIPT"
  | _ => text "RULES_FILE"

end CommandName

def formatOption : Text := text "--output-format"
def configOption : Text := text "--config"
def urlOption : Text := text "--runner-url"
def versionOption : Text := text "--version"
def verboseOption : Text := text "--verbose"
def helpOption : Text := text "--help"

/-- The options of the program itself, which stand before the command. -/
def programGrammar : Grammar where
  switches := [{ name := versionOption }, { name := verboseOption, letter := some 0x76 },
    { name := helpOption }]
  interspersed := false

def CommandName.grammar (c : CommandName) : Grammar where
  switches := (match c with
    | .parse => [{ name := formatOption, takesValue := true }]
    | .partition => []
    | .run =>
      [{ name := configOption, takesValue := true }, { name := urlOption, takesValue := true }]) ++
    [{ name := helpOption }]
  interspersed := true

/-! ## Reading -/

def formatOf (a : Arguments) : Except UsageError Format :=
  match a.value? formatOption with
  | none => .ok .text
  | some v =>
    match [Format.json, .text].find? fun f => f.label == v with
    | some f => .ok f
    | none => .error (.badChoice formatOption v ([Format.json, .text].map Format.label))

/-- The one plain argument of a command. -/
def soleArgument (c : CommandName) : List Text → Except UsageError Text
  | [] => .error (.missingArgument c.argument)
  | [arg] => .ok arg
  | _ :: extra => .error (.extraArguments extra)

/-- What a command is asked for. -/
def readCommand (c : CommandName) (args : List Text) : Except UsageError Invocation := do
  let a ← (c.grammar.read args).mapError .arguments
  if a.has helpOption then return .help (some c)
  let format ← formatOf a
  let arg ← soleArgument c a.plain
  match c with
  | .parse => return .parse arg format
  | .partition => return .partition (Path.ofText arg)
  | .run =>
    return .run (Path.ofText arg) ((a.value? configOption).map Path.ofText) (a.value? urlOption)

/-- The first of the two eager options that was given. -/
def eager? (a : Arguments) : Option Invocation :=
  match a.given.find? fun g => g.1 == versionOption || g.1 == helpOption with
  | some (name, _) => some (if name = versionOption then .version else .help none)
  | none => none

/-- A command that is not known. One that looks like an option is first read as one. -/
def readUnknown (name : Text) (args : List Text) : Except Refusal Invocation :=
  let refused : Except Refusal Invocation := .error ⟨none, .noSuchCommand name⟩
  match programGrammar.read (name :: args) with
  | .error e => if Grammar.isOption name then .error ⟨none, .arguments e⟩ else refused
  | .ok a => ((eager? a).map .ok).getD refused

/-- What a command line asks for. -/
def Invocation.read (args : List Text) : Except Refusal Invocation :=
  if args.isEmpty then .error ⟨none, .noArguments⟩
  else
    match programGrammar.read args with
    | .error e => .error ⟨none, .arguments e⟩
    | .ok a =>
      match eager? a, a.plain with
      | some i, _ => .ok i
      | none, [] => .error ⟨none, .missingCommand⟩
      | none, name :: rest =>
        match CommandName.ofLabel? name with
        | some c => (readCommand c rest).mapError fun e => ⟨some c, e⟩
        | none => readUnknown name rest

/-! ## Refusals in words -/

/-- The program's name, as it calls itself. -/
def programName : Text := text "cli"

/-- The program, or one of its commands, as it is called. -/
def callName : Option CommandName → Text
  | none => programName
  | some c => programName ++ text " " ++ c.label

def usage (c : Option CommandName) : Text :=
  text "Usage: " ++ callName c ++ text " [OPTIONS] " ++
  (match c with
    | none => text "COMMAND [ARGS]..."
    | some c => c.argument) ++ text "\n"

def UsageError.message : UsageError → Text
  | .noArguments => []
  | .arguments e => e.message
  | .badChoice option value choices =>
    text "Invalid value for " ++ option.quoted ++ text ": " ++ value.quoted ++
      text " is not one of " ++ Text.join (text ", ") (choices.map Text.quoted) ++ text "."
  | .missingArgument name => text "Missing argument '" ++ name ++ text "'."
  | .extraArguments args =>
    text (if args.length = 1 then "Got unexpected extra argument (" else
      "Got unexpected extra arguments (") ++ Text.join (text " ") args ++ text ")"
  | .missingCommand => text "Missing command."
  | .noSuchCommand name => text "No such command " ++ name.quoted ++ text "."

/-- Whether the usage is shown before the message: not for an option that was given without its
value, or with one it does not take. -/
def UsageError.showsUsage : UsageError → Bool
  | .arguments (.needsValue _) | .arguments (.takesNoValue _) => false
  | _ => true

def Refusal.message (r : Refusal) : Text :=
  let hint :=
    if r.error.showsUsage then
      usage r.command ++ text "Try '" ++ callName r.command ++ text " --help' for help.\n\n"
    else []
  match r.error with
  | .noArguments => usage r.command
  | e => hint ++ text "Error: " ++ e.message ++ text "\n"

end Snippets.Cli
