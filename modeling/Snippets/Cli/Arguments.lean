import Snippets.Cli.Resemblance
import Snippets.Text.Quoted

/-!
Arguments of a command: options with and without values, and plain arguments. Two dashes end the
options; a value may follow its option as the next argument or after an equals sign.
-/

namespace Snippets.Cli

/-- An option of a command. -/
structure Switch where
  name : Text
  letter : Option CodePoint := none
  takesValue : Bool := false
  deriving DecidableEq, Repr

/-- The options of a command, and whether they may follow its plain arguments. -/
structure Grammar where
  switches : List Switch
  interspersed : Bool
  deriving DecidableEq, Repr

/-- Why arguments cannot be read. -/
inductive ArgumentError where
  | noSuchOption (name : Text) (suggestions : List Text)
  | needsValue (name : Text)
  | takesNoValue (name : Text)
  deriving DecidableEq, Repr

/-- What arguments amount to: the options in their order, and the plain arguments. -/
structure Arguments where
  given : List (Text × Option Text) := []
  plain : List Text := []
  deriving DecidableEq, Repr

/-- What one argument that begins with a dash stands for. -/
inductive Reading where
  | flags (names : List Text)
  | valued (name value : Text)
  | awaitsValue (name : Text)
  deriving DecidableEq, Repr

def dash : CodePoint := 0x2d
def equals : CodePoint := 0x3d

namespace Grammar

def find? (g : Grammar) (name : Text) : Option Switch := g.switches.find? fun s => s.name == name

/-- The names of flags that are written as letters after one dash. -/
def letters (g : Grammar) : Text → Except ArgumentError (List Text)
  | [] => .ok []
  | c :: rest =>
    match g.switches.find? fun s => s.letter == some c with
    | none => .error (.noSuchOption [dash, c] [])
    | some s => (s.name :: ·) <$> g.letters rest

/-- Reads an argument that begins with a dash. -/
def readOption (g : Grammar) (arg : Text) : Except ArgumentError Reading :=
  let name := arg.takeWhile (· ≠ equals)
  let value := (arg.drop name.length).tail?
  match g.find? name, value with
  | some s, none => .ok (if s.takesValue then .awaitsValue s.name else .flags [s.name])
  | some s, some v => if s.takesValue then .ok (.valued s.name v) else .error (.takesNoValue s.name)
  | none, _ =>
    if Text.startsWith [dash, dash] arg then
      .error (.noSuchOption name (Resemblance.suggestions name (g.switches.map Switch.name)))
    else .flags <$> g.letters arg.tail

/-- A dash with something after it begins an option. -/
def isOption : Text → Bool
  | c :: _ :: _ => c == dash
  | _ => false

/-- Puts an option in front. -/
def give (name : Text) (value : Option Text) (a : Arguments) : Arguments :=
  { a with given := (name, value) :: a.given }

/-- Reads the arguments of a command. -/
def read (g : Grammar) : List Text → Except ArgumentError Arguments
  | [] => .ok {}
  | arg :: rest =>
    if arg = [dash, dash] then .ok { plain := rest }
    else if isOption arg then
      match g.readOption arg with
      | .error e => .error e
      | .ok (.flags names) => (names.foldr (give · none)) <$> g.read rest
      | .ok (.valued name value) => give name (some value) <$> g.read rest
      | .ok (.awaitsValue name) =>
        match rest with
        | [] => .error (.needsValue name)
        | value :: rest => give name (some value) <$> g.read rest
    else if g.interspersed then
      (fun a => { a with plain := arg :: a.plain }) <$> g.read rest
    else .ok { plain := arg :: rest }

end Grammar

namespace Arguments

def has (a : Arguments) (name : Text) : Bool := a.given.any fun g => g.1 == name

/-- The value of an option; the last one counts. -/
def value? (a : Arguments) (name : Text) : Option Text :=
  (a.given.reverse.lookup name).join

end Arguments

/-- The suggestions after a name that is not known. -/
def suggest : List Text → Text
  | [] => []
  | [name] => text " Did you mean " ++ name.quoted ++ text "?"
  | names =>
    text " (Did you mean one of: " ++ Text.join (text ", ") (names.map Text.quoted) ++ text "?)"

def ArgumentError.message : ArgumentError → Text
  | .noSuchOption name suggestions =>
    text "No such option " ++ name.quoted ++ text "." ++ suggest suggestions
  | .needsValue name => text "Option " ++ name.quoted ++ text " requires an argument."
  | .takesNoValue name => text "Option " ++ name.quoted ++ text " does not take a value."

end Snippets.Cli
