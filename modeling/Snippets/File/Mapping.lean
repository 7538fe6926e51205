import Snippets.File.Tree
import Snippets.Yaml.Reader

/-!
Files that hold a mapping: rules files and configuration files. A document that counts as false is
an empty mapping, and any other document that is no mapping is refused.
-/

namespace Snippets.MappingFile

/-- What a file is for, as messages name it. -/
inductive Purpose where
  | rules
  | config
  deriving DecidableEq, Repr

def Purpose.label : Purpose → Text
  | .rules => text "Rules file"
  | .config => text "Config file"

/-- Why a mapping cannot be loaded. -/
inductive LoadError where
  | missing (purpose : Purpose) (path : Path)
  | unreadable (e : Tree.ReadError)
  | malformed
  | notMapping (purpose : Purpose) (path : Path)
  deriving DecidableEq, Repr

/-- The message of an error; a malformed document has none of its own. -/
def LoadError.message : LoadError → Text
  | .missing p path => p.label ++ text " not found: " ++ path.render
  | .unreadable e => e.message
  | .malformed => []
  | .notMapping p path => p.label ++ text " must contain a mapping: " ++ path.render

/-- The error of reading a document in portions. -/
def portioned : Tree.ReadError → Tree.ReadError
  | .undecodable e => .undecodable e.portioned
  | e => e

/-- The entries of a document. -/
def ofDocument (purpose : Purpose) (path : Path) (document : Text) :
    Except LoadError (List (Value × Value)) :=
  match Yaml.parse document with
  | none => .error .malformed
  | some v =>
    if !v.truthy then .ok []
    else
      match v with
      | .map entries => .ok entries
      | _ => .error (.notMapping purpose path)

/-- The entries of a file that is known to be there. -/
def read (files : Tree) (purpose : Purpose) (path : Path) :
    Except LoadError (List (Value × Value)) := do
  let document ← (files.readText path).mapError fun e => .unreadable (portioned e)
  ofDocument purpose path document

/-- The entries of a file. -/
def load (files : Tree) (purpose : Purpose) (path : Path) :
    Except LoadError (List (Value × Value)) :=
  if files.holds path then read files purpose path else .error (.missing purpose path)

end Snippets.MappingFile
