import Snippets.File.Mapping
import Snippets.Log

/-!
A rule source with fixed contents: a snippet collection of any shape and a flag that exempts the
page. A source made from a file can read the file again.
-/

namespace Snippets

/-- The contents of a rule source, and the file behind them. -/
structure RuleSource where
  snippets : Value
  whitelisted : Value
  path : Option Path := none

namespace RuleSource

open MappingFile (LoadError)

/-- A source in memory. An absent collection is an empty one. -/
def new (snippets : Option Value) (whitelisted : Value) : RuleSource :=
  { snippets := match snippets with
      | none | some .null => .list []
      | some v => v
    whitelisted := whitelisted }

/-- The collection in a rules file. -/
def snippetsIn (entries : List (Value × Value)) : Value :=
  (Value.lookup (text "snippets") entries).getD (.list [])

def whitelistedIn (entries : List (Value × Value)) : Bool :=
  ((Value.lookup (text "whitelisted") entries).getD (.bool false)).truthy

/-- The source of a rules file. -/
def ofFile (files : Tree) (path : Path) : Except LoadError RuleSource := do
  let entries ← MappingFile.load files .rules path
  return { new (some (snippetsIn entries)) (.bool (whitelistedIn entries)) with path := some path }

/-- The source after a reload: with the given collection, or else with what its file holds now, or
else as it was. -/
def reload (s : RuleSource) (files : Tree) (snippets : Value) : Except LoadError RuleSource :=
  match snippets, s.path with
  | .null, some path => do
    let entries ← MappingFile.load files .rules path
    return { s with snippets := snippetsIn entries }
  | .null, none => .ok s
  | v, _ => .ok { s with snippets := v }

/-- The note of a reload that took place. -/
def reloadNote : Log := .debug (text "Rules reloaded")

end RuleSource

end Snippets
