import Snippets.Log
import Snippets.Script.Scan
import Snippets.Value

/-!
A snippet is one command: a name and its arguments. Scripts yield snippets of text; a host may also
build one from arbitrary values, as long as the name is not empty.
-/

namespace Snippets

/-- A command with its arguments. -/
structure Snippet (α : Type) where
  name : α
  args : List α
  deriving DecidableEq, Repr

namespace Snippet

/-- The name followed by the arguments, as the external runner takes them. -/
def toFilter {α : Type} (s : Snippet α) : List α := s.name :: s.args

@[simp] theorem toFilter_mk {α : Type} (n : α) (as : List α) :
    (Snippet.mk n as).toFilter = n :: as := rfl

/-- The snippet of a call of a script; a call with an empty name has none. -/
def ofCall? : List Text → Option (Snippet Text)
  | [] => none
  | [] :: _ => none
  | name :: args => some ⟨name, args⟩

/-! ## Snippets of arbitrary values -/

/-- Why values do not form a snippet. -/
inductive BuildError where
  | emptyName
  | emptyCall
  | notIterable (kind : Text)
  | notIndexable (kind : Text)
  | noFirstKey
  deriving DecidableEq, Repr

def BuildError.message : BuildError → Text
  | .emptyName => text "Snippet name must be non-empty"
  | .emptyCall => text "Cannot build a snippet from an empty call"
  | .notIterable kind => text "'" ++ kind ++ text "' object is not iterable"
  | .notIndexable kind => text "'" ++ kind ++ text "' object is not subscriptable"
  | .noFirstKey => text "0"

/-- The items of a value that can be gone through: a text has its characters, a mapping its keys. -/
def itemsOf : Value → Except BuildError (List Value)
  | .list xs => .ok xs
  | .tuple xs => .ok xs
  | .text t => .ok (t.map fun c => .text [c])
  | .map es => .ok (es.map Prod.fst)
  | v => .error (.notIterable v.kind)

/-- The snippet of a name and a value that holds the arguments. -/
def build (name args : Value) : Except BuildError (Snippet Value) := do
  if !name.truthy then throw .emptyName
  return ⟨name, ← itemsOf args⟩

/-- The items of a call, which are found by their place in it. -/
def placesOf : Value → Except BuildError (List Value)
  | .list xs => .ok xs
  | .tuple xs => .ok xs
  | .text t => .ok (t.map fun c => .text [c])
  | .map _ => .error .noFirstKey
  | v => .error (.notIndexable v.kind)

/-- The snippet of a value that holds the name and the arguments. -/
def ofCall (call : Value) : Except BuildError (Snippet Value) := do
  if !call.truthy then throw .emptyCall
  match ← placesOf call with
  | [] => throw .emptyCall
  | name :: args => build name (.tuple args)

/-- Whether two snippets of values are equal. -/
def same (s t : Snippet Value) : Bool := s.name.same t.name && Value.sameItems s.args t.args

end Snippet

namespace Script

/-- The snippets of a script, in order. -/
def parse (script : Text) : List (Snippet Text) := (calls script).filterMap Snippet.ofCall?

/-- The snippets of those rules that are text, in order. -/
def parseAll (rules : List Value) : List (Snippet Text) :=
  (rules.filterMap Value.toText?).flatMap parse

/-- A note for each call that is dropped because its name is empty. -/
def notes (script : Text) : List Log :=
  (calls script).filterMap fun call =>
    match call with
    | [] :: _ =>
      some (.debug (text "Dropping call with empty name: " ++ (Value.list (call.map .text)).render))
    | _ => none

end Script

end Snippets
