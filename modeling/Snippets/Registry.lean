import Snippets.Assoc
import Snippets.Page.SkipMedia

/-!
Commands that are carried out in the process itself. Handlers are registered by name while the
registry is open; freezing it is final.
-/

namespace Snippets

/-- Handlers in order of first registration. -/
structure Registry (η : Type) where
  handlers : List (Text × η) := []
  frozen : Bool := false

namespace Registry

variable {η : Type}

/-- Why a handler was not registered. -/
inductive RegisterError where
  | emptyName
  | frozen (name : Text)
  deriving DecidableEq, Repr

def RegisterError.message : RegisterError → Text
  | .emptyName => text "Handler name must be non-empty"
  | .frozen name => text "Cannot register '" ++ name ++ text "': registry is frozen"

/-- Registers a handler. A name keeps its place when its handler is replaced. -/
def register (r : Registry η) (name : Text) (handler : η) : Except RegisterError (Registry η) :=
  if name = [] then .error .emptyName
  else if r.frozen then .error (.frozen name)
  else .ok { r with handlers := Assoc.put name handler r.handlers }

def freeze (r : Registry η) : Registry η := { r with frozen := true }

def resolve (r : Registry η) (name : Text) : Option η := r.handlers.lookup name

def names (r : Registry η) : List Text := r.handlers.map Prod.fst

def contains (r : Registry η) (name : Text) : Bool := r.names.contains name

def size (r : Registry η) : Nat := r.handlers.length

/-- The names of the built-in handlers. -/
def standardNames : List Text := [Page.skipName]

/-- The frozen registry with one handler for each built-in name. -/
def standard (handler : η) : Registry η :=
  { handlers := standardNames.map fun name => (name, handler), frozen := true }

end Registry

end Snippets
