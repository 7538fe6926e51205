import Snippets.Value

/-!
The two worlds in which an external runner can execute, and the context that tells it which one.
-/

namespace Snippets

inductive World where
  | isolated
  | main
  deriving DecidableEq, Repr, Inhabited

namespace World

def label : World → Text
  | isolated => text "ISOLATED"
  | main => text "MAIN"

/-- The world with a label; case matters. -/
def ofLabel? (t : Text) : Option World :=
  if t = isolated.label then some isolated
  else if t = main.label then some main
  else none

/-- A value that labels no world. -/
structure UnknownLabel where
  value : Value

def UnknownLabel.message (e : UnknownLabel) : Text :=
  e.value.render ++ text " is not a valid ExecutionWorld"

def ofValue : Value → Except UnknownLabel World
  | .text t =>
    match ofLabel? t with
    | some w => .ok w
    | none => .error ⟨.text t⟩
  | v => .error ⟨v⟩

/-- The context that the external runner gets as its first argument. -/
def context (w : World) : Value := .map [(.text (text "world"), .text w.label)]

end World

end Snippets
