import Snippets.Value

/-!
Content filters that a host can switch on separately, and a gate with a fixed set of them.
-/

namespace Snippets

/-- The kinds of content filter. -/
inductive Filter where
  | ads
  | trackers
  | annoyances
  deriving DecidableEq, Repr

namespace Filter

def label : Filter → Text
  | ads => text "ads"
  | trackers => text "trackers"
  | annoyances => text "annoyances"

def ofLabel? (t : Text) : Option Filter :=
  [ads, trackers, annoyances].find? fun f => f.label == t

/-- A value that labels no filter. -/
structure UnknownLabel where
  value : Value

def UnknownLabel.message (e : UnknownLabel) : Text :=
  e.value.render ++ text " is not a valid ContentFilterType"

def ofValue : Value → Except UnknownLabel Filter
  | .text t =>
    match ofLabel? t with
    | some f => .ok f
    | none => .error ⟨.text t⟩
  | v => .error ⟨v⟩

end Filter

/-- The filters that are on. -/
abbrev Gate := List Filter

namespace Gate

/-- Without other orders only advertisements are filtered. -/
def standard : Gate := [.ads]

def isOn (g : Gate) (f : Filter) : Bool := f ∈ g

end Gate

end Snippets
