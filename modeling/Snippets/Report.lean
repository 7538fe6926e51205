import Snippets.Snippet

/-!
What one cycle did: how far it came, what it parsed and queued, how the queue was split and which
errors it met. A report is written out as a mapping with its fields in a fixed order.
-/

namespace Snippets

/-- How far a cycle came. -/
inductive Status where
  | completed
  | noRules
  | disabled
  | suppressed
  deriving DecidableEq, Repr

def Status.label : Status → Text
  | .completed => text "completed"
  | .noRules => text "no_rules"
  | .disabled => text "disabled"
  | .suppressed => text "suppressed"

/-- The queue split by who runs a snippet, each part in queue order. -/
structure Partition where
  locals : List (Snippet Text)
  externals : List (Snippet Text)
  deriving DecidableEq, Repr

/-- The external part, as the external runner takes it. -/
def Partition.filters (p : Partition) : List (List Text) := p.externals.map Snippet.toFilter

/-- The outcome of one cycle. -/
structure Report where
  status : Status
  parsed : Nat := 0
  queued : Nat := 0
  locals : List (Snippet Text) := []
  externals : List (Snippet Text) := []
  invoked : Bool := false
  errors : List Text := []
  deriving DecidableEq, Repr

namespace Report

/-- The fields of a report as values; a form can be filled in with anything. -/
structure Form where
  status : Value
  parsed : Value := .int 0
  queued : Value := .int 0
  locals : List (Snippet Value) := []
  externals : List (Snippet Value) := []
  invoked : Value := .bool false
  errors : Value := .list []

/-- The mapping that a form is written out as. Errors appear only if there are any. -/
def Form.toValue (f : Form) : Value :=
  let entry (name : String) (v : Value) : Value × Value := (.text (text name), v)
  let filters (ss : List (Snippet Value)) : Value := .list (ss.map fun s => .list s.toFilter)
  .map ([entry "status" f.status, entry "parsed" f.parsed, entry "queued" f.queued,
      entry "local" (filters f.locals), entry "external" (filters f.externals),
      entry "external_invoked" f.invoked] ++
    if f.errors.truthy then [entry "errors" f.errors] else [])

/-- A snippet of text as one of values. -/
def valueSnippet (s : Snippet Text) : Snippet Value := ⟨.text s.name, s.args.map .text⟩

def toForm (r : Report) : Form where
  status := .text r.status.label
  parsed := .int r.parsed
  queued := .int r.queued
  locals := r.locals.map valueSnippet
  externals := r.externals.map valueSnippet
  invoked := .bool r.invoked
  errors := .list (r.errors.map .text)

def toValue (r : Report) : Value := r.toForm.toValue

/-! ## Forms filled in by name -/

/-- Why named fields do not fill a form. -/
inductive FormError where
  | snippet (e : Snippet.BuildError)
  | missingStatus
  | unknownField (name : Text)

def FormError.message : FormError → Text
  | .snippet e => e.message
  | .missingStatus =>
    text "CycleReport.__init__() missing 1 required positional argument: 'status'"
  | .unknownField name =>
    text "CycleReport.__init__() got an unexpected keyword argument '" ++ name ++ text "'"

/-- The snippets of a list of calls. -/
def snippetsOf (v : Value) : Except FormError (List (Snippet Value)) := do
  let calls ← (Snippet.itemsOf v).mapError .snippet
  calls.mapM fun c => (Snippet.ofCall c).mapError .snippet

def fieldNames : List Text :=
  ["status", "parsed", "queued", "local", "external", "external_invoked", "errors"].map text

/-- The form with the given fields: the local calls are turned into snippets first, then the
external ones. -/
def Form.ofFields (fields : List (Value × Value)) : Except FormError Form := do
  let get (name : String) : Option Value := Value.lookup (text name) fields
  let snippets (name : String) : Except FormError (List (Snippet Value)) :=
    match get name with
    | some v => snippetsOf v
    | none => .ok []
  let localPart ← snippets "local"
  let externalPart ← snippets "external"
  for (k, _) in fields do
    match k with
    | .text name => if name ∉ fieldNames then throw (.unknownField name)
    | _ => pure ()
  let some status := get "status" | throw .missingStatus
  return { status := status
           parsed := (get "parsed").getD (.int 0)
           queued := (get "queued").getD (.int 0)
           locals := localPart
           externals := externalPart
           invoked := (get "external_invoked").getD (.bool false)
           errors := (get "errors").getD (.list []) }

end Report

end Snippets
