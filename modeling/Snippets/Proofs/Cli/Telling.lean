import Snippets.Cli.Program
import Snippets.Proofs.External.Payload
import Snippets.Proofs.Json.Indented

/-!
# What a run tells

The report that a run prints and the input of its child process are JSON texts with one value each,
which is spelled out here: the calls in their order, each a name with its arguments
(`document_report_iff`, `document_input_iff`).
-/

namespace Snippets

namespace Cli

/-- The calls of the scripts among some items, in file order. -/
def callsIn : List Value → List (Snippet Text)
  | [] => []
  | .text script :: items => Script.parse script ++ callsIn items
  | _ :: items => callsIn items

theorem parseAll_eq_callsIn (items : List Value) : Script.parseAll items = callsIn items := by
  unfold Script.parseAll
  fun_induction callsIn items with
  | case1 => rfl
  | case2 script items ih =>
    rw [← ih]
    rfl
  | case3 item items hitem ih =>
    rw [← ih, List.filterMap_cons]
    cases item with
    | text script => exact absurd rfl (hitem script)
    | _ => rfl

/-- Calls as values: a list per call. -/
def callsValue (filters : List (List Text)) : Value :=
  .list (filters.map fun f => .list (f.map .text))

/-- What the report of a run tells that has completed, where `filters` are its calls. -/
def told (filters : List (List Text)) (invoked : Bool) (errors : List Text) : Value :=
  .record ([(text "status", .text (text "completed")), (text "parsed", .int filters.length),
      (text "queued", .int filters.length), (text "local", .list []),
      (text "external", callsValue filters), (text "external_invoked", .bool invoked)] ++
    if errors.isEmpty then [] else [(text "errors", .list (errors.map .text))])

/-- What a child process is told: its world and the calls. -/
def handed (world : World) (filters : List (List Text)) : Value :=
  .record [(text "context", .record [(text "world", .text (match world with
      | .isolated => text "ISOLATED"
      | .main => text "MAIN"))]),
    (text "filters", callsValue filters)]

variable {filters : List (List Text)} {invoked : Bool} {errors : List Text}

theorem isSimple_told : (told filters invoked errors).isSimple := by
  have hnames : [text "status", text "parsed", text "queued", text "local", text "external",
      text "external_invoked", text "errors"].map Text.joinPairs |>.Nodup := by decide +kernel
  have hcalls : (callsValue filters).isSimple := ScriptRunner.isSimple_filters filters
  have herrors : (Value.list (errors.map .text)).isSimple := Value.isSimple_texts errors
  refine Value.isSimple_record ?_ ?_
  · cases errors with
    | nil => exact hnames.sublist (List.sublist_append_left _ [Text.joinPairs (text "errors")])
    | cons e es => exact hnames
  · intro f hf
    rcases List.mem_append.1 hf with hf | hf
    · simp only [List.mem_cons, List.not_mem_nil, or_false] at hf
      rcases hf with rfl | rfl | rfl | rfl | rfl | rfl <;> first | rfl | exact hcalls
    · split_ifs at hf
      · cases hf
      · rw [List.mem_singleton.1 hf]
        exact herrors

theorem paired_told : (told filters invoked errors).paired =
    told (ScriptRunner.pairedFilters filters) invoked (errors.map Text.joinPairs) := by
  have hnames : [text "status", text "parsed", text "queued", text "local", text "external",
      text "external_invoked", text "errors", text "completed"].map Text.joinPairs =
      [text "status", text "parsed", text "queued", text "local", text "external",
        text "external_invoked", text "errors", text "completed"] := by decide +kernel
  simp only [List.map_cons, List.cons.injEq, List.map_nil, and_true] at hnames
  obtain ⟨h₁, h₂, h₃, h₄, h₅, h₆, h₇, h₈⟩ := hnames
  have hcalls : (callsValue filters).paired =
      callsValue (ScriptRunner.pairedFilters filters) := ScriptRunner.paired_filters filters
  have hlength : (ScriptRunner.pairedFilters filters).length = filters.length := List.length_map ..
  have herrors := Value.paired_texts errors
  rw [told, told, Value.paired_record, hlength, List.isEmpty_map]
  generalize Value.list (errors.map .text) = es at herrors
  cases errors.isEmpty <;>
    simp [h₁, h₂, h₃, h₄, h₅, h₆, h₇, h₈, hcalls, herrors, Value.paired, Value.pairedItems]

/-- The value that a report is written out as, if the report is that of a run. -/
theorem toValue_eq_told {r : Report} (hstatus : r.status = .completed) (hlocals : r.locals = [])
    (hparsed : r.parsed = r.externals.length) (hqueued : r.queued = r.externals.length) :
    r.toValue = told (r.externals.map fun s => s.name :: s.args) r.invoked r.errors := by
  have hcalls : Value.list ((r.externals.map Report.valueSnippet).map fun s => .list s.toFilter) =
      callsValue (r.externals.map fun s => s.name :: s.args) := by
    rw [callsValue, List.map_map, List.map_map]
    rfl
  have herrors : (Value.list (r.errors.map .text)).truthy = !r.errors.isEmpty := by
    rw [Value.truthy, List.isEmpty_map]
  unfold Report.toValue Report.Form.toValue Report.toForm
  dsimp only
  rw [hcalls, herrors, hstatus, hlocals, hparsed, hqueued]
  cases r.errors <;> simp [told, Value.record, Status.label]

theorem document_report_iff {r : Report} (hstatus : r.status = .completed) (hlocals : r.locals = [])
    (hparsed : r.parsed = r.externals.length) (hqueued : r.queued = r.externals.length)
    {v : Value} :
    Json.Document v (Json.indented r.toValue ++ text "\n") ↔
      v = told (ScriptRunner.pairedFilters (r.externals.map fun s => s.name :: s.args)) r.invoked
        (r.errors.map Text.joinPairs) := by
  rw [toValue_eq_told hstatus hlocals hparsed hqueued, Json.document_indented_iff isSimple_told,
    paired_told]

theorem document_input_iff {world : World} {v : Value} :
    Json.Document v (ScriptRunner.payload world.context filters) ↔
      v = handed world (ScriptRunner.pairedFilters filters) := by
  obtain ⟨hsimple, hpaired⟩ := world.context_simple
  have hhanded : ∀ filters, handed world filters = ScriptRunner.message world.context filters := by
    intro filters
    cases world <;> rfl
  rw [hhanded, ← hpaired, ← ScriptRunner.paired_message, hpaired]
  exact Json.document_compact_iff (ScriptRunner.isSimple_message hsimple)

end Cli

end Snippets
