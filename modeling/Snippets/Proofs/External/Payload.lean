import Snippets.External.Script
import Snippets.Proofs.Json.Roundtrip
import Snippets.Proofs.Json.Writing
import Snippets.Proofs.Text.Utf8
import Snippets.World

/-!
# What a script is told

The input of a script is one line of printable ASCII whose only value in the JSON grammar is the
context with the batch, each string read with its surrogate pairs joined (`payload_lossless`).
-/

namespace Snippets

/-- Every context of an execution is simple, and its strings hold no pairs. -/
theorem World.context_simple (w : World) : w.context.isSimple ∧ w.context.paired = w.context := by
  have hkey : Text.joinPairs (text "world") = text "world" := by decide +kernel
  have hlabel : w.label.joinPairs = w.label := by cases w <;> decide +kernel
  constructor
  · rfl
  · simp only [context, Value.paired, Value.pairedEntries, hkey, hlabel]

namespace ScriptRunner

/-- The value whose text is the input of a script. -/
def message (context : Value) (filters : List (List Text)) : Value :=
  .map [(.text (text "context"), context),
    (.text (text "filters"), .list (filters.map fun f => .list (f.map .text)))]

/-- A batch with the surrogate pairs inside each string joined. -/
def pairedFilters (filters : List (List Text)) : List (List Text) :=
  filters.map (List.map Text.joinPairs)

variable {context context' : Value} {filters filters' : List (List Text)}

theorem message_inj : message context filters = message context' filters' ↔
    context = context' ∧ filters = filters' := by
  constructor
  · intro h
    simp only [message, Value.map.injEq, List.cons.injEq, Prod.mk.injEq, Value.list.injEq,
      true_and, and_true] at h
    refine ⟨h.1, ?_⟩
    have hlist : Function.Injective fun f : List Text => Value.list (f.map .text) := by
      intro f g hfg
      exact List.map_injective_iff.2 (fun _ _ => Value.text.inj) (Value.list.inj hfg)
    exact List.map_injective_iff.2 hlist h.2
  · rintro ⟨rfl, rfl⟩
    rfl

theorem isSimple_filters (filters : List (List Text)) :
    (Value.list (filters.map fun f => .list (f.map .text))).isSimple := by
  rw [Value.isSimple, Value.simpleItems_eq_all, List.all_map]
  exact List.all_eq_true.2 fun f _ => Value.isSimple_texts f

theorem paired_filters (filters : List (List Text)) :
    (Value.list (filters.map fun f => .list (f.map .text))).paired =
      .list ((pairedFilters filters).map fun f => .list (f.map .text)) := by
  rw [Value.paired, Value.pairedItems_eq_map, pairedFilters, List.map_map, List.map_map]
  congr 1
  exact List.map_congr_left fun f _ => Value.paired_texts f

theorem message_eq_record : message context filters = .record [(text "context", context),
    (text "filters", .list (filters.map fun f => .list (f.map .text)))] := rfl

theorem isSimple_message (hc : context.isSimple) : (message context filters).isSimple := by
  have hnames : [Text.joinPairs (text "context"), Text.joinPairs (text "filters")].Nodup := by
    decide +kernel
  rw [message_eq_record]
  refine Value.isSimple_record hnames ?_
  simpa using ⟨hc, isSimple_filters filters⟩

theorem paired_message :
    (message context filters).paired = message context.paired (pairedFilters filters) := by
  have hcontext : Text.joinPairs (text "context") = text "context" := by decide +kernel
  have hfilters : Text.joinPairs (text "filters") = text "filters" := by decide +kernel
  rw [message_eq_record, Value.paired_record, message_eq_record]
  simp only [List.map_cons, List.map_nil, hcontext, hfilters, paired_filters]

theorem pairedFilters_of_noPairs (h : ∀ f ∈ filters, ∀ t ∈ f, Text.noPairs t) :
    pairedFilters filters = filters := by
  have hwords : ∀ f ∈ filters, f.map Text.joinPairs = f := by
    intro f hf
    exact (List.map_congr_left fun t ht => Text.joinPairs_of_noPairs (h f hf t ht)).trans
      (List.map_id' f)
  exact (List.map_congr_left hwords).trans (List.map_id' filters)

/-- The input of a script is printable, so it can be encoded, and has one value in the JSON
grammar, by which it is read: the context and the filters, in their order and with their strings,
where a high surrogate directly before a low one counts as the code point they denote. So two
inputs are the same if and only if they tell the same up to such pairs, and batches without pairs
are not confused. The context of an execution is told as it is. -/
theorem payload_lossless {context : Value} (hc : context.isSimple) (filters : List (List Text)) :
    (∀ c ∈ payload context filters, 0x20 ≤ c.val ∧ c.val ≤ 0x7e) ∧
    (∃ bytes, Utf8.encode (payload context filters) = .ok bytes) ∧
    (∀ v, Json.Document v (payload context filters) ↔
      v = message context.paired (pairedFilters filters)) ∧
    Json.parse (payload context filters) =
      some (message context.paired (pairedFilters filters)) ∧
    (∀ (context' : Value) (filters' : List (List Text)), context'.isSimple →
      (payload context filters = payload context' filters' ↔
        context.paired = context'.paired ∧ pairedFilters filters = pairedFilters filters')) ∧
    (∀ filters' : List (List Text), (∀ f ∈ filters, ∀ t ∈ f, Text.noPairs t) →
      (∀ f ∈ filters', ∀ t ∈ f, Text.noPairs t) →
      payload context filters = payload context filters' → filters = filters') ∧
    ∀ w : World, w.context.isSimple ∧ w.context.paired = w.context := by
  have hplain := Json.isPlain_compact (message context filters)
  have hsimple : (message context filters).isSimple := isSimple_message hc
  have hdoc := fun v => Json.document_compact_iff (w := v) hsimple
  have hread := Json.parse_of_document (Json.document_compact hsimple)
  simp only [paired_message] at hdoc hread
  have hsame : ∀ (context' : Value) (filters' : List (List Text)), context'.isSimple →
      (payload context filters = payload context' filters' ↔
        context.paired = context'.paired ∧ pairedFilters filters = pairedFilters filters') := by
    intro context' filters' hc'
    rw [← message_inj, ← paired_message, ← paired_message]
    exact Json.compact_eq_iff hsimple (isSimple_message hc')
  refine ⟨?_, ?_, hdoc, hread, hsame, ?_, World.context_simple⟩
  · intro c hmem
    simpa [CodePoint.isPlain] using List.all_eq_true.1 hplain c hmem
  · exact ⟨_, Utf8.encode_of_forall
      (Text.not_isSurrogate_of_isLines (Text.isLines_of_isPlain hplain))⟩
  · intro filters' h h' heq
    have := ((hsame context filters' hc).1 heq).2
    rwa [pairedFilters_of_noPairs h, pairedFilters_of_noPairs h'] at this

/-- A pair and the code point it denotes are told alike. -/
theorem payload_lossless_pair :
    payload World.main.context [[[0xd800, 0xdc00]], [[0xdc00, 0xd800]]] =
      payload World.main.context [[[0x10000]], [[0xdc00, 0xd800]]] :=
  ((payload_lossless (World.context_simple .main).1 _).2.2.2.2.1 _ _
    (World.context_simple .main).1).2 ⟨rfl, by decide⟩

end ScriptRunner

end Snippets
