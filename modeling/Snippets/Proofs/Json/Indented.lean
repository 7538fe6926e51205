import Snippets.Proofs.Json.Roundtrip

/-!
# One item per line

The text that `indented` writes of a simple value differs from the compact one in blanks only, so
its value in the JSON grammar is the same (`document_indented_iff`).
-/

namespace Snippets.Json

theorem isBlank_newline (level : Nat) : IsBlank (newline level) := by
  intro c hc
  rcases List.mem_cons.1 hc with rfl | hc
  · decide
  · rw [List.eq_of_mem_replicate hc]
    decide

theorem isBlank_lineEnd : IsBlank (text "\n") := isBlank_newline 0

theorem text_comma : text "," = [0x2c] := by decide +kernel

mutual

theorem derives_indentedAt : ∀ {v : Value} (level : Nat), v.isSimple →
    Derives v.paired (indentedAt level v)
  | .null, _, _ => .null
  | .bool b, _, _ => .bool b
  | .int i, _, _ => derives_int i
  | .text t, _, _ => .string (quoted_string t)
  | .list [], _, _ => .noItems isBlank_nil
  | .list (x :: xs), level, h => by
    rw [indentedAt, text_marks.1, text_marks.2.1, List.append_assoc, List.append_assoc,
      ← List.append_assoc (indentedItems _ _)]
    · exact .items (items_indentedItems (level + 1) (isBlank_newline level)
        (by simpa only [Value.isSimple] using h) nofun)
    · nofun
  | .map [], _, _ => .noEntries isBlank_nil
  | .map (e :: es), level, h => by
    have hentries : Entries [] ([] ++ Value.pairedEntries (e :: es))
        (indentedEntries (level + 1) (e :: es) ++ newline level) :=
      entries_indentedEntries (level + 1) (isBlank_newline level)
        (by simpa only [Value.isSimple] using h) nofun nofun
    rw [indentedAt, text_marks.2.2.1, text_marks.2.2.2.1, List.append_assoc, List.append_assoc,
      ← List.append_assoc (indentedEntries _ _)]
    · exact .entries hentries
    · nofun

/-- Items, with the blanks before the bracket that closes them. -/
theorem items_indentedItems : ∀ {xs : List Value} (level : Nat) {u : Text}, IsBlank u →
    Value.simpleItems xs → xs ≠ [] → Items (Value.pairedItems xs) (indentedItems level xs ++ u)
  | [x], level, u, hu, h, _ => by
    rw [Value.simpleItems, Bool.and_eq_true] at h
    rw [indentedItems, List.append_assoc]
    exact .last (isBlank_newline level) (derives_indentedAt level h.1) hu
  | x :: y :: xs, level, u, hu, h, _ => by
    rw [Value.simpleItems, Bool.and_eq_true] at h
    have hrest := items_indentedItems level hu h.2 nofun
    have hitems := Items.more (isBlank_newline level) (derives_indentedAt level h.1) isBlank_nil
      hrest
    rw [indentedItems, text_comma]
    simp only [List.append_assoc, List.cons_append, List.nil_append] at hitems ⊢
    exact hitems

/-- Entries, with the blanks before the brace that closes them. The keys read so far are among
`keys`, so each further one is added at the end. -/
theorem entries_indentedEntries : ∀ {es before : List (Value × Value)} {keys : List Text}
    (level : Nat) {u : Text}, IsBlank u → Value.simpleEntries keys es → es ≠ [] →
    KeysIn keys before →
    Entries before (before ++ Value.pairedEntries es) (indentedEntries level es ++ u)
  | [(.text k, v)], before, keys, level, u, hu, h, _, hbefore => by
    rw [Value.simpleEntries, Bool.and_eq_true, Bool.and_eq_true] at h
    have hfresh : k.joinPairs ∉ keys := by simpa using h.1.1
    have hentry : Entries before (Value.insertEntry (.text k.joinPairs) v.paired before) _ :=
      .last (isBlank_newline level) (quoted_string k) isBlank_nil isBlank_space
        (derives_indentedAt level h.1.2) hu
    rw [hbefore.insertEntry hfresh] at hentry
    rw [indentedEntries, text_marks.2.2.2.2.2]
    simp only [List.append_assoc, List.cons_append, List.nil_append] at hentry ⊢
    exact hentry
  | (.text k, v) :: e :: es, before, keys, level, u, hu, h, _, hbefore => by
    rw [Value.simpleEntries, Bool.and_eq_true, Bool.and_eq_true] at h
    have hfresh : k.joinPairs ∉ keys := by simpa using h.1.1
    have hrest := entries_indentedEntries level hu h.2 nofun (hbefore.concat k.joinPairs v.paired)
    rw [← hbefore.insertEntry hfresh] at hrest
    have hentry := Entries.more (isBlank_newline level) (quoted_string k) isBlank_nil isBlank_space
      (derives_indentedAt level h.1.2) isBlank_nil hrest
    rw [hbefore.insertEntry hfresh, List.append_assoc] at hentry
    rw [indentedEntries, text_marks.2.2.2.2.2, text_comma]
    simp only [List.append_assoc, List.cons_append, List.nil_append] at hentry ⊢
    exact hentry

end

/-- The text of a simple value, on lines of its own, has one value, the written one with its pairs
joined. -/
theorem document_indented_iff {v w : Value} (h : v.isSimple) :
    Document w (indented v ++ text "\n") ↔ w = v.paired := by
  have hdoc : Document v.paired (indented v ++ text "\n") :=
    .mk isBlank_nil (derives_indentedAt 0 h) isBlank_lineEnd
  constructor
  · intro hw
    exact hw.unique hdoc
  · rintro rfl
    exact hdoc

end Snippets.Json
