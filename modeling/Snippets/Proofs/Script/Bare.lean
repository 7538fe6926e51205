import Snippets.Proofs.Script.Writing

/-!
# Writing scripts without quotes

Words that are not empty need no quotes: `writeBare` puts a backslash before every separator, quote
and backslash and writes any other code point as itself. Reading gives the calls back, but for one
case (`calls_writeBare`). A script is trimmed before it is read, and trimming does not know of
backslashes: if the last word ends in a space, that space is cut off, the backslash before it takes
the semicolon that was to end the script, and the last call is lost.
-/

namespace Snippets.Script

/-! ## Spelling -/

/-- A code point as itself, or after a backslash if it would not be part of the word otherwise. -/
def spellBare (c : CodePoint) : Text := if isBare c then [c] else [backslash, c]

def writeBareWord (word : Text) : Text := word.flatMap spellBare

def writeBareCall (call : List Text) : Text := Text.join [space] (call.map writeBareWord)

/-- A script for calls, without quotes. -/
def writeBare (calls : List (List Text)) : Text :=
  Text.join [semicolon] (calls.map writeBareCall)

/-- Whether the last word of the last call ends in a space. -/
def endsInSpace (calls : List (List Text)) : Bool :=
  ((calls.getLast?.bind List.getLast?).bind List.getLast?).any isSpace

theorem isBare_iff (c : CodePoint) :
    isBare c ↔ c ≠ quote ∧ c ≠ backslash ∧ c ≠ semicolon ∧ isSpace c = false := by
  simp [isBare, isVerbatim, isSeparator, and_assoc]

theorem spellBare_space {c : CodePoint} (h : isSpace c) : spellBare c = [backslash, c] := by
  unfold spellBare
  rw [if_neg]
  rw [isBare_iff]
  rintro ⟨-, -, -, hs⟩
  rw [h] at hs
  cases hs

/-- A code point that is spelled without quotes is one piece, which means the code point. -/
theorem exists_piece_bare (c : CodePoint) :
    ∃ p : Piece, p.text = spellBare c ∧ p.meaning = [c] ∧ p.isQuoted = false := by
  by_cases h : isBare c
  · exact ⟨.bare c h, by rw [spellBare, if_pos h]; rfl, rfl, rfl⟩
  · -- a code point that needs a backslash is none of those that get a meaning by it
    have hother : ∀ d : CodePoint, isBare d → c ≠ d := by
      rintro d hd rfl
      exact h hd
    have he : escaped c = c := by
      unfold escaped
      rw [if_neg (hother 0x6e (by decide)), if_neg (hother 0x72 (by decide)),
        if_neg (hother 0x74 (by decide))]
    refine ⟨.escape (.single c (hother letterU (by decide))), by rw [spellBare, if_neg h]; rfl, ?_,
      rfl⟩
    rw [Piece.meaning, Escape.meaning, he]

namespace Scan

variable {s : Scan}

theorem run_spellBare (h : s.AtRest) (c : CodePoint) : s.run (spellBare c) = s.push c := by
  obtain ⟨p, ht, hm, hq⟩ := exists_piece_bare c
  rw [← ht, run_piece h.mode h.quoted, hm, hq]
  rfl

theorem AtRest.push (h : s.AtRest) (c : CodePoint) : (s.push c).AtRest := ⟨h.mode, h.quoted⟩

theorem run_writeBareWord (h : s.AtRest) (word : Text) (hne : word ≠ []) :
    s.run (writeBareWord word) = { s with word := s.word ++ word, closed := false } := by
  induction word generalizing s with
  | nil => exact absurd rfl hne
  | cons c word ih =>
    have hcons : writeBareWord (c :: word) = spellBare c ++ writeBareWord word := rfl
    rw [hcons, run_append, run_spellBare h]
    by_cases hw : word = []
    · subst hw
      rfl
    · rw [ih (h.push c) hw]
      simp [Scan.push]

theorem reads_bare {word : Text} (hne : word ≠ []) : Reads word (writeBareWord word) := by
  intro s hs hw
  refine ⟨false, fun h => absurd h hne, ?_⟩
  rw [run_writeBareWord hs word hne, hw, List.nil_append]

/-- A call without the semicolon that ends it is not finished. -/
theorem calls_run_call {words : List Text} {t : Text} (h : Strung [space] Reads words t)
    (call : List Text) (calls : List (List Text)) :
    ((holding call calls).run t).calls = calls := by
  obtain ⟨parts, hparts, rfl⟩ := h
  induction hparts generalizing call with
  | nil => rfl
  | @cons word t words rest hword hrest ih =>
    obtain ⟨hr, he⟩ := hword.endWord call calls
    cases hrest with
    | nil =>
      obtain ⟨closed, -, hrun⟩ := hword _ (atRest_holding call calls) rfl
      rw [Text.join, hrun]
      rfl
    | cons =>
      rw [Text.join, List.append_assoc, run_append, run_append, run_cons, run_nil,
        hr.step_space (by decide), he, ih]

end Scan

/-! ## Scripts -/

variable {calls : List (List Text)}

/-- Every call has a word, and every word a code point. -/
def AllSolid (calls : List (List Text)) : Prop :=
  ∀ call ∈ calls, call ≠ [] ∧ ∀ word ∈ call, word ≠ []

theorem AllSolid.of_mem {call : List Text} (h : AllSolid calls) (hc : call ∈ calls) :
    Strung [space] Scan.Reads call (writeBareCall call) :=
  ⟨call.map writeBareWord, List.forall₂_map_right_iff.2 (List.forall₂_same.2 fun word hw =>
    Scan.reads_bare ((h call hc).2 word hw)), rfl⟩

theorem AllSolid.strung (h : AllSolid calls) :
    Strung [semicolon] (Strung [space] Scan.Reads) calls (writeBare calls) :=
  ⟨calls.map writeBareCall, List.forall₂_map_right_iff.2 (List.forall₂_same.2 fun _ hc =>
    h.of_mem hc), rfl⟩

/-- With a semicolon after it the text is read as the calls. -/
theorem run_writeBare (h : AllSolid calls) :
    Scan.run {} (writeBare calls ++ [semicolon]) = Scan.holding [] calls :=
  Scan.run_calls (fun _ _ hr => hr) (fun call hc => (h call hc).1) h.strung []

theorem join_concat (sep : Text) (parts : List Text) (t : Text) :
    Text.join sep (parts ++ [t]) =
      (if parts = [] then [] else Text.join sep parts ++ sep) ++ t := by
  induction parts with
  | nil => rfl
  | cons u parts ih =>
    cases parts with
    | nil => simp [Text.join]
    | cons v parts =>
      rw [List.cons_append, List.cons_append, Text.join, ← List.cons_append, ih]
      simp [Text.join]

theorem writeBare_concat (calls : List (List Text)) (call : List Text) :
    writeBare (calls ++ [call]) =
      (if calls = [] then [] else writeBare calls ++ [semicolon]) ++ writeBareCall call := by
  unfold writeBare
  rw [List.map_append, List.map_singleton, join_concat]
  simp

/-- The last code point of the last word is spelled at the end of the script. -/
theorem writeBare_last (calls : List (List Text)) (words : List Text) (word : Text) :
    ∃ front, ∀ c, writeBare (calls ++ [words ++ [word ++ [c]]]) = front ++ spellBare c := by
  have hword : ∀ c, writeBareWord (word ++ [c]) = writeBareWord word ++ spellBare c := by
    intro c
    rw [writeBareWord, List.flatMap_append, List.flatMap_singleton]
    rfl
  have hcall : ∃ front, ∀ c, writeBareCall (words ++ [word ++ [c]]) = front ++ spellBare c := by
    refine ⟨(if words.map writeBareWord = [] then []
      else writeBareCall words ++ [space]) ++ writeBareWord word, fun c => ?_⟩
    rw [writeBareCall, List.map_append, List.map_singleton, join_concat, hword,
      List.append_assoc]
    rfl
  obtain ⟨front, hfront⟩ := hcall
  refine ⟨(if calls = [] then [] else writeBare calls ++ [semicolon]) ++ front, fun c => ?_⟩
  rw [writeBare_concat, hfront, List.append_assoc]

/-- Without a semicolon after it the last call is not finished. -/
theorem calls_run_writeBare_concat {call : List Text} (h : AllSolid (calls ++ [call])) :
    (Scan.run {} (writeBare (calls ++ [call]))).calls = calls := by
  have hall : AllSolid calls := fun c hc => h c (List.mem_append_left _ hc)
  have hcall := h.of_mem (List.mem_append_right _ (List.mem_singleton_self call))
  have hstart : Scan.run {} (if calls = [] then [] else writeBare calls ++ [semicolon]) =
      Scan.holding [] calls := by
    split_ifs with hc
    · subst hc
      rfl
    · exact run_writeBare hall
  rw [writeBare_concat, Scan.run_append, hstart]
  exact Scan.calls_run_call hcall [] calls

/-! ## The end of a script -/

theorem exists_last (h : AllSolid calls) (hne : calls ≠ []) :
    ∃ (front : List (List Text)) (words : List Text) (word : Text) (c : CodePoint),
      calls = front ++ [words ++ [word ++ [c]]] := by
  obtain ⟨front, call, rfl⟩ := (List.eq_nil_or_concat' calls).resolve_left hne
  obtain ⟨hcall, hwords⟩ := h call (by simp)
  obtain ⟨words, last, rfl⟩ := (List.eq_nil_or_concat' call).resolve_left hcall
  obtain ⟨word, c, rfl⟩ := (List.eq_nil_or_concat' last).resolve_left (hwords last (by simp))
  exact ⟨front, words, word, c, rfl⟩

theorem endsInSpace_concat (front : List (List Text)) (words : List Text) (word : Text)
    (c : CodePoint) : endsInSpace (front ++ [words ++ [word ++ [c]]]) = isSpace c := by
  simp [endsInSpace]

theorem trimRightBy_concat_of_not {p : CodePoint → Bool} {c : CodePoint} (hc : p c = false)
    (t : Text) : Text.trimRightBy p (t ++ [c]) = t ++ [c] := by
  unfold Text.trimRightBy
  rw [List.reverse_append, List.reverse_singleton, List.singleton_append,
    List.dropWhile_cons_of_neg (by simp [hc])]
  simp

theorem trimRightBy_concat {p : CodePoint → Bool} {c : CodePoint} (hc : p c) (t : Text) :
    Text.trimRightBy p (t ++ [c]) = Text.trimRightBy p t := by
  unfold Text.trimRightBy
  rw [List.reverse_append, List.reverse_singleton, List.singleton_append,
    List.dropWhile_cons_of_pos hc]

/-- Spelling ends with the code point itself. -/
theorem exists_spellBare (c : CodePoint) : ∃ front, spellBare c = front ++ [c] := by
  unfold spellBare
  split_ifs
  · exact ⟨[], rfl⟩
  · exact ⟨[backslash], rfl⟩

/-- A script whose last word does not end in a space is not trimmed. -/
theorem trimRight_writeBare (h : AllSolid calls) (hs : endsInSpace calls = false) :
    Text.trimRightBy isSpace (writeBare calls) = writeBare calls := by
  by_cases hne : calls = []
  · subst hne
    rfl
  · obtain ⟨init, words, word, c, rfl⟩ := exists_last h hne
    rw [endsInSpace_concat] at hs
    obtain ⟨front, hfront⟩ := writeBare_last init words word
    obtain ⟨back, hback⟩ := exists_spellBare c
    rw [hfront, hback, ← List.append_assoc, trimRightBy_concat_of_not hs]

/-- A script whose last word ends in a space loses it, and the semicolon that follows takes its
place after the backslash. -/
theorem trimRight_writeBare_space {c : CodePoint} (hc : isSpace c) (front : List (List Text))
    (words : List Text) (word : Text) :
    Text.trimRightBy isSpace (writeBare (front ++ [words ++ [word ++ [c]]])) ++ [semicolon] =
      writeBare (front ++ [words ++ [word ++ [semicolon]]]) := by
  obtain ⟨text, htext⟩ := writeBare_last front words word
  have hspell : spellBare semicolon = [backslash, semicolon] := by decide
  rw [htext, htext, spellBare_space hc, hspell]
  calc Text.trimRightBy isSpace (text ++ [backslash, c]) ++ [semicolon]
      = Text.trimRightBy isSpace ((text ++ [backslash]) ++ [c]) ++ [semicolon] := by simp
    _ = text ++ [backslash] ++ [semicolon] := by
        rw [trimRightBy_concat hc, trimRightBy_concat_of_not (by decide)]
    _ = text ++ [backslash, semicolon] := by simp

/-- Calls that are not empty, of words that are not empty, can be written without quotes, and are
read back as just these calls; only if the last word of all ends in a space, the last call is
missing. -/
theorem calls_writeBare (calls : List (List Text))
    (h : ∀ call ∈ calls, call ≠ [] ∧ ∀ word ∈ call, word ≠ []) :
    Script.calls (writeBare calls) = if endsInSpace calls then calls.dropLast else calls := by
  have hsolid : AllSolid calls := h
  rw [calls_eq_trimRight]
  cases hs : endsInSpace calls with
  | false => rw [trimRight_writeBare hsolid hs, run_writeBare hsolid]; rfl
  | true =>
    have hne : calls ≠ [] := by
      rintro rfl
      cases hs
    obtain ⟨front, words, word, c, rfl⟩ := exists_last hsolid hne
    rw [endsInSpace_concat] at hs
    -- what is left is the script of the calls with a semicolon for the space
    have hsolid' : AllSolid (front ++ [words ++ [word ++ [semicolon]]]) := by
      intro call hcall
      rcases List.mem_append.1 hcall with hcall | hcall
      · exact h call (List.mem_append_left _ hcall)
      · rw [List.mem_singleton.1 hcall]
        refine ⟨by simp, fun w hw => ?_⟩
        rcases List.mem_append.1 hw with hw | hw
        · exact (h (words ++ [word ++ [c]]) (by simp)).2 w (List.mem_append_left _ hw)
        · rw [List.mem_singleton.1 hw]
          simp
    rw [trimRight_writeBare_space hs, calls_run_writeBare_concat hsolid']
    simp

/-- Every sort of code point that needs a backslash, at both ends of a word. -/
theorem calls_writeBare_mixed :
    (∀ call ∈ [[text " a;", text "\\u'"], [text ";\t'b"]], call ≠ [] ∧ ∀ word ∈ call, word ≠ []) ∧
      writeBare [[text " a;", text "\\u'"], [text ";\t'b"]] =
        text "\\ a\\; \\\\u\\';\\;\\\t\\'b" ∧
      Script.calls (text "\\ a\\; \\\\u\\';\\;\\\t\\'b") =
        [[text " a;", text "\\u'"], [text ";\t'b"]] := by
  have h : ∀ call ∈ [[text " a;", text "\\u'"], [text ";\t'b"]],
      call ≠ [] ∧ ∀ word ∈ call, word ≠ [] := by decide +kernel
  have hw : writeBare [[text " a;", text "\\u'"], [text ";\t'b"]] =
      text "\\ a\\; \\\\u\\';\\;\\\t\\'b" := by decide +kernel
  refine ⟨h, hw, ?_⟩
  rw [← hw, calls_writeBare _ h]
  decide +kernel

/-- A word that ends in a space at the end of the script is lost, with its call. -/
theorem not_calls_writeBare :
    ¬ ∀ calls : List (List Text), (∀ call ∈ calls, call ≠ [] ∧ ∀ word ∈ call, word ≠ []) →
      Script.calls (writeBare calls) = calls := by
  intro h
  have hlost : Script.calls (writeBare [[text "a "]]) = [] := by decide +kernel
  exact absurd (hlost.symm.trans (h [[text "a "]] (by decide))) (by decide)

end Snippets.Script
