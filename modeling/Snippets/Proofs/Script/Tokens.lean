import Mathlib.Data.List.Basic
import Mathlib.Data.List.TakeWhile
import Snippets.Proofs.Script.Grammar

/-!
# The scanner meets the grammar

`Scan.Holds s items` says that a scanner in state `s` has read `items` and is between two pieces:
its calls, its words and its current word are those of the items. One more item keeps it
(`Holds.separator`, `Holds.piece`), so it holds after any items; the semicolon at the end closes
the last call, unless a fragment swallows it. Hence the calls of a script are those of the only
reading of its trimmed text (`calls_eq_reading`).
-/

namespace Snippets.Script

/-! ## Splitting from the right -/

section Split

variable {α : Type} {p : α → Bool} {x : α} {l last : List α} {done : List (List α)}

theorem exists_splitOnP (p : α → Bool) (l : List α) :
    ∃ done last, l.splitOnP p = done ++ [last] :=
  ⟨_, _, (List.dropLast_concat_getLast (List.splitOnP_ne_nil p l)).symm⟩

theorem splitOnP_concat_pos (l : List α) (h : p x) :
    (l ++ [x]).splitOnP p = l.splitOnP p ++ [[]] := by
  rw [List.splitOnP_append_cons l [] h, List.splitOnP_nil]

theorem splitOnP_concat_neg (hl : l.splitOnP p = done ++ [last]) (h : p x = false) :
    (l ++ [x]).splitOnP p = done ++ [last ++ [x]] := by
  induction l generalizing done last with
  | nil =>
    rw [List.splitOnP_nil, eq_comm, List.append_eq_singleton_iff] at hl
    simp only [List.cons_ne_self, and_false, or_false, List.cons.injEq, and_true] at hl
    obtain ⟨rfl, rfl⟩ := hl
    simp [List.splitOnP_cons_eq_if_modifyHead, h]
  | cons y l ih =>
    obtain ⟨done', last', hl'⟩ := exists_splitOnP p l
    rw [List.splitOnP_cons_eq_if_modifyHead, hl'] at hl
    rw [List.cons_append, List.splitOnP_cons_eq_if_modifyHead, ih hl']
    split_ifs at hl ⊢ with hy
    · rw [← List.cons_append] at hl
      obtain ⟨rfl, hlast⟩ := List.append_inj' hl rfl
      simp_all
    · cases done' with
      | nil =>
        simp only [List.nil_append, List.modifyHead_cons] at hl ⊢
        rw [eq_comm, List.append_eq_singleton_iff] at hl
        simp_all
      | cons d done' =>
        simp only [List.cons_append, List.modifyHead_cons] at hl ⊢
        rw [← List.cons_append] at hl
        obtain ⟨rfl, hlast⟩ := List.append_inj' hl rfl
        simp_all

end Split

/-! ## Words and calls from the right -/

theorem wordsOf_separator (group : List Item) (c : CodePoint) (h : isSeparator c) :
    wordsOf (group ++ [.separator c h]) = wordsOf group ++ [[]] := by
  unfold wordsOf
  rw [splitOnP_concat_pos group (by rfl)]
  simp

theorem wordsOf_piece {group : List Item} {words : List Word} {word : Word}
    (h : wordsOf group = words ++ [word]) (p : Piece) :
    wordsOf (group ++ [.piece p]) = words ++ [word ++ [p]] := by
  obtain ⟨runs, run, hr⟩ := exists_splitOnP Item.isSeparator group
  have hw : wordsOf group = runs.map (List.filterMap Item.piece?) ++
      [run.filterMap Item.piece?] := by simp [wordsOf, hr]
  obtain ⟨rfl, hword⟩ := List.append_inj' (hw.symm.trans h) rfl
  have hrun : run.filterMap Item.piece? = word := by simpa using hword
  unfold wordsOf
  rw [splitOnP_concat_neg hr rfl]
  simp [hrun, Item.piece?]

@[simp] theorem Word.value_concat (w : Word) (p : Piece) :
    Word.value (w ++ [p]) = w.value ++ p.meaning := by simp [Word.value]

@[simp] theorem Word.endsQuoted_concat (w : Word) (p : Piece) :
    Word.endsQuoted (w ++ [p]) = p.isQuoted := by simp [Word.endsQuoted]

theorem callsOf_concat (groups : List (List Item)) (group : List Item) :
    callsOf (groups ++ [group]) =
      callsOf groups ++ if argumentsOf group = [] then [] else [argumentsOf group] := by
  unfold callsOf
  rw [List.map_append, List.filter_append]
  by_cases h : argumentsOf group = [] <;> simp [h]

/-! ## The text of a piece -/

namespace Scan

variable {s : Scan}

theorem run_escape (hm : s.mode = .plain) (e : Escape) :
    s.run e.text = { s with word := s.word ++ e.meaning, closed := false } := by
  obtain ⟨mode, quoted, closed, word, call, calls⟩ := s
  cases hm
  cases e with
  | single c ne => simp [Escape.text, Escape.meaning, step, stepPlain, push, ne]
  | code digits four =>
    obtain ⟨a, b, c, d, rfl⟩ := List.length_eq_four.1 four
    cases hd : codeOf [a, b, c, d] <;>
      simp [Escape.text, Escape.meaning, step, stepPlain, push, hd]

theorem run_inner (hm : s.mode = .plain) (hq : s.quoted = true) (i : Inner) :
    s.run i.text = { s with word := s.word ++ i.meaning, closed := false } := by
  cases i with
  | escape e => exact run_escape hm e
  | verbatim c h =>
    simp only [isVerbatim, Bool.and_eq_true, decide_eq_true_eq] at h
    simp [Inner.text, Inner.meaning, step, hm, stepPlain, hq, h.1, h.2, push]

/-- Between quotes every character becomes part of the word. -/
theorem run_inside (hm : s.mode = .plain) (hq : s.quoted = true) (hc : s.closed = false)
    (inside : List Inner) :
    s.run (inside.flatMap Inner.text) =
      { s with word := s.word ++ inside.flatMap Inner.meaning } := by
  induction inside generalizing s with
  | nil => simp
  | cons i inside ih =>
    rw [List.flatMap_cons, run_append, run_inner hm hq, ih] <;> simp [hm, hq, hc]

theorem step_quote (hm : s.mode = .plain) :
    s.step quote = { s with quoted := !s.quoted, closed := s.quoted } := by
  simp [step, hm, stepPlain, show quote ≠ backslash by decide]

/-- What follows an opening quote. -/
theorem run_opened (hm : s.mode = .plain) (hq : s.quoted = false) (inside : List Inner) :
    s.run (quote :: inside.flatMap Inner.text) =
      { s with quoted := true, closed := false,
               word := s.word ++ inside.flatMap Inner.meaning } := by
  rw [run_cons, step_quote hm, run_inside] <;> simp [hm, hq]

/-- A piece adds its meaning to the word, and quotes are remembered. -/
theorem run_piece (hm : s.mode = .plain) (hq : s.quoted = false) (p : Piece) :
    s.run p.text = { s with word := s.word ++ p.meaning, closed := p.isQuoted } := by
  cases p with
  | escape e => exact run_escape hm e
  | bare c h =>
    simp only [isBare, isVerbatim, isSeparator, Bool.and_eq_true, decide_eq_true_eq,
      Bool.not_eq_true', Bool.or_eq_false_iff, decide_eq_false_iff_not] at h
    obtain ⟨⟨hcq, hcb⟩, hcs, hsp⟩ := h
    simp [Piece.text, Piece.meaning, Piece.isQuoted, step, hm, stepPlain, hcq, hcb, hcs, hsp, push]
  | quoted inside =>
    rw [Piece.text, ← List.cons_append, run_append, run_opened hm hq, run_cons, run_nil, step_quote]
    · simp [hq, Piece.meaning, Piece.isQuoted]
    · exact hm

/-- A separator ends the current word, and a semicolon the current call. -/
theorem step_separator (hm : s.mode = .plain) (hq : s.quoted = false) {c : CodePoint}
    (h : isSeparator c) :
    s.step c = if c = semicolon then s.endWord.endCall else s.endWord := by
  have hb : c ≠ backslash := by rintro rfl; exact absurd h (by decide)
  have hc : c ≠ quote := by rintro rfl; exact absurd h (by decide)
  simp only [isSeparator, Bool.or_eq_true, decide_eq_true_eq] at h
  unfold step
  rw [hm]
  unfold stepPlain
  rw [if_neg hb, if_neg hc, if_neg]
  rcases h with rfl | h <;> simp [*]

/-! ## What the scanner holds between two pieces -/

/-- The scanner has read `items`: its finished calls are those of the groups before the last one,
and the last group gives its words and its current word. -/
structure Holds (s : Scan) (items : List Item) : Prop where
  mode : s.mode = .plain
  quoted : s.quoted = false
  parts : ∃ done group words word, items.splitOnP Item.isEnd = done ++ [group] ∧
    wordsOf group = words ++ [word] ∧ s.calls = callsOf done ∧
    s.call = words.filterMap Word.argument? ∧ s.word = word.value ∧ s.closed = word.endsQuoted

theorem holds_nil : Holds {} [] :=
  ⟨rfl, rfl, [], [], [], [], rfl, rfl, rfl, rfl, rfl, rfl⟩

theorem endWord_eq {word : Word} (hw : s.word = word.value) (hc : s.closed = word.endsQuoted) :
    s.endWord =
      { s with word := [], call := s.call ++ word.argument?.toList, closed := false } := by
  unfold endWord Word.argument?
  by_cases hv : word.value = [] ∧ ¬ word.endsQuoted
  · rw [if_pos hv, if_pos (by simp [hw, hc, hv])]
    obtain ⟨mode, quoted, closed, w, call, calls⟩ := s
    simp_all
  · rw [if_neg hv, if_neg]
    · simp [hw]
    · simpa [hw, hc] using hv

variable {items : List Item}

/-- The current call with its last word. -/
theorem call_endWord {words : List Word} {word : Word} {group : List Item}
    (hg : wordsOf group = words ++ [word]) (hcall : s.call = words.filterMap Word.argument?) :
    s.call ++ word.argument?.toList = argumentsOf group := by
  rw [hcall, argumentsOf, hg, List.filterMap_append]
  cases h : word.argument? <;> simp [h]

theorem Holds.separator (h : Holds s items) (c : CodePoint) (hc : isSeparator c) :
    Holds (s.step c) (items ++ [.separator c hc]) := by
  obtain ⟨hm, hq, done, group, words, word, hi, hg, hcalls, hcall, hw, hcl⟩ := h
  rw [step_separator hm hq hc, endWord_eq hw hcl, call_endWord hg hcall]
  by_cases hsemi : c = semicolon
  · -- a new group begins
    rw [if_pos hsemi]
    have hi' := splitOnP_concat_pos (p := Item.isEnd) (x := .separator c hc) items
      (by simp [Item.isEnd, hsemi])
    rw [hi] at hi'
    unfold endCall
    split_ifs with he
    · have he : argumentsOf group = [] := List.isEmpty_iff.1 he
      exact ⟨hm, hq, _, [], [], [], hi', rfl, by simp [callsOf_concat, he, hcalls], by simp [he],
        rfl, rfl⟩
    · have he : argumentsOf group ≠ [] := fun h => he (List.isEmpty_iff.2 h)
      exact ⟨hm, hq, _, [], [], [], hi', rfl, by simp [callsOf_concat, he, hcalls], rfl, rfl, rfl⟩
  · -- a new word of the same group begins
    rw [if_neg hsemi]
    have hi' := splitOnP_concat_neg (x := .separator c hc) hi (by simp [Item.isEnd, hsemi])
    have hg' := wordsOf_separator group c hc
    exact ⟨hm, hq, done, _, wordsOf group, [], hi', hg', hcalls, rfl, rfl, rfl⟩

theorem Holds.piece (h : Holds s items) (p : Piece) :
    Holds (s.run p.text) (items ++ [.piece p]) := by
  obtain ⟨hm, hq, done, group, words, word, hi, hg, hcalls, hcall, hw, hcl⟩ := h
  rw [run_piece hm hq]
  exact ⟨hm, hq, done, _, words, word ++ [p], splitOnP_concat_neg hi rfl, wordsOf_piece hg p,
    hcalls, hcall, by simp [hw], by simp⟩

theorem Holds.run_items {before : List Item} (h : Holds s before) (items : List Item) :
    Holds (s.run (items.flatMap Item.text)) (before ++ items) := by
  induction items generalizing s before with
  | nil => simpa using h
  | cons i items ih =>
    rw [List.flatMap_cons, run_append, List.append_cons]
    cases i with
    | separator c hc => exact ih (h.separator c hc)
    | piece p => exact ih (h.piece p)

theorem Holds.calls (h : Holds s items) :
    s.calls = callsOf (items.splitOnP Item.isEnd).dropLast := by
  obtain ⟨-, -, done, group, words, word, hi, hg, hcalls, -⟩ := h
  rw [hi, List.dropLast_concat, hcalls]

/-! ## Fragments -/

/-- After a stub the scanner is inside an escape. -/
theorem run_stub (hm : s.mode = .plain) (stub : Stub) :
    ∃ mode, mode ≠ .plain ∧ s.run stub.text = { s with mode, closed := false } := by
  cases stub with
  | start => exact ⟨.escape, by simp, by simp [Stub.text, step, hm, stepPlain]⟩
  | code digits short =>
    refine ⟨.code digits, by simp, ?_⟩
    rcases digits with _ | ⟨a, _ | ⟨b, _ | ⟨c, _ | ⟨d, rest⟩⟩⟩⟩
    case cons.cons.cons.cons => exact absurd short (by simp)
    all_goals simp [Stub.text, step, hm, stepPlain]

/-- Inside an escape or quotes no call is finished. -/
theorem calls_step_of_open (h : s.mode ≠ .plain ∨ s.quoted = true) (c : CodePoint) :
    (s.step c).calls = s.calls := by
  unfold step
  split
  · next hm =>
    have hq : s.quoted = true := h.resolve_left (fun hn => hn hm)
    unfold stepPlain
    split_ifs <;> simp_all [push]
  · split_ifs <;> rfl
  · split_ifs
    · rfl
    · split <;> rfl

/-- A fragment swallows the semicolon after it. -/
theorem calls_run_fragment (hm : s.mode = .plain) (hq : s.quoted = false) (f : Fragment) :
    (s.run (f.text ++ [semicolon])).calls = s.calls := by
  rw [run_append, run_cons, run_nil]
  rcases f with ⟨stub⟩ | ⟨inside, _ | stub⟩
  · obtain ⟨mode, hne, hs⟩ := run_stub hm stub
    rw [Fragment.text, hs, calls_step_of_open (.inl hne)]
  · rw [Fragment.text, run_opened hm hq, calls_step_of_open (.inr rfl)]
  · obtain ⟨mode, hne, hs⟩ := run_stub
      (s := { s with quoted := true, closed := false,
                     word := s.word ++ inside.flatMap Inner.meaning }) hm stub
    rw [Fragment.text, ← List.cons_append, run_append, run_opened hm hq, hs,
      calls_step_of_open (.inl hne)]

end Scan

/-! ## Scripts -/

/-- `t` is `script` without the spaces at its ends. -/
def IsTrimmed (script t : Text) : Prop :=
  (∃ front back, script = front ++ t ++ back ∧ (∀ c ∈ front, isSpace c) ∧
    ∀ c ∈ back, isSpace c) ∧
  (∀ c ∈ t.head?, ¬ isSpace c) ∧ ∀ c ∈ t.getLast?, ¬ isSpace c

theorem not_of_mem_head?_dropWhile {p : CodePoint → Bool} {t : Text} {c : CodePoint}
    (h : c ∈ (t.dropWhile p).head?) : ¬ p c := by
  have hd := List.head?_dropWhile_not p t
  rw [Option.mem_def] at h
  rw [h] at hd
  simpa using hd

theorem isTrimmed_trim (script : Text) : IsTrimmed script (trim script) := by
  obtain ⟨rest, hrest⟩ : ∃ rest, rest = script.dropWhile isSpace := ⟨_, rfl⟩
  have hfront : script = script.takeWhile isSpace ++ rest := by simp [hrest]
  have hback : rest = trim script ++ (rest.reverse.takeWhile isSpace).reverse := by
    rw [trim, Text.trimBy, ← hrest, ← List.reverse_append, List.takeWhile_append_dropWhile,
      List.reverse_reverse]
  refine ⟨⟨script.takeWhile isSpace, (rest.reverse.takeWhile isSpace).reverse, ?_, ?_, ?_⟩, ?_, ?_⟩
  · rw [List.append_assoc, ← hback, ← hfront]
  · exact fun c hc => List.mem_takeWhile_imp hc
  · exact fun c hc => List.mem_takeWhile_imp (List.mem_reverse.1 hc)
  · -- what is cut off behind does not change the first character
    intro c hc
    refine not_of_mem_head?_dropWhile (t := script) ?_
    rw [← hrest, hback, Option.mem_def, List.head?_append, Option.mem_def.1 hc]
    rfl
  · intro c hc
    rw [trim, Text.trimBy, List.getLast?_reverse] at hc
    exact not_of_mem_head?_dropWhile hc

/-- The scanner's calls for the text of a reading. -/
theorem calls_run_text (r : Reading) :
    (Scan.run {} (r.text ++ [semicolon])).calls = r.calls := by
  have h := Scan.holds_nil.run_items r.items
  rw [List.nil_append] at h
  obtain ⟨items, fragment⟩ := r
  cases fragment with
  | some f =>
    simp only [Reading.text, Option.map_some, Option.getD_some, List.append_assoc]
    rw [Scan.run_append, Scan.calls_run_fragment h.mode h.quoted, h.calls]
    rfl
  | none =>
    have hsemi : isSeparator semicolon := by decide
    have h' := (h.separator semicolon hsemi).calls
    simp only [Reading.text, Option.map_none, Option.getD_none, List.append_nil]
    rw [Scan.run_append, Scan.run_cons, Scan.run_nil, h',
      splitOnP_concat_pos _ (by simp [Item.isEnd]), List.dropLast_concat]
    rfl

/-- The calls of a script are those of its trimmed text as the grammar divides it, and the grammar
divides it in one way only. -/
theorem calls_eq_reading (script : Text) :
    IsTrimmed script (trim script) ∧
      ∃ r : Reading, (∀ r' : Reading, r'.text = trim script ↔ r' = r) ∧ calls script = r.calls := by
  refine ⟨isTrimmed_trim script, Reading.empty.pushAll (trim script),
    fun r' => Reading.text_eq_iff r' _, ?_⟩
  have htext : (Reading.empty.pushAll (trim script)).text = trim script :=
    (Reading.text_eq_iff _ _).2 rfl
  rw [← calls_run_text, htext]
  rfl

end Snippets.Script
