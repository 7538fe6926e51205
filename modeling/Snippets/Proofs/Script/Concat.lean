import Snippets.Proofs.Script.Tokens
import Snippets.Snippet

/-!
# Scripts one after another

A scanner is at rest between two pieces, outside quotes. At rest, spaces in front of a semicolon
make no difference, and after the semicolon the scanner is as it was in the beginning, but for the
calls it has finished (`AtRest.run_semicolon`). What it has finished does not matter for what
follows (`run_after`). So a script that ends at rest can be followed by a semicolon and any other
text, and neither changes the calls of the other (`calls_parse_semicolon`).
-/

namespace Snippets.Script

namespace Scan

variable {s : Scan}

/-! ## The calls that are finished -/

/-- The same scanner, with other calls finished before its own. -/
def after (done : List (List Text)) (s : Scan) : Scan := { s with calls := done ++ s.calls }

theorem endWord_after (done : List (List Text)) :
    (s.after done).endWord = s.endWord.after done := by
  unfold endWord after
  split_ifs <;> rfl

theorem endCall_after (done : List (List Text)) :
    (s.after done).endCall = s.endCall.after done := by
  unfold endCall after
  split_ifs <;> simp

theorem stepPlain_after (done : List (List Text)) (c : CodePoint) :
    (s.after done).stepPlain c = (s.stepPlain c).after done := by
  have hq : (s.after done).quoted = s.quoted := rfl
  unfold stepPlain
  rw [endWord_after, endCall_after, hq]
  split_ifs <;> rfl

theorem step_after (done : List (List Text)) (c : CodePoint) :
    (s.after done).step c = (s.step c).after done := by
  obtain ⟨mode, quoted, closed, word, call, calls⟩ := s
  cases mode with
  | plain => exact stepPlain_after done c
  | escape =>
    by_cases hu : c = letterU
    · simp [step, after, hu]
    · simp [step, after, push, hu]
  | code seen =>
    by_cases hs : seen.length < 3
    · simp [step, after, hs]
    · cases hd : codeOf (seen ++ [c]) <;> simp [step, after, push, hs, hd]

/-- Calls that were finished before are passed on. -/
theorem run_after (done : List (List Text)) (t : Text) :
    (s.after done).run t = (s.run t).after done := by
  induction t generalizing s with
  | nil => rfl
  | cons c t ih => rw [run_cons, run_cons, step_after, ih]

/-! ## At rest -/

/-- The scanner is between two pieces and outside quotes: nothing is pending. -/
structure AtRest (s : Scan) : Prop where
  mode : s.mode = .plain
  quoted : s.quoted = false

theorem atRest_start : AtRest {} := ⟨rfl, rfl⟩

theorem AtRest.endWord (h : s.AtRest) : s.endWord.AtRest := by
  unfold Scan.endWord
  split_ifs <;> exact ⟨h.mode, h.quoted⟩

theorem endWord_endWord : s.endWord.endWord = s.endWord := by
  unfold endWord
  split_ifs <;> simp_all

theorem AtRest.step_space (h : s.AtRest) {c : CodePoint} (hc : isSpace c) :
    s.step c = s.endWord := by
  have hne : c ≠ semicolon := by
    rintro rfl
    exact absurd hc (by decide)
  rw [step_separator h.mode h.quoted (by simp [isSeparator, hc]), if_neg hne]

theorem AtRest.step_semicolon (h : s.AtRest) : s.step semicolon = s.endWord.endCall := by
  rw [step_separator h.mode h.quoted (by decide), if_pos rfl]

/-- A semicolon brings the scanner back to where it began, with some calls finished. -/
theorem AtRest.run_semicolon (h : s.AtRest) :
    s.run [semicolon] = after (s.run [semicolon]).calls {} := by
  obtain ⟨mode, quoted, closed, word, call, calls⟩ := s
  obtain ⟨rfl, rfl⟩ := h
  rw [run_cons, run_nil, AtRest.step_semicolon ⟨rfl, rfl⟩]
  unfold endCall Scan.endWord
  split_ifs <;> simp_all [after]

theorem AtRest.run_spaces_semicolon (h : s.AtRest) {t : Text} (ht : ∀ c ∈ t, isSpace c) :
    s.run (t ++ [semicolon]) = s.run [semicolon] := by
  induction t generalizing s with
  | nil => rfl
  | cons c t ih =>
    have hs : s.step c = s.endWord := h.step_space (ht c List.mem_cons_self)
    calc s.run (c :: t ++ [semicolon]) = s.endWord.run (t ++ [semicolon]) := by
          rw [List.cons_append, run_cons, hs]
      _ = s.endWord.run [semicolon] :=
          ih h.endWord fun d hd => ht d (List.mem_cons_of_mem _ hd)
      _ = s.run [semicolon] := by
          rw [run_cons, run_cons, h.endWord.step_semicolon, h.step_semicolon, endWord_endWord]

/-- In the beginning spaces make no difference. -/
theorem run_spaces_start {t : Text} (ht : ∀ c ∈ t, isSpace c) : Scan.run {} t = {} := by
  induction t with
  | nil => rfl
  | cons c t ih =>
    rw [run_cons, atRest_start.step_space (ht c List.mem_cons_self)]
    exact ih fun d hd => ht d (List.mem_cons_of_mem _ hd)

end Scan

/-! ## Trimming -/

/-- Cutting off at the front what cutting off at the end has left. -/
theorem trimRightBy_eq (p : CodePoint → Bool) (t : Text) :
    ∃ front : Text, (∀ c ∈ front, p c) ∧ t.trimRightBy p = front ++ t.trimBy p := by
  have ht : t.reverse = (t.dropWhile p).reverse ++ (t.takeWhile p).reverse := by
    rw [← List.reverse_append, List.takeWhile_append_dropWhile]
  unfold Text.trimRightBy Text.trimBy
  rw [ht, List.dropWhile_append]
  split_ifs with he
  · -- nothing but what is cut off
    have hall : (t.takeWhile p).reverse.dropWhile p = [] := by
      rw [List.dropWhile_eq_nil_iff]
      exact fun c hc => List.mem_takeWhile_imp (List.mem_reverse.1 hc)
    exact ⟨[], by simp, by rw [hall, List.isEmpty_iff.1 he]; rfl⟩
  · exact ⟨t.takeWhile p, fun c hc => List.mem_takeWhile_imp hc, by simp⟩

/-- What stands at the end of a text whose front has been cut off. -/
theorem dropWhile_eq_trimBy (p : CodePoint → Bool) (t : Text) :
    ∃ back : Text, (∀ c ∈ back, p c) ∧ t.dropWhile p = t.trimBy p ++ back := by
  refine ⟨((t.dropWhile p).reverse.takeWhile p).reverse, ?_, ?_⟩
  · exact fun c hc => List.mem_takeWhile_imp (List.mem_reverse.1 hc)
  · rw [Text.trimBy, ← List.reverse_append, List.takeWhile_append_dropWhile, List.reverse_reverse]

theorem dropWhile_append_stop {p : CodePoint → Bool} {x : CodePoint} (hx : p x = false)
    (t u : Text) : (t ++ x :: u).dropWhile p = t.dropWhile p ++ x :: u := by
  rw [List.dropWhile_append]
  split_ifs with he
  · rw [List.isEmpty_iff.1 he, List.dropWhile_cons_of_neg (by simp [hx])]
    rfl
  · rfl

/-- A semicolon is no space, so each side is trimmed at its own end. -/
theorem trim_semicolon (s t : Text) :
    trim (s ++ semicolon :: t) = s.dropWhile isSpace ++ semicolon :: t.trimRightBy isSpace := by
  have hsemi : isSpace semicolon = false := by decide
  unfold trim Text.trimBy Text.trimRightBy
  rw [dropWhile_append_stop hsemi, List.reverse_append, List.reverse_cons, List.append_assoc,
    List.singleton_append, dropWhile_append_stop hsemi]
  simp

/-! ## Two scripts -/

/-- The front of a script need not be trimmed. -/
theorem calls_eq_trimRight (t : Text) :
    calls t = (Scan.run {} (t.trimRightBy isSpace ++ [semicolon])).calls := by
  obtain ⟨front, hfront, he⟩ := trimRightBy_eq isSpace t
  rw [he, List.append_assoc, Scan.run_append, Scan.run_spaces_start hfront]
  rfl

/-- The end of a script that leaves the scanner at rest need not be trimmed, and a semicolon after
it ends its last call. -/
theorem run_semicolon_of_atRest {s : Text} (h : (Scan.run {} (trim s)).AtRest) :
    Scan.run {} (s.dropWhile isSpace ++ [semicolon]) = Scan.after (calls s) {} := by
  obtain ⟨back, hback, he⟩ := dropWhile_eq_trimBy isSpace s
  have hcalls : calls s = ((Scan.run {} (trim s)).run [semicolon]).calls := by
    rw [calls, Scan.run_append]
  calc Scan.run {} (s.dropWhile isSpace ++ [semicolon])
      = (Scan.run {} (trim s)).run (back ++ [semicolon]) := by
        rw [he, List.append_assoc, Scan.run_append]
        rfl
    _ = (Scan.run {} (trim s)).run [semicolon] := h.run_spaces_semicolon hback
    _ = Scan.after (calls s) {} := by rw [hcalls, ← h.run_semicolon]

theorem calls_semicolon {s : Text} (h : (Scan.run {} (trim s)).AtRest) (t : Text) :
    calls (s ++ semicolon :: t) = calls s ++ calls t := by
  have hsplit : s.dropWhile isSpace ++ semicolon :: t.trimRightBy isSpace ++ [semicolon] =
      (s.dropWhile isSpace ++ [semicolon]) ++ (t.trimRightBy isSpace ++ [semicolon]) := by simp
  rw [calls, trim_semicolon, hsplit, Scan.run_append, run_semicolon_of_atRest h, Scan.run_after,
    calls_eq_trimRight t]
  rfl

/-- A script that leaves the scanner at rest, a semicolon, and any other script: the calls and the
snippets are those of the one followed by those of the other, whatever damage the second has. -/
theorem calls_parse_semicolon {s : Text} (h : (Scan.run {} (trim s)).AtRest) (t : Text) :
    calls (s ++ semicolon :: t) = calls s ++ calls t ∧
      parse (s ++ semicolon :: t) = parse s ++ parse t := by
  have hcalls := calls_semicolon h t
  refine ⟨hcalls, ?_⟩
  unfold parse
  rw [hcalls, List.filterMap_append]

/-- The second script is damaged at its end, and the first has spaces there. -/
theorem calls_parse_semicolon_damaged :
    (Scan.run {} (trim (text "a '' 'b;' \\u0020 "))).AtRest ∧
      calls (text "a '' 'b;' \\u0020 " ++ semicolon :: text " c; d 'e; f\\") =
        [[text "a", [], text "b;", text " "], [text "c"]] := by
  have h : (Scan.run {} (trim (text "a '' 'b;' \\u0020 "))).AtRest :=
    ⟨by decide +kernel, by decide +kernel⟩
  refine ⟨h, (calls_parse_semicolon h (text " c; d 'e; f\\")).1.trans ?_⟩
  decide +kernel

end Snippets.Script
