import Snippets.Proofs.Script.Concat

/-!
# Scripts that are cut off

Calls that are finished stay finished: one more character appends at most one call to them
(`Scan.calls_step`). Cutting a script off, wherever the cut is, leaves the scanner where it was when
it had read as much of the whole script, and then ends the script with a semicolon of its own. That
semicolon may finish one call that the whole script goes on with; all others are the first calls of
the whole script (`calls_truncated`).
-/

namespace Snippets.Script

namespace Scan

theorem calls_endWord (s : Scan) : s.endWord.calls = s.calls := by
  unfold endWord
  split_ifs <;> rfl

theorem calls_endCall (s : Scan) :
    s.endCall.calls = s.calls ∨ ∃ call, s.endCall.calls = s.calls ++ [call] := by
  unfold endCall
  split_ifs
  · exact .inl rfl
  · exact .inr ⟨s.call, rfl⟩

/-- One more character finishes one call at most. -/
theorem calls_step (s : Scan) (c : CodePoint) :
    (s.step c).calls = s.calls ∨ ∃ call, (s.step c).calls = s.calls ++ [call] := by
  by_cases hopen : s.mode ≠ .plain ∨ s.quoted = true
  · exact .inl (calls_step_of_open hopen c)
  simp only [not_or, not_not, Bool.not_eq_true] at hopen
  obtain ⟨hm, hq⟩ := hopen
  unfold step
  rw [hm]
  dsimp only
  unfold stepPlain
  split_ifs
  · exact .inl rfl
  · exact .inl rfl
  · exact .inl rfl
  · rw [← calls_endWord s]
    exact calls_endCall s.endWord
  · exact .inl (calls_endWord s)

theorem calls_prefix_step (s : Scan) (c : CodePoint) : s.calls <+: (s.step c).calls := by
  obtain h | ⟨call, h⟩ := calls_step s c
  · exact ⟨[], (List.append_nil _).trans h.symm⟩
  · exact ⟨[call], h.symm⟩

/-- Finished calls stay as they are, whatever is read after them. -/
theorem calls_prefix_run (s : Scan) (t : Text) : s.calls <+: (s.run t).calls := by
  induction t generalizing s with
  | nil => exact List.prefix_rfl
  | cons c t ih => exact (calls_prefix_step s c).trans (ih (s.step c))

end Scan

/-- The calls of a script that its own semicolons have ended. -/
def finished (script : Text) : List (List Text) := (Scan.run {} (trim script)).calls

theorem finished_eq_trimRight (script : Text) :
    finished script = (Scan.run {} (script.trimRightBy isSpace)).calls := by
  obtain ⟨front, hfront, he⟩ := trimRightBy_eq isSpace script
  rw [he, Scan.run_append, Scan.run_spaces_start hfront]
  rfl

/-- The semicolon after the last character adds one call at most. -/
theorem calls_eq_finished (script : Text) :
    calls script = finished script ∨ ∃ call, calls script = finished script ++ [call] := by
  have hlast := Scan.calls_step (Scan.run {} (trim script)) semicolon
  have hcalls : calls script = ((Scan.run {} (trim script)).step semicolon).calls := by
    rw [calls, Scan.run_append, Scan.run_cons, Scan.run_nil]
  rw [hcalls]
  exact hlast

/-- What is left of a text when its end is trimmed is there too when more text follows. -/
theorem trimRightBy_prefix (p : CodePoint → Bool) (t u : Text) :
    t.trimRightBy p <+: (t ++ u).trimRightBy p := by
  unfold Text.trimRightBy
  rw [List.reverse_prefix, List.reverse_append, List.dropWhile_append]
  split_ifs
  · exact List.suffix_rfl
  · exact (List.dropWhile_suffix p).trans (List.suffix_append _ _)

/-- The calls that are ended in the front part of a script are the first calls of the script. -/
theorem finished_prefix (front back : Text) : finished front <+: calls (front ++ back) := by
  obtain ⟨rest, hrest⟩ := trimRightBy_prefix isSpace front back
  rw [finished_eq_trimRight, calls_eq_trimRight, ← hrest, List.append_assoc, Scan.run_append]
  exact Scan.calls_prefix_run _ _

/-- A script may be cut off anywhere: all calls of the front part but possibly its last one are the
first calls of the whole script, and the last one is too if the front part ended it itself. -/
theorem calls_truncated (front back : Text) :
    (calls front).dropLast <+: calls (front ++ back) ∧
      (calls front = finished front → calls front <+: calls (front ++ back)) := by
  have hfinished := finished_prefix front back
  refine ⟨?_, fun h => h ▸ hfinished⟩
  obtain h | ⟨call, h⟩ := calls_eq_finished front <;> rw [h]
  · exact (List.dropLast_prefix _).trans hfinished
  · rw [List.dropLast_concat]
    exact hfinished

/-- The call that the cut goes through may come to another end. -/
example : calls (text "a 'x;'; b c") = [[text "a", text "x;"], [text "b", text "c"]] ∧
    calls (text "a 'x;'; b cd") = [[text "a", text "x;"], [text "b", text "cd"]] := by
  decide +kernel

end Snippets.Script
