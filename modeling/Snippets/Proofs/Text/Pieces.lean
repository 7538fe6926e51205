import Snippets.Text.Basic

/-!
# The pieces of a text

A text is what its pieces at a separator make when they are joined by it, and no piece holds the
separator.
-/

namespace Snippets.Text

variable {sep c : CodePoint} {t w : Text}

theorem splitOn_ne_nil (sep : CodePoint) (t : Text) : splitOn sep t ≠ [] := by
  cases t with
  | nil => simp [splitOn]
  | cons c t =>
    unfold splitOn
    split
    · simp
    · split <;> simp

theorem splitOn_cons_of_ne (h : c ≠ sep) (t : Text) :
    splitOn sep (c :: t) = (splitOn sep t).modifyHead (c :: ·) := by
  obtain ⟨first, others, hs⟩ := List.exists_cons_of_ne_nil (splitOn_ne_nil sep t)
  rw [splitOn, if_neg h, hs]
  rfl

theorem splitOn_append_of_not_mem (h : sep ∉ w) (t : Text) :
    splitOn sep (w ++ t) = (splitOn sep t).modifyHead (w ++ ·) := by
  obtain ⟨first, others, hs⟩ := List.exists_cons_of_ne_nil (splitOn_ne_nil sep t)
  induction w with
  | nil =>
    rw [List.nil_append, hs]
    rfl
  | cons c w ih =>
    rw [List.mem_cons, not_or] at h
    obtain ⟨hc, hw⟩ := h
    rw [List.cons_append, splitOn_cons_of_ne (Ne.symm hc), ih hw, hs]
    rfl

theorem join_cons_of_ne_nil (sep t : Text) {ts : List Text} (h : ts ≠ []) :
    join sep (t :: ts) = t ++ sep ++ join sep ts := by
  cases ts with
  | nil => exact absurd rfl h
  | cons u ts => rfl

theorem mem_join {sep : Text} {ts : List Text} (h : c ∈ join sep ts) :
    c ∈ sep ∨ ∃ t ∈ ts, c ∈ t := by
  induction ts using join.induct with
  | case1 => cases h
  | case2 t => exact .inr ⟨t, List.mem_singleton_self t, h⟩
  | case3 t u rest ih =>
    rw [join] at h
    obtain h | h := List.mem_append.1 h
    · obtain h | h := List.mem_append.1 h
      · exact .inr ⟨t, List.mem_cons_self, h⟩
      · exact .inl h
    · obtain h | ⟨piece, hpiece, hc⟩ := ih h
      · exact .inl h
      · exact .inr ⟨piece, List.mem_cons_of_mem _ hpiece, hc⟩

theorem mem_join_of_mem {sep : Text} {ts : List Text} (ht : t ∈ ts) (hc : c ∈ t) :
    c ∈ join sep ts := by
  induction ts with
  | nil => cases ht
  | cons first ts ih =>
    by_cases hts : ts = []
    · subst hts
      exact List.mem_singleton.1 ht ▸ hc
    · rw [join_cons_of_ne_nil sep first hts]
      rcases List.mem_cons.1 ht with rfl | ht
      · exact List.mem_append_left _ (List.mem_append_left _ hc)
      · exact List.mem_append_right _ (ih ht)

theorem join_modifyHead_cons (sep : Text) (c : CodePoint) {ts : List Text} (h : ts ≠ []) :
    join sep (ts.modifyHead (c :: ·)) = c :: join sep ts := by
  match ts, h with
  | [t], _ => rfl
  | t :: u :: ts, _ => rfl

theorem join_splitOn (sep : CodePoint) (t : Text) : join [sep] (splitOn sep t) = t := by
  induction t with
  | nil => rfl
  | cons c t ih =>
    by_cases hc : c = sep
    · rw [splitOn, if_pos hc, join_cons_of_ne_nil _ _ (splitOn_ne_nil sep t), ih, hc]
      rfl
    · rw [splitOn_cons_of_ne hc, join_modifyHead_cons _ _ (splitOn_ne_nil sep t), ih]

theorem exists_mem_splitOn (h : c ∈ t) (hne : c ≠ sep) : ∃ piece ∈ splitOn sep t, c ∈ piece := by
  rw [← join_splitOn sep t] at h
  rcases mem_join h with hc | hpiece
  · exact absurd (List.mem_singleton.1 hc) hne
  · exact hpiece

theorem mem_of_mem_splitOn {piece : Text} (h : piece ∈ splitOn sep t) (hc : c ∈ piece) : c ∈ t := by
  rw [← join_splitOn sep t]
  exact mem_join_of_mem h hc

theorem not_mem_of_mem_splitOn {piece : Text} (h : piece ∈ splitOn sep t) : sep ∉ piece := by
  induction t generalizing piece with
  | nil =>
    rw [splitOn, List.mem_singleton] at h
    exact h ▸ List.not_mem_nil
  | cons c t ih =>
    by_cases hc : c = sep
    · rw [splitOn, if_pos hc] at h
      rcases List.mem_cons.1 h with rfl | h
      · exact List.not_mem_nil
      · exact ih h
    · rw [splitOn_cons_of_ne hc] at h
      obtain ⟨first, others, hs⟩ := List.exists_cons_of_ne_nil (splitOn_ne_nil sep t)
      rw [hs] at h ih
      rcases List.mem_cons.1 h with rfl | h
      · have hfirst := ih List.mem_cons_self
        simp [Ne.symm hc, hfirst]
      · exact ih (List.mem_cons_of_mem _ h)

end Snippets.Text
