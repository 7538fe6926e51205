/-!
Association lists in order of first insertion. `put` replaces the value of a key in its place, or
adds the key at the end; the three lemmas say what that does to look-ups and to the keys.
-/

namespace Snippets.Assoc

variable {κ α : Type} [DecidableEq κ]

/-- Sets a key, in its place if it is there and at the end otherwise. -/
def put (key : κ) (value : α) : List (κ × α) → List (κ × α)
  | [] => [(key, value)]
  | (k, v) :: rest => if k = key then (k, value) :: rest else (k, v) :: put key value rest

section Lookup

variable [BEq κ] [LawfulBEq κ]

theorem lookup_put_self (key : κ) (value : α) (l : List (κ × α)) :
    (put key value l).lookup key = some value := by
  induction l with
  | nil => simp [put]
  | cons e rest ih =>
    obtain ⟨k, v⟩ := e
    by_cases h : k = key
    · subst h
      simp [put]
    · have hb : (key == k) = false := beq_false_of_ne (Ne.symm h)
      simp [put, h, List.lookup_cons, hb, ih]

theorem lookup_put_of_ne {key other : κ} (h : other ≠ key) (value : α) (l : List (κ × α)) :
    (put key value l).lookup other = l.lookup other := by
  induction l with
  | nil => simp [put, List.lookup_cons, beq_false_of_ne h]
  | cons e rest ih =>
    obtain ⟨k, v⟩ := e
    by_cases hk : k = key
    · subst hk
      simp [put, List.lookup_cons, beq_false_of_ne h]
    · simp [put, hk, List.lookup_cons, ih]

end Lookup

theorem map_fst_put (key : κ) (value : α) (l : List (κ × α)) :
    (put key value l).map Prod.fst =
      if key ∈ l.map Prod.fst then l.map Prod.fst else l.map Prod.fst ++ [key] := by
  induction l with
  | nil => simp [put]
  | cons e rest ih =>
    obtain ⟨k, v⟩ := e
    by_cases h : k = key
    · subst h
      simp [put]
    · have hne : key ≠ k := Ne.symm h
      simp only [put, h, if_false, List.map_cons, ih, List.mem_cons, hne, false_or]
      split <;> simp

end Snippets.Assoc
