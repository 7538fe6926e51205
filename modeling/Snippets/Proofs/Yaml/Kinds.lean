import Mathlib.Tactic.SplitIfs
import Snippets.Yaml.Reader

/-!
# What documents hold

A document holds mappings, lists and scalars, and no tuples: neither is it one, nor has it one under
a key (`untupled_parse`). Each reader of nodes is shown to yield only such values, along the fuel.
-/

namespace Snippets

/-! ## Values without tuples -/

namespace Value

/-- No entry holds a tuple. -/
def UntupledEntries (entries : List (Value × Value)) : Prop :=
  ∀ e ∈ entries, ∀ items, e.2 ≠ .tuple items

/-- The value is no tuple, and no mapping that holds one. -/
structure Untupled (v : Value) : Prop where
  ne : ∀ items, v ≠ .tuple items
  entries : ∀ entries, v = .map entries → UntupledEntries entries

variable {v k : Value} {entries : List (Value × Value)}

theorem untupled_map (h : UntupledEntries entries) : (Value.map entries).Untupled :=
  ⟨nofun, by rintro _ ⟨⟩; exact h⟩

theorem untupled_list (items : List Value) : (Value.list items).Untupled := ⟨nofun, nofun⟩

theorem untupled_text (t : Text) : (Value.text t).Untupled := ⟨nofun, nofun⟩

theorem untupled_null : Value.null.Untupled := ⟨nofun, nofun⟩

theorem UntupledEntries.insert (h : UntupledEntries entries) (hv : v.Untupled) (k : Value) :
    UntupledEntries (insertEntry k v entries) := by
  induction entries with
  | nil =>
    intro e he
    rw [List.mem_singleton.1 he]
    exact hv.ne
  | cons e entries ih =>
    obtain ⟨he, hentries⟩ := List.forall_mem_cons.1 h
    unfold insertEntry
    split_ifs
    · exact List.forall_mem_cons.2 ⟨hv.ne, hentries⟩
    · exact List.forall_mem_cons.2 ⟨he, ih hentries⟩

theorem UntupledEntries.lookup (h : UntupledEntries entries) {key : Text}
    (hv : Value.lookup key entries = some v) (items : List Value) : v ≠ .tuple items := by
  induction entries with
  | nil => cases hv
  | cons e entries ih =>
    obtain ⟨he, hentries⟩ := List.forall_mem_cons.1 h
    unfold Value.lookup at hv
    split at hv
    · cases hv
    · next heq =>
      cases heq
      split_ifs at hv with hkey
      · cases hv
        exact he items
      · exact ih hentries hv
    · next heq =>
      cases heq
      exact ih hentries hv

end Value

/-! ## The readers -/

namespace Yaml

open Value (Untupled UntupledEntries)

/-- What is read is no tuple, and no mapping that holds one. -/
def Yields (x : Option (Value × Cursor)) : Prop := ∀ r, x = some r → r.1.Untupled

section Yields

variable {c : Cursor} {v : Value} {entries : List (Value × Value)}

theorem yields_none : Yields none := nofun

theorem yields_some (h : v.Untupled) (c : Cursor) : Yields (some (v, c)) := by
  rintro _ ⟨⟩
  exact h

theorem yields_bind {α : Type} {x : Option α} {f : α → Option (Value × Cursor)}
    (h : ∀ a, x = some a → Yields (f a)) : Yields (x >>= f) := by
  cases x with
  | none => exact yields_none
  | some a => exact h a rfl

theorem untupled_resolve (t : Text) : (resolve t).Untupled := by
  unfold resolve
  split_ifs
  · exact ⟨nofun, nofun⟩
  · exact ⟨nofun, nofun⟩
  · exact ⟨nofun, nofun⟩
  · split
    · exact ⟨nofun, nofun⟩
    · split <;> exact ⟨nofun, nofun⟩

theorem yields_quotedScalar (c : Cursor) : Yields (quotedScalar c) := by
  unfold quotedScalar
  refine yields_bind fun q _ => yields_bind fun r _ => ?_
  exact yields_some (Value.untupled_text r.1) _

/-- An entry that is added holds what it is given. -/
theorem untupledEntries_insert {k : Value} (h : UntupledEntries entries) (hv : v.Untupled)
    {entries' : List (Value × Value)} (hi : insert k v entries = some entries') :
    UntupledEntries entries' := by
  unfold insert at hi
  split at hi
  · cases hi
  · cases hi
  · cases hi
  · cases hi
    exact h.insert hv _

/-- All that the readers of flow collections yield with some fuel. -/
structure FlowYields (fuel : Nat) : Prop where
  node : ∀ c, Yields (flowNode fuel c)
  value : ∀ c, Yields (flowValue fuel c)
  items : ∀ items c, Yields (flowItems fuel items c)
  entries : ∀ entries c, UntupledEntries entries → Yields (flowEntries fuel entries c)

theorem flowYields (fuel : Nat) : FlowYields fuel := by
  induction fuel with
  | zero =>
    exact ⟨fun _ => yields_none, fun _ => yields_none, fun _ _ => yields_none,
      fun _ _ _ => yields_none⟩
  | succ fuel ih =>
    refine ⟨fun c => ?_, fun c => ?_, fun items c => ?_, fun entries c h => ?_⟩
    · unfold flowNode
      split_ifs
      · exact ih.items [] _
      · exact ih.entries [] _ nofun
      · exact yields_quotedScalar c
      · exact yields_some (untupled_resolve _) _
      · exact yields_none
    · unfold flowValue
      dsimp only
      split_ifs
      · exact yields_some Value.untupled_null _
      · exact ih.node _
    · have hrest : ∀ r : Value × Cursor, Yields (
          if r.2.sees 0x2c then flowItems fuel (items ++ [r.1]) r.2.next
          else if r.2.sees 0x5d then some (.list (items ++ [r.1]), r.2.next)
          else none) := by
        intro r
        split_ifs
        · exact ih.items _ _
        · exact yields_some (Value.untupled_list _) _
        · exact yields_none
      unfold flowItems
      dsimp only
      split_ifs
      · exact yields_some (Value.untupled_list _) _
      · refine yields_bind fun r _ => ?_
        split_ifs
        · exact yields_bind fun _ _ => yields_bind fun _ _ => yields_bind fun r' _ => hrest r'
        · exact yields_bind fun r' _ => hrest r'
    · have hrest : ∀ (k : Value) (r : Value × Cursor), r.1.Untupled → Yields (do
          let entries ← insert k r.1 entries
          if r.2.skip.sees 0x2c then flowEntries fuel entries r.2.skip.next
          else if r.2.skip.sees 0x7d then some (.map entries, r.2.skip.next)
          else none) := by
        intro k r hv
        refine yields_bind fun entries' hi => ?_
        have h' := untupledEntries_insert h hv hi
        split_ifs
        · exact ih.entries entries' _ h'
        · exact yields_some (Value.untupled_map h') _
        · exact yields_none
      unfold flowEntries
      dsimp only
      split_ifs
      · exact yields_some (Value.untupled_map h) _
      · refine yields_bind fun r _ => ?_
        split_ifs
        · exact yields_bind fun r' hr' => hrest r.1 r' (ih.value _ r' hr')
        · exact yields_bind fun r' hr' => hrest r.1 r' (yields_some Value.untupled_null _ r' hr')

theorem yields_inlineNode (indent : Nat) (c : Cursor) : Yields (inlineNode indent c) := by
  unfold inlineNode
  extract_lets next
  have hnext : ∀ r : Value × Cursor, r.1.Untupled → Yields (next r) := by
    intro r hv
    show Yields (if r.2.skipSpaces.atColon then none else some r)
    split_ifs
    · exact yields_none
    · exact yields_some hv _
  split_ifs
  · exact yields_bind fun r hr => hnext r ((flowYields _).node c r hr)
  · exact yields_bind fun r hr => hnext r (yields_quotedScalar c r hr)
  · exact yields_bind fun r hr => hnext r (yields_some (untupled_resolve _) _ r hr)
  · exact yields_bind fun r hr => hnext r (yields_none r hr)

/-- All that the readers of blocks yield with some fuel. -/
structure BlockYields (fuel : Nat) : Prop where
  node : ∀ indent c, Yields (blockNode fuel indent c)
  items : ∀ column items c, Yields (blockItems fuel column items c)
  entries : ∀ column entries c, UntupledEntries entries →
    Yields (blockEntries fuel column entries c)

theorem blockYields (fuel : Nat) : BlockYields fuel := by
  induction fuel with
  | zero => exact ⟨fun _ _ => yields_none, fun _ _ _ => yields_none, fun _ _ _ _ => yields_none⟩
  | succ fuel ih =>
    refine ⟨fun indent c => ?_, fun column items c => ?_, fun column entries c h => ?_⟩
    · unfold blockNode
      split_ifs
      · exact ih.items _ [] c
      · split
        · exact ih.entries _ [] c nofun
        · exact yields_inlineNode indent c
    · unfold blockItems
      extract_lets start next
      have hnext : ∀ r, Yields (next r) := by
        intro r
        unfold next
        dsimp only
        split_ifs
        · exact yields_some (Value.untupled_list _) _
        · exact yields_none
        · exact ih.items column _ _
        · exact yields_some (Value.untupled_list _) _
      split_ifs <;> exact yields_bind fun r _ => hnext r
    · unfold blockEntries
      refine yields_bind fun r _ => ?_
      dsimp -zeta only
      extract_lets start next
      have hnext : ∀ r, r.1.Untupled → Yields (next r) := by
        intro r' hv
        unfold next
        refine yields_bind fun entries' hi => ?_
        have h' := untupledEntries_insert h hv hi
        dsimp only
        split_ifs
        · exact yields_some (Value.untupled_map h') _
        · exact yields_none
        · exact ih.entries column entries' _ h'
      split_ifs
      · exact yields_bind fun r' hr' => hnext r' (yields_some Value.untupled_null _ r' hr')
      · exact yields_bind fun r' hr' => hnext r' (ih.items _ _ _ r' hr')
      · exact yields_bind fun r' hr' => hnext r' (yields_some Value.untupled_null _ r' hr')
      · exact yields_bind fun r' hr' => hnext r' (ih.node _ _ r' hr')
      · exact yields_bind fun r' hr' => hnext r' (yields_inlineNode _ _ r' hr')

/-- No document is a tuple, or holds one under a key. -/
theorem untupled_parse {t : Text} (h : parse t = some v) : v.Untupled := by
  unfold parse at h
  by_cases hall : (!t.all isAllowed) = true
  · rw [if_pos hall] at h
    cases h
  rw [if_neg hall] at h
  extract_lets t' fuel start c next at h
  have hnext : ∀ {x : Option (Value × Cursor)}, Yields x → x >>= next = some v → v.Untupled := by
    intro x hx hv
    obtain ⟨r, rfl, hr⟩ := Option.bind_eq_some_iff.1 hv
    unfold next at hr
    dsimp only at hr
    split_ifs at hr <;> cases hr
    all_goals exact hx r rfl
  split_ifs at h
  · cases h
    exact Value.untupled_null
  · exact hnext (yields_some Value.untupled_null c) h
  · exact hnext ((blockYields fuel).node 0 c) h

end Yields

end Yaml

end Snippets
