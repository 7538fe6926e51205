import Mathlib.Tactic.SplitIfs
import Snippets.Event

/-!
# The turns of an emission

An emission gives everybody who is registered when it begins one turn for each registration, in
order, up to the first that fails (`rounds_emit`). A turn is one call, with the calls of the
emissions that it starts. Listeners come and go in between, and emissions are taken from them, but
otherwise they stay what they are (`Spends`).
-/

namespace Snippets.Event

/-- A turn in an emission: who was called, who was called in the emissions that this call started,
and how it failed. -/
structure Turn where
  name : Text
  nested : List Text
  fault : Option Fault

/-- The calls of a turn. -/
def Turn.calls (t : Turn) : List Text := t.name :: t.nested

/-- Listeners have one turn each, in order, up to the first that fails; its fault is that of the
emission. -/
inductive Rounds : List Text → List Turn → Option Fault → Prop where
  | done : Rounds [] [] none
  | goes {names : List Text} {turns : List Turn} {fault : Option Fault} (name : Text)
      (nested : List Text) (h : Rounds names turns fault) :
      Rounds (name :: names) (⟨name, nested, none⟩ :: turns) fault
  | fails (name : Text) (nested : List Text) (f : Fault) (names : List Text) :
      Rounds (name :: names) [⟨name, nested, some f⟩] (some f)

/-- A listener with no emissions left calls nobody, and fails if it has a fault. -/
def Turn.Plain (e : Event) (t : Turn) : Prop :=
  (e.listener t.name).emissions = 0 → t.nested = [] ∧ t.fault = (e.listener t.name).fault

/-- From `e` to `e'` emissions were taken from listeners, and nothing else. -/
def Spends (e e' : Event) : Prop :=
  ∀ name, ∃ n ≤ (e.listener name).emissions,
    e'.listener name = { e.listener name with emissions := n }

section Rounds

variable {e e' e'' : Event} {t : Turn} {name : Text}

theorem spends_of_eq (h : e'.listeners = e.listeners) : Spends e e' := by
  intro name
  refine ⟨_, Nat.le_refl _, ?_⟩
  rw [listener, h]
  rfl

theorem Spends.trans (h : Spends e e') (h' : Spends e' e'') : Spends e e'' := by
  intro name
  obtain ⟨n, hn, hl⟩ := h name
  obtain ⟨k, hk, hl'⟩ := h' name
  rw [hl] at hk hl'
  exact ⟨k, Nat.le_trans hk hn, hl'⟩

/-- A turn is as plain as it was before. -/
theorem Turn.Plain.of_spends (hp : t.Plain e') (h : Spends e e') : t.Plain e := by
  intro hzero
  obtain ⟨n, hn, hl⟩ := h t.name
  obtain rfl : n = 0 := by omega
  unfold Plain at hp
  rw [hl] at hp
  exact hp rfl

theorem lookup_spend (name n : Text) (ls : List (Text × Listener)) :
    (ls.map fun (m, l) => if m = name then (m, { l with emissions := l.emissions - 1 }) else (m, l)
      ).lookup n = (ls.lookup n).map fun l =>
        if n = name then { l with emissions := l.emissions - 1 } else l := by
  induction ls with
  | nil => rfl
  | cons p ls ih =>
    obtain ⟨m, l⟩ := p
    rw [List.map_cons]
    dsimp only
    by_cases hn : n = m
    · subst hn
      rw [List.lookup_cons_self, Option.map_some]
      split_ifs <;> exact List.lookup_cons_self
    · have hne : (n == m) = false := beq_false_of_ne hn
      have hskip (l : Listener) (ls : List (Text × Listener)) :
          List.lookup n ((m, l) :: ls) = ls.lookup n := by
        rw [List.lookup_cons, hne]
      rw [hskip, ← ih]
      split_ifs <;> exact hskip _ _

theorem spends_spend (e : Event) (name : Text) : Spends e (e.spend name) := by
  intro n
  unfold listener spend
  dsimp only
  rw [lookup_spend]
  cases e.listeners.lookup n with
  | none => exact ⟨0, Nat.le_refl 0, rfl⟩
  | some l =>
    by_cases hn : n = name
    · exact ⟨l.emissions - 1, Nat.sub_le .., by simp [hn]⟩
    · exact ⟨l.emissions, Nat.le_refl _, by simp [hn]⟩

/-- Coming and going concerns the registrations only. -/
theorem foldl_registrations {f : Event → Text → Event}
    (hf : ∀ e name, (f e name).listeners = e.listeners ∧ (f e name).calls = e.calls)
    (names : List Text) (e : Event) :
    (names.foldl f e).listeners = e.listeners ∧ (names.foldl f e).calls = e.calls := by
  induction names generalizing e with
  | nil => exact ⟨rfl, rfl⟩
  | cons name names ih =>
    obtain ⟨hl, hc⟩ := ih (f e name)
    exact ⟨hl.trans (hf e name).1, hc.trans (hf e name).2⟩

/-- What is known of an emission before anything is known of its turns: it takes emissions from
listeners, and adds calls. -/
def Calls (e e' : Event) (names : List Text) : Prop := Spends e e' ∧ e'.calls = e.calls ++ names

theorem Calls.trans {names names' : List Text} (h : Calls e e' names) (h' : Calls e' e'' names') :
    Calls e e'' (names ++ names') := by
  refine ⟨h.1.trans h'.1, ?_⟩
  rw [h'.2, h.2, List.append_assoc]

/-- The turn of one listener. -/
theorem turn_call {emit : Event → Event × Option Fault}
    (hemit : ∀ e, ∃ names, Calls e (emit e).1 names) (e : Event) (name : Text) :
    ∃ nested, Calls e (e.call emit name).1 (name :: nested) ∧
      (⟨name, nested, (e.call emit name).2⟩ : Turn).Plain e := by
  unfold call
  extract_lets l e₁ e₂
  have hremoves := foldl_registrations (f := remove) (fun _ _ => ⟨rfl, rfl⟩) l.removes e₁
  have hadds := foldl_registrations (f := add) (fun _ _ => ⟨rfl, rfl⟩) l.adds
    (l.removes.foldl remove e₁)
  have h₂ : Calls e e₂ [name] :=
    ⟨spends_of_eq (hadds.1.trans hremoves.1), hadds.2.trans hremoves.2⟩
  by_cases hzero : l.emissions = 0
  · rw [if_pos hzero]
    exact ⟨[], h₂, fun _ => ⟨rfl, rfl⟩⟩
  · rw [if_neg hzero]
    obtain ⟨nested, hnested⟩ := hemit (e₂.spend name)
    have hspend : Calls e₂ (e₂.spend name) [] :=
      ⟨spends_spend e₂ name, (List.append_nil _).symm⟩
    exact ⟨nested, h₂.trans (hspend.trans hnested), fun h => absurd h hzero⟩

/-- The turns of some listeners. -/
theorem rounds_deliver {emit : Event → Event × Option Fault}
    (hemit : ∀ e, ∃ names, Calls e (emit e).1 names) (names : List Text) (e : Event) :
    ∃ turns, Rounds names turns (deliver emit names e).2 ∧
      Calls e (deliver emit names e).1 (turns.flatMap Turn.calls) ∧ ∀ t ∈ turns, t.Plain e := by
  induction names generalizing e with
  | nil => exact ⟨[], .done, ⟨spends_of_eq rfl, (List.append_nil _).symm⟩, nofun⟩
  | cons name names ih =>
    obtain ⟨nested, hcall, hplain⟩ := turn_call hemit e name
    unfold deliver
    generalize e.call emit name = r at hcall hplain ⊢
    obtain ⟨e₁, _ | f⟩ := r
    · obtain ⟨turns, hrounds, hcalls, hturns⟩ := ih e₁
      refine ⟨⟨name, nested, none⟩ :: turns, .goes name nested hrounds, hcall.trans hcalls, ?_⟩
      rw [List.forall_mem_cons]
      exact ⟨hplain, fun t ht => (hturns t ht).of_spends hcall.1⟩
    · refine ⟨[⟨name, nested, some f⟩], .fails name nested f names, ?_, ?_⟩
      · rw [List.flatMap_singleton]
        exact hcall
      · simpa using hplain

theorem calls_emitWithin (depth : Nat) (e : Event) :
    ∃ names, Calls e (emitWithin depth e).1 names := by
  induction depth generalizing e with
  | zero => exact ⟨[], spends_of_eq rfl, (List.append_nil _).symm⟩
  | succ depth ih =>
    obtain ⟨turns, -, hcalls, -⟩ := rounds_deliver (fun e => ih e) e.registered
      { e with emitted := e.emitted + 1 }
    exact ⟨_, hcalls⟩

/-- An emission gives everybody who is registered a turn. -/
theorem rounds_emit (e : Event) : ∃ turns, Rounds e.registered turns e.emit.2 ∧
    e.emit.1.calls = e.calls ++ turns.flatMap Turn.calls ∧ ∀ t ∈ turns, t.Plain e := by
  obtain ⟨turns, hrounds, hcalls, hplain⟩ := rounds_deliver (calls_emitWithin e.budget)
    e.registered { e with emitted := e.emitted + 1 }
  exact ⟨turns, hrounds, hcalls.2, hplain⟩

end Rounds

end Snippets.Event
