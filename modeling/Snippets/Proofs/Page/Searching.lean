import Mathlib.Data.List.Basic
import Mathlib.Tactic.SplitIfs
import Snippets.Proofs.Page.Queries
import Snippets.Proofs.Page.Skips

/-!
# What a search does

A search is run by the activation, but what comes of it is up to the document, which answers, and
to the player, which is told to skip and may do anything before it comes back. `Searched` lists how
a search can go for a player that is any function on pages: a marked activation does nothing; an
armed one asks for its own condition, and if a node is found has the player skip, once. `Called`
does the same for the command, whose document is any function on pages, and `Told` for a change of
which activations are told in order.

A page nests its changes in one another at most as deep as its player changes the document. So how
deep they may be nested does not matter, and a change is told to every observer with the very player
that brings about such changes (`mutate_eq`).
-/

namespace Snippets

namespace Page

/-! ## Pages on the way -/

/-- An activation has asked for nodes that match this condition. -/
def asks (p : Page) (i : Nat) (condition : Value) : Page :=
  p.record (.ask i (.xpath condition.display))

/-- An activation has found nodes, and the player is to skip for it. -/
def attempts (p : Page) (i : Nat) (condition : Value) (count : Nat) : Page :=
  (((p.asks i condition).record (.found i count)).note
    (.debug (text "Skipping media, matched " ++ condition.render))).record (.skip i)

/-- The player has come back from skipping for an activation. -/
def concludes (i : Nat) : Outcome → Outcome
  | (p, some fault) => (p, some fault)
  | (p, none) => ((p.record (.skipped i)).markSkipped i, none)

/-- The command has made an activation, and the document is to tell it of changes. -/
def opens (p : Page) (condition : Value) : Page :=
  (p.activate condition).record (.observe p.activations.length)

/-! ## How searches can go -/

/-- How the search of an activation goes, whatever the player does. -/
inductive Searched (skip : Page → Outcome) (i : Nat) (p : Page) : Outcome → Prop
  /-- it is marked, and does nothing -/
  | ended (marked : p.isSkipped i) : Searched skip i p (p, none)
  /-- its question fails -/
  | refused {condition : Value} {fault : Fault}
      (armed : p.activations[i]? = some ⟨condition, false⟩)
      (answer : p.document.find (.xpath condition.display) = .error fault) :
      Searched skip i p (p.asks i condition, some fault)
  /-- no node is found -/
  | missed {condition : Value} (armed : p.activations[i]? = some ⟨condition, false⟩)
      (answer : p.document.find (.xpath condition.display) = .ok []) :
      Searched skip i p ((p.asks i condition).record (.found i 0), none)
  /-- a node is found, and skipping fails -/
  | failed {condition node : Value} {rest : List Value} {p' : Page} {fault : Fault}
      (armed : p.activations[i]? = some ⟨condition, false⟩)
      (answer : p.document.find (.xpath condition.display) = .ok (node :: rest))
      (attempt : skip (p.attempts i condition (rest.length + 1)) = (p', some fault)) :
      Searched skip i p (p', some fault)
  /-- a node is found, and the player skips -/
  | skipped {condition node : Value} {rest : List Value} {p' : Page}
      (armed : p.activations[i]? = some ⟨condition, false⟩)
      (answer : p.document.find (.xpath condition.display) = .ok (node :: rest))
      (attempt : skip (p.attempts i condition (rest.length + 1)) = (p', none)) :
      Searched skip i p ((p'.record (.skipped i)).markSkipped i, none)

/-- How the command goes, whatever document and player do. -/
inductive Called (observe : Nat → Page → Outcome) (skip : Page → Outcome) (p : Page) :
    List Value → Page × Option CallError → Prop
  /-- there is no condition -/
  | incomplete : Called observe skip p [] (p, some .missingCondition)
  /-- the document is not going to tell of changes -/
  | unobserved {condition : Value} {rest : List Value} {p' : Page} {fault : Fault}
      (answer : observe p.activations.length (p.opens condition) = (p', some fault)) :
      Called observe skip p (condition :: rest) (p', some (.fault fault))
  /-- the document is going to tell of changes, and the new activation searches -/
  | searched {condition : Value} {rest : List Value} {p' p'' : Page} {fault : Option Fault}
      (answer : observe p.activations.length (p.opens condition) = (p', none))
      (search : Searched skip p.activations.length (p'.record (.observed p.activations.length))
        (p'', fault)) :
      Called observe skip p (condition :: rest) (p'', fault.map .fault)

/-- How activations are told of a change, whatever the player does: in order, up to the first whose
search fails. -/
inductive Told (skip : Page → Outcome) : List Nat → Page → Outcome → Prop
  | nobody (p : Page) : Told skip [] p (p, none)
  /-- there is no such activation -/
  | absent {i : Nat} {rest : List Nat} {p : Page} {o : Outcome} (hi : p.activations.length ≤ i)
      (others : Told skip rest p o) : Told skip (i :: rest) p o
  | on {i : Nat} {rest : List Nat} {p p' : Page} {o : Outcome} (hi : i < p.activations.length)
      (search : Searched skip i (p.record (.notified i)) (p', none))
      (others : Told skip rest p' o) : Told skip (i :: rest) p o
  | broken {i : Nat} {rest : List Nat} {p p' : Page} {fault : Fault} (hi : i < p.activations.length)
      (search : Searched skip i (p.record (.notified i)) (p', some fault)) :
      Told skip (i :: rest) p (p', some fault)

section Searches

variable {skip skip' : Page → Outcome} {p : Page} {i : Nat} {condition node : Value}
  {rest : List Value}

theorem isSkipped_of_getElem? {a : Activation} (ha : p.activations[i]? = some a) :
    p.isSkipped i = a.skipped := by
  unfold isSkipped
  rw [ha]

theorem isSkipped_or_armed (p : Page) (i : Nat) :
    p.isSkipped i ∨ ∃ condition, p.activations[i]? = some ⟨condition, false⟩ := by
  unfold isSkipped
  rcases p.activations[i]? with _ | ⟨condition, _ | _⟩
  · exact .inl rfl
  · exact .inr ⟨condition, rfl⟩
  · exact .inl rfl

theorem onMatch_of_isSkipped (h : p.isSkipped i) : p.onMatch skip i condition = (p, none) :=
  if_pos h

theorem onMatch_of_armed (h : p.isSkipped i = false) :
    p.onMatch skip i condition = concludes i (skip ((p.note
      (.debug (text "Skipping media, matched " ++ condition.render))).record (.skip i))) := by
  unfold onMatch
  rw [h, if_neg Bool.false_ne_true]
  dsimp only
  rcases skip _ with ⟨p', _ | fault⟩ <;> rfl

/-- The nodes that are left do nothing for a marked activation. -/
theorem visit_of_isSkipped (h : p.isSkipped i) (nodes : List Value) :
    Query.visit (fun _ p => p.onMatch skip i condition) nodes p = (nodes, p, none) := by
  induction nodes with
  | nil => rfl
  | cons node rest ih =>
    unfold Query.visit
    rw [onMatch_of_isSkipped h]
    dsimp only
    rw [ih]

theorem search_of_isSkipped (h : p.isSkipped i) : p.search skip i = (p, none) := by
  unfold search
  rcases ha : p.activations[i]? with _ | a
  · rfl
  · exact if_pos ((isSkipped_of_getElem? ha).symm.trans h)

theorem search_of_error {fault : Fault} (armed : p.activations[i]? = some ⟨condition, false⟩)
    (answer : p.document.find (.xpath condition.display) = .error fault) :
    p.search skip i = (p.asks i condition, some fault) := by
  rw [search_eq_run armed rfl, Activation.query_eq]
  simp only [Query.run, answering, record, answer, asks]

theorem search_of_nil (armed : p.activations[i]? = some ⟨condition, false⟩)
    (answer : p.document.find (.xpath condition.display) = .ok []) :
    p.search skip i = ((p.asks i condition).record (.found i 0), none) := by
  rw [search_eq_run armed rfl, Activation.query_eq]
  simp only [Query.run, answering, record, answer, asks, Query.visit, List.length_nil]

/-- Of the nodes that are found the first has the player skip, and no other does. -/
theorem search_of_cons (armed : p.activations[i]? = some ⟨condition, false⟩)
    (answer : p.document.find (.xpath condition.display) = .ok (node :: rest)) :
    p.search skip i = concludes i (skip (p.attempts i condition (rest.length + 1))) := by
  have harmed : ((p.asks i condition).record (.found i (rest.length + 1))).isSkipped i = false :=
    isSkipped_of_getElem? (a := ⟨condition, false⟩) armed
  have hanswer : answering i (.xpath condition.display) p =
      ((p.asks i condition).record (.found i (rest.length + 1)), .ok (node :: rest)) := by
    simp only [answering, record, answer, asks, List.length_cons]
  rw [search_eq_run armed rfl, Activation.query_eq]
  unfold Query.run
  rw [hanswer]
  dsimp only
  unfold Query.visit
  rw [onMatch_of_armed harmed]
  unfold attempts
  rcases skip _ with ⟨p', _ | fault⟩
  · have hmarked : ((p'.record (.skipped i)).markSkipped i).isSkipped i := by
      simp [isSkipped_markSkipped]
    unfold concludes
    dsimp only
    rw [visit_of_isSkipped hmarked]
  · rfl

theorem searched_search (skip : Page → Outcome) (p : Page) (i : Nat) :
    Searched skip i p (p.search skip i) := by
  rcases isSkipped_or_armed p i with marked | ⟨condition, armed⟩
  · rw [search_of_isSkipped marked]
    exact .ended marked
  · rcases answer : p.document.find (.xpath condition.display) with fault | _ | ⟨node, rest⟩
    · rw [search_of_error armed answer]
      exact .refused armed answer
    · rw [search_of_nil armed answer]
      exact .missed armed answer
    · rw [search_of_cons armed answer]
      rcases attempt : skip (p.attempts i condition (rest.length + 1)) with ⟨p', _ | fault⟩
      · exact .skipped armed answer attempt
      · exact .failed armed answer attempt

theorem searched_notify (skip : Page → Outcome) (hi : i < p.activations.length) :
    Searched skip i (p.record (.notified i)) (p.notify skip i) := by
  rw [notify, if_pos hi]
  exact searched_search skip _ i

theorem called_carryOut (observe : Nat → Page → Outcome) (skip : Page → Outcome) (p : Page)
    (args : List Value) : Called observe skip p args (p.carryOut observe skip args) := by
  cases args with
  | nil => exact .incomplete
  | cons condition rest =>
    unfold carryOut
    dsimp only
    rcases answer : observe p.activations.length (p.opens condition) with ⟨p', _ | fault⟩
    · unfold opens at answer
      rw [answer]
      exact .searched answer (searched_search skip _ _)
    · unfold opens at answer
      rw [answer]
      exact .unobserved answer

theorem told_notifyAll (skip : Page → Outcome) (observers : List Nat) (p : Page) :
    Told skip observers p (notifyAll skip observers p) := by
  induction observers generalizing p with
  | nil => exact .nobody p
  | cons i rest ih =>
    unfold notifyAll
    by_cases hi : i < p.activations.length
    · have hsearch := searched_notify skip hi
      generalize p.notify skip i = o at hsearch ⊢
      obtain ⟨p', _ | fault⟩ := o
      · exact .on hi hsearch (ih p')
      · exact .broken hi hsearch
    · rw [notify, if_neg hi]
      exact .absent (Nat.le_of_not_lt hi) (ih p)

end Searches

/-! ## Changes within changes -/

section Nesting

variable {skip skip' : Page → Outcome} {p : Page}

/-- A search calls the player at most once, and before that nothing happens to the player. -/
theorem search_congr (h : ∀ q, q.player = p.player → skip q = skip' q) (i : Nat) :
    p.search skip i = p.search skip' i := by
  rcases isSkipped_or_armed p i with marked | ⟨condition, armed⟩
  · rw [search_of_isSkipped marked, search_of_isSkipped marked]
  · rcases answer : p.document.find (.xpath condition.display) with fault | _ | ⟨node, rest⟩
    · rw [search_of_error armed answer, search_of_error armed answer]
    · rw [search_of_nil armed answer, search_of_nil armed answer]
    · rw [search_of_cons armed answer, search_of_cons armed answer]
      exact congrArg (concludes i) (h _ rfl)

theorem notify_congr (h : ∀ q, q.player = p.player → skip q = skip' q) (i : Nat) :
    p.notify skip i = p.notify skip' i := by
  unfold notify
  rw [search_congr (p := p.record (.notified i)) h]

theorem notifyAll_congr (hskip : ∀ q, Onward 0 0 q (skip q).1)
    (h : ∀ q, q.player.changes ≤ p.player.changes → skip q = skip' q) (observers : List Nat) :
    notifyAll skip observers p = notifyAll skip' observers p := by
  induction observers generalizing p with
  | nil => rfl
  | cons i rest ih =>
    have hbudget := (onward_notify (p := p) (j := i) hskip).budget
    unfold notifyAll
    rw [← notify_congr (fun q hq => h q (hq ▸ Nat.le_refl _)) i]
    generalize p.notify skip i = o at hbudget ⊢
    obtain ⟨p', _ | fault⟩ := o
    · exact ih fun q hq => h q (Nat.le_trans hq hbudget)
    · rfl

variable {mutate mutate' : Page → Outcome}

theorem skipPlaying_congr (h : ∀ q, q.player.changes < p.player.changes → mutate q = mutate' q) :
    skipPlaying mutate p = skipPlaying mutate' p := by
  unfold skipPlaying
  dsimp only
  split
  · rfl
  · split
    · rfl
    · exact h _ (by dsimp only; omega)

/-- Any depth will do that the changes of the player do not reach. -/
theorem mutateWithin_congr {depth depth' : Nat} (h : p.player.changes < depth)
    (h' : p.player.changes < depth') : mutateWithin depth p = mutateWithin depth' p := by
  induction depth generalizing depth' p with
  | zero => exact absurd h (Nat.not_lt_zero _)
  | succ depth ih =>
    obtain _ | depth' := depth'
    · exact absurd h' (Nat.not_lt_zero _)
    · refine notifyAll_congr (fun _ => onward_skipPlaying (onward_mutateWithin 0 depth)) ?_ _
      exact fun q hq => skipPlaying_congr fun r hr => ih (by omega) (by omega)

/-- A change is told to every observer, with the player that brings about changes like it. -/
theorem mutate_eq (p : Page) : p.mutate = notifyAll (skipPlaying Page.mutate) p.observers p := by
  refine notifyAll_congr (fun _ => onward_skipPlaying (onward_mutateWithin 0 _)) ?_ _
  exact fun q hq => skipPlaying_congr fun r hr => mutateWithin_congr (by omega) (by omega)

end Nesting

end Page

end Snippets
