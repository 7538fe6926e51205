import Mathlib.Data.List.Basic
import Mathlib.Tactic.SplitIfs
import Snippets.Page.SkipMedia

/-!
# How often an activation skips

An activation is marked when a skip that it asked for has returned. Until then it asks again at
every match, also from inside a skip of its own: a player that changes the document while it skips
lets the observers search before the first skip is over. So one activation may see several skips
return (`not_returned_le_one`).

What holds is this: once a skip has returned, none begins on behalf of that activation, and there
are at most as many as the player changes the document while it skips, and one (`returned_le`). A
player that leaves the document alone skips once for each activation.

`Onward` says what a search and everything nested in it can do with regard to one activation. It is
kept by putting searches one after the other, so the nesting is an induction on its depth.
-/

namespace Snippets

/-- After a skip of the activation has returned, none begins. -/
def Deed.Ordered (i : Nat) (deeds : List Deed) : Prop :=
  deeds.Pairwise fun d e => d = .skipped i → e ≠ .skip i

namespace Page

/-! ## Runs -/

/-- What the surroundings do to a page. -/
inductive Act where
  | call (args : List Value)
  | mutate
  | setNodes (key : Text) (nodes : List Value)

def act (p : Page) : Act → Page
  | .call args => (p.call args).1
  | .mutate => p.mutate.1
  | .setNodes key nodes => { p with document := p.document.setXPath key nodes }

def run (p : Page) (acts : List Act) : Page := acts.foldl act p

/-- How many skips on behalf of an activation have returned. -/
def returned (p : Page) (i : Nat) : Nat := p.deeds.count (.skipped i)

/-! ## The mark of an activation -/

section Marks

variable {p : Page} {i j : Nat}

theorem isSkipped_record (d : Deed) : (p.record d).isSkipped i = p.isSkipped i := rfl

theorem isSkipped_markSkipped :
    (p.markSkipped j).isSkipped i = (decide (j = i) || p.isSkipped i) := by
  unfold isSkipped markSkipped
  rw [List.getElem?_modify]
  by_cases h : j = i
  · cases p.activations[i]? <;> simp [h]
  · simp [h]

/-- An activation that does not exist counts as marked. -/
theorem lt_of_not_isSkipped (h : ¬ p.isSkipped i) : i < p.activations.length := by
  by_contra hle
  refine h ?_
  unfold isSkipped
  rw [List.getElem?_eq_none (Nat.le_of_not_lt hle)]

end Marks

/-! ## What a search can do -/

/-- From `p` to `p'` with regard to activation `i`: a marked one stays marked and does nothing, it
is marked when a skip of its own has returned, and the skips that return are paid for by changes of
the document, but for `free` of them. -/
structure Onward (i free : Nat) (p p' : Page) : Prop where
  marked : p.isSkipped i → p'.isSkipped i
  size : p'.activations.length = p.activations.length
  budget : p'.player.changes ≤ p.player.changes
  deeds : ∃ new, p'.deeds = p.deeds ++ new ∧
    (p.isSkipped i → .skip i ∉ new ∧ .skipped i ∉ new) ∧
    (.skipped i ∈ new → p'.isSkipped i) ∧
    new.count (.skipped i) + p'.player.changes ≤ p.player.changes + free ∧
    Deed.Ordered i new

section Onward

variable {i j free : Nat} {p p' p'' : Page}

theorem Onward.refl (i free : Nat) (p : Page) : Onward i free p p :=
  ⟨id, rfl, Nat.le_refl _, [], by simp [Deed.Ordered]⟩

theorem Onward.mono (h : Onward i 0 p p') (free : Nat) : Onward i free p p' := by
  obtain ⟨hm, hs, hb, new, hd, hq, hr, hc, ho⟩ := h
  exact ⟨hm, hs, hb, new, hd, hq, hr, by omega, ho⟩

/-- The first skip to return marks the activation, so only one of two parts needs what is free. -/
theorem Onward.trans (h : Onward i free p p') (h' : Onward i free p' p'') :
    Onward i free p p'' := by
  obtain ⟨hm, hs, hb, new, hd, hq, hr, hc, ho⟩ := h
  obtain ⟨hm', hs', hb', new', hd', hq', hr', hc', ho'⟩ := h'
  refine ⟨fun h => hm' (hm h), hs'.trans hs, Nat.le_trans hb' hb, new ++ new', ?_, ?_, ?_, ?_, ?_⟩
  · rw [hd', hd, List.append_assoc]
  · intro h
    have h₁ := hq h
    have h₂ := hq' (hm h)
    simp [h₁, h₂]
  · intro h
    rcases List.mem_append.1 h with h | h
    · exact hm' (hr h)
    · exact hr' h
  · rw [List.count_append]
    by_cases h : .skipped i ∈ new
    · rw [List.count_eq_zero.2 (hq' (hr h)).2]
      omega
    · rw [List.count_eq_zero.2 h]
      omega
  · refine List.pairwise_append.2 ⟨ho, ho', ?_⟩
    rintro d hd e he rfl rfl
    exact (hq' (hr hd)).1 he

/-- What changes neither the activations nor the player, and is no deed of the activation. -/
theorem onward_of_eq (ha : p'.activations = p.activations)
    (hc : p'.player.changes = p.player.changes) (new : List Deed) (hd : p'.deeds = p.deeds ++ new)
    (hn : .skip i ∉ new ∧ .skipped i ∉ new) : Onward i 0 p p' := by
  refine ⟨fun h => ?_, by rw [ha], Nat.le_of_eq hc, new, hd, fun _ => hn,
    fun h => absurd h hn.2, ?_, ?_⟩
  · unfold isSkipped
    rw [ha]
    exact h
  · rw [List.count_eq_zero.2 hn.2]
    omega
  · refine List.pairwise_of_forall_mem_list fun d hd e _ he => ?_
    exact absurd (he ▸ hd) hn.2

theorem onward_record {d : Deed} (hs : d ≠ .skip i) (hr : d ≠ .skipped i) :
    Onward i 0 p (p.record d) :=
  onward_of_eq rfl rfl [d] rfl ⟨by simpa using hs.symm, by simpa using hr.symm⟩

/-! ## Searches, with what is nested in them -/

variable {skip mutate : Page → Outcome}

/-- The match of the activation itself: its skip may return, and then it is marked. -/
theorem onward_onMatch_self (hskip : ∀ p, Onward i 0 p (skip p).1) (condition : Value) :
    Onward i 1 p (p.onMatch skip i condition).1 := by
  unfold onMatch
  split_ifs with hi
  · exact .refl i 1 p
  · dsimp only
    obtain ⟨-, hs, hb, new, hd, -, hr, hc, ho⟩ :=
      hskip ((p.note (.debug (text "Skipping media, matched " ++ condition.render))).record
        (.skip i))
    generalize skip _ = r at hs hb hd hr hc ⊢
    obtain ⟨p', fault⟩ := r
    have hd' : p'.deeds = p.deeds ++ .skip i :: new := by
      rw [hd]
      simp [record, note]
    have hordered : Deed.Ordered i (.skip i :: new) := List.pairwise_cons.2 ⟨by simp, ho⟩
    cases fault with
    | some f =>
      refine ⟨fun h => absurd h hi, hs, hb, .skip i :: new, hd', fun h => absurd h hi, ?_, ?_,
        hordered⟩
      · exact fun h => hr (by simpa using h)
      · rw [List.count_cons_of_ne (by simp)]
        exact Nat.le_trans hc (Nat.le_succ _)
    | none =>
      refine ⟨fun h => absurd h hi, by simpa [markSkipped, record, note] using hs, hb,
        .skip i :: new ++ [.skipped i], ?_, fun h => absurd h hi, ?_, ?_, ?_⟩
      · show p'.deeds ++ [.skipped i] = _
        rw [hd']
        simp
      · exact fun _ => by simp [isSkipped_markSkipped]
      · rw [List.count_append, List.count_cons_of_ne (by simp), List.count_singleton_self]
        show new.count (.skipped i) + 1 + p'.player.changes ≤ _
        have hc : new.count (.skipped i) + p'.player.changes ≤ p.player.changes + 0 := hc
        omega
      · exact List.pairwise_append.2 ⟨hordered, by simp, by simp⟩

/-- The match of another activation, during which this one may search. -/
theorem onward_onMatch_other (hskip : ∀ p, Onward i 0 p (skip p).1) (condition : Value)
    (h : j ≠ i) : Onward i 1 p (p.onMatch skip j condition).1 := by
  unfold onMatch
  split_ifs
  · exact .refl i 1 p
  · dsimp only
    have hbefore : Onward i 0 p ((p.note (.debug (text "Skipping media, matched " ++
        condition.render))).record (.skip j)) :=
      onward_of_eq rfl rfl [.skip j] rfl (by simpa using Ne.symm h)
    have hthrough := hbefore.trans (hskip _)
    generalize skip _ = r at hthrough ⊢
    obtain ⟨p', fault⟩ := r
    cases fault with
    | some f => exact hthrough.mono 1
    | none =>
      have hafter : Onward i 0 p' ((p'.record (.skipped j)).markSkipped j) := by
        refine ⟨fun hi => ?_, by simp [markSkipped, record], Nat.le_refl _, [.skipped j], rfl,
          by simp [Ne.symm h], by simp [Ne.symm h], ?_, by simp [Deed.Ordered]⟩
        · rw [isSkipped_markSkipped, isSkipped_record, hi, Bool.or_true]
        · rw [List.count_eq_zero.2 (by simp [Ne.symm h])]
          simp [markSkipped, record]
      exact (hthrough.trans hafter).mono 1

theorem onward_matchAll (hskip : ∀ p, Onward i 0 p (skip p).1) (condition : Value)
    (nodes : List Value) : Onward i 1 p (matchAll skip j condition nodes p).1 := by
  induction nodes generalizing p with
  | nil => exact .refl i 1 p
  | cons node rest ih =>
    have hmatch : Onward i 1 p (p.onMatch skip j condition).1 := by
      by_cases h : j = i
      · subst h
        exact onward_onMatch_self hskip condition
      · exact onward_onMatch_other hskip condition h
    unfold matchAll
    generalize p.onMatch skip j condition = r at hmatch ⊢
    obtain ⟨p', _ | f⟩ := r
    · exact hmatch.trans ih
    · exact hmatch

theorem onward_search (hskip : ∀ p, Onward i 0 p (skip p).1) :
    Onward i 1 p (p.search skip j).1 := by
  unfold search
  split
  · exact .refl i 1 p
  · next a _ =>
    split_ifs
    · exact .refl i 1 p
    · have hask : Onward i 1 p (p.record (.ask j a.query)) :=
        (onward_record (by simp) (by simp)).mono 1
      dsimp only
      split
      · exact hask
      · refine (hask.trans ?_).trans (onward_matchAll hskip _ _)
        exact (onward_record (by simp) (by simp)).mono 1

theorem onward_notify (hskip : ∀ p, Onward i 0 p (skip p).1) :
    Onward i 1 p (p.notify skip j).1 := by
  unfold notify
  split_ifs
  · exact ((onward_record (by simp) (by simp)).mono 1).trans (onward_search hskip)
  · exact .refl i 1 p

theorem onward_notifyAll (hskip : ∀ p, Onward i 0 p (skip p).1) (observers : List Nat) :
    Onward i 1 p (notifyAll skip observers p).1 := by
  induction observers generalizing p with
  | nil => exact .refl i 1 p
  | cons j rest ih =>
    have hnotify := onward_notify (p := p) (j := j) hskip
    unfold notifyAll
    generalize p.notify skip j = r at hnotify ⊢
    obtain ⟨p', _ | f⟩ := r
    · exact hnotify.trans ih
    · exact hnotify

/-- A change of the document while the player skips is paid for. -/
theorem onward_skipPlaying (hmutate : ∀ p, Onward i 1 p (mutate p).1) :
    Onward i 0 p (skipPlaying mutate p).1 := by
  have hfaults : Onward i 0 p { p with player := { p.player with faults := p.player.faults.tail } } :=
    onward_of_eq rfl rfl [] (by simp) (by simp)
  unfold skipPlaying
  dsimp only
  split
  · exact hfaults
  · split
    · exact hfaults
    · next n hn =>
      obtain ⟨hmark, hs, hb, new, hd, hq, hr, hc, ho⟩ :=
        hmutate { p with player := { faults := p.player.faults.tail, changes := n } }
      refine ⟨hmark, hs, ?_, new, hd, hq, hr, ?_, ho⟩
      · exact Nat.le_trans hb (by dsimp only; omega)
      · exact Nat.le_trans hc (by dsimp only; omega)

/-- A change of the document, with everything that is nested in it. -/
theorem onward_mutateWithin (i depth : Nat) (p : Page) :
    Onward i 1 p (mutateWithin depth p).1 := by
  induction depth generalizing p with
  | zero => exact .refl i 1 p
  | succ depth ih => exact onward_notifyAll (fun _ => onward_skipPlaying ih) p.observers

theorem onward_mutate (i : Nat) (p : Page) : Onward i 1 p p.mutate.1 := onward_mutateWithin i _ p

end Onward

/-! ## Whole runs -/

/-- What is true of an activation at any time, on a page whose player had `changes` to make. -/
structure Settled (i changes : Nat) (p : Page) : Prop where
  marked : .skipped i ∈ p.deeds → i < p.activations.length ∧ p.isSkipped i
  budget : p.player.changes ≤ changes
  paid : p.returned i + p.player.changes ≤ changes + 1
  ordered : Deed.Ordered i p.deeds

section Settled

variable {i changes : Nat} {p p' : Page}

theorem Settled.onward (h : Settled i changes p) (m : Onward i 1 p p') : Settled i changes p' := by
  obtain ⟨hm, hb, hp, ho⟩ := h
  obtain ⟨hmark, hs, hb', new, hd, hq, hr, hc, ho'⟩ := m
  unfold returned at hp
  refine ⟨?_, Nat.le_trans hb' hb, ?_, ?_⟩
  · rw [hd, hs]
    intro h
    rcases List.mem_append.1 h with h | h
    · exact ⟨(hm h).1, hmark (hm h).2⟩
    · exact ⟨lt_of_not_isSkipped fun hi => (hq hi).2 h, hr h⟩
  · unfold returned
    rw [hd, List.count_append]
    by_cases h : .skipped i ∈ p.deeds
    · rw [List.count_eq_zero.2 (hq (hm h).2).2]
      omega
    · rw [List.count_eq_zero.2 h]
      omega
  · rw [hd]
    refine List.pairwise_append.2 ⟨ho, ho', ?_⟩
    rintro d hd e he rfl rfl
    exact (hq (hm hd).2).1 he

theorem Settled.record {d : Deed} (h : Settled i changes p) (hs : d ≠ .skip i)
    (hr : d ≠ .skipped i) : Settled i changes (p.record d) :=
  h.onward ((onward_record hs hr).mono 1)

/-- A new activation has done nothing yet. -/
theorem Settled.activate (h : Settled i changes p) (condition : Value) :
    Settled i changes (p.activate condition) := by
  refine ⟨fun hi => ?_, h.budget, h.paid, h.ordered⟩
  obtain ⟨hlt, hmark⟩ := h.marked hi
  refine ⟨by simpa [Page.activate] using Nat.lt_succ_of_lt hlt, ?_⟩
  unfold isSkipped Page.activate
  rw [List.getElem?_append_left hlt]
  exact hmark

theorem Settled.watch (h : Settled i changes p) (j : Nat) : Settled i changes (p.watch j).1 := by
  unfold Page.watch
  split
  · exact h
  · exact ⟨h.marked, h.budget, h.paid, h.ordered⟩

theorem Settled.call (h : Settled i changes p) (args : List Value) :
    Settled i changes (p.call args).1 := by
  cases args with
  | nil => exact h
  | cons condition rest =>
    have hobserve := (h.activate condition).record (d := .observe p.activations.length) (by simp)
      (by simp)
    have hwatch := hobserve.watch p.activations.length
    unfold Page.call carryOut
    dsimp only
    generalize Page.watch _ _ = r at hwatch ⊢
    obtain ⟨p', _ | f⟩ := r
    · have hobserved := hwatch.record (d := .observed p.activations.length) (by simp) (by simp)
      exact hobserved.onward (onward_search fun _ => onward_skipPlaying fun p => onward_mutate i p)
    · exact hwatch

theorem Settled.act (h : Settled i changes p) (a : Act) : Settled i changes (p.act a) := by
  cases a with
  | call args => exact h.call args
  | mutate => exact h.onward (onward_mutate i p)
  | setNodes key nodes => exact ⟨h.marked, h.budget, h.paid, h.ordered⟩

theorem Settled.run (h : Settled i changes p) (acts : List Act) :
    Settled i changes (p.run acts) := by
  induction acts generalizing p with
  | nil => exact h
  | cons a acts ih => exact ih (h.act a)

end Settled

/-- On every page and for every activation, at most one skip more returns than the player changes
the document while it skips: just one if it never does. And no skip begins on behalf of an
activation after one has returned. -/
theorem returned_le (document : Document) (player : Player) (acts : List Act) (i : Nat) :
    (({ document, player } : Page).run acts).returned i ≤ player.changes + 1 ∧
      Deed.Ordered i (({ document, player } : Page).run acts).deeds := by
  have hnew : Settled i player.changes { document, player } :=
    ⟨by simp, Nat.le_refl _, by simp [returned], by simp [Deed.Ordered]⟩
  have h := hnew.run acts
  exact ⟨Nat.le_trans (Nat.le_add_right _ _) h.paid, h.ordered⟩

/-- An activation that sees two skips return: the first has the document changed before it is
over. -/
theorem not_returned_le_one :
    ¬ ∀ (document : Document) (player : Player) (acts : List Act) (i : Nat),
      (({ document, player } : Page).run acts).returned i ≤ 1 := by
  intro h
  have h := h { xpath := [(text "//a", [.text (text "n")])] } { changes := 1 }
    [.call [.text (text "//a")]] 0
  exact absurd h (by decide +kernel)

end Page

end Snippets
