import Mathlib.Data.List.Basic
import Mathlib.Tactic.SplitIfs
import Snippets.Proofs.Page.Searching

/-!
# Armed until a skip returns

Searches nest to any depth: a player that changes the document while it skips has every activation
search, the skipping one included, and each of these may fail or have the player skip again. What an
activation does is still a matter of its own mark. `Fits` says what stands directly before and after
each deed: a search of an armed activation asks for its own condition and for nothing else, nodes
that it finds make the player skip, and once a skip of its own has returned it neither asks nor has
the player skip.

`Becomes` is what a page can come to with whatever document and player. They are functions on pages
and so on all that has happened, and while they are called they may do to the page whatever can be
done to it, searches and calls of the command included, to any depth. A moment in the middle of a
call is the end of a run, too: of one in which all that is under way fails at once.
-/

namespace Snippets

/-! ## Accounts -/

/-- A deed that begins a search. -/
inductive Deed.Begins (i : Nat) : Deed → Prop
  | observed : Begins i (.observed i)
  | notified : Begins i (.notified i)

/-- What stands before and after a deed. -/
def Deed.Fits (conditions : List Value) (before after : List Deed) : Deed → Prop
  -- a search asks for the condition, unless a skip has returned
  | .observed i | .notified i =>
    .skipped i ∈ before ∨
      ∃ condition, conditions[i]? = some condition ∧
        after.head? = some (.ask i (.xpath condition.display))
  -- only searches ask, each for its own condition, and none after a skip has returned
  | .ask i q =>
    .skipped i ∉ before ∧ (∃ d, before.getLast? = some d ∧ d.Begins i) ∧
      ∃ condition, conditions[i]? = some condition ∧ q = .xpath condition.display
  -- only questions find nodes, and nodes have the player skip
  | .found i count =>
    (∃ q, before.getLast? = some (.ask i q)) ∧ (count = 0 ∨ after.head? = some (.skip i))
  -- only nodes have the player skip, and not after a skip has returned
  | .skip i => .skipped i ∉ before ∧ ∃ n, before.getLast? = some (.found i (n + 1))
  -- what returns was begun
  | .skipped i => .skip i ∈ before
  | .observe i => i < conditions.length

/-- Every one of some deeds fits, after others that came before. -/
def Deed.Follows (conditions : List Value) : List Deed → List Deed → Prop
  | _, [] => True
  | before, d :: after =>
    d.Fits conditions before after ∧ Follows conditions (before ++ [d]) after

section Accounts

variable {l l' : List Value} {before after deeds new : List Deed} {d : Deed} {i : Nat}

theorem getElem?_of_prefix {x : Value} (hc : l <+: l') (h : l[i]? = some x) : l'[i]? = some x := by
  obtain ⟨_, rfl⟩ := hc
  rw [List.getElem?_append_left (List.getElem?_eq_some_iff.1 h).1]
  exact h

theorem head?_append_of_eq_some {x : Deed} (h : after.head? = some x) :
    (after ++ new).head? = some x := by
  rw [List.head?_append, h]
  rfl

/-- What fits goes on fitting. -/
theorem Deed.Fits.mono (hc : l <+: l') (h : d.Fits l before after) :
    d.Fits l' before (after ++ new) := by
  match d, h with
  | .observed i, h | .notified i, h =>
    refine h.imp_right fun ⟨x, hx, hask⟩ => ⟨x, getElem?_of_prefix hc hx, ?_⟩
    exact head?_append_of_eq_some hask
  | .ask i q, ⟨hskipped, hbegins, x, hx, hq⟩ =>
    exact ⟨hskipped, hbegins, x, getElem?_of_prefix hc hx, hq⟩
  | .found i count, h => exact h.imp_right fun h => h.imp_right head?_append_of_eq_some
  | .skip i, h => exact h
  | .skipped i, h => exact h
  | .observe i, h => exact Nat.lt_of_lt_of_le h hc.length_le

theorem Deed.Follows.append (hc : l <+: l') (h : Deed.Follows l before deeds)
    (hnew : Deed.Follows l' (before ++ deeds) new) : Deed.Follows l' before (deeds ++ new) := by
  induction deeds generalizing before with
  | nil => rwa [List.append_nil] at hnew
  | cons d deeds ih =>
    refine ⟨h.1.mono hc, ih h.2 ?_⟩
    rwa [List.append_assoc, List.singleton_append]

theorem Deed.Follows.fits {earlier : List Deed}
    (h : Deed.Follows l earlier (before ++ d :: after)) : d.Fits l (earlier ++ before) after := by
  induction before generalizing earlier with
  | nil =>
    rw [List.append_nil]
    exact h.1
  | cons first before ih =>
    have hfits := ih h.2
    rwa [List.append_assoc, List.singleton_append] at hfits

/-- A search has asked and got so many nodes. -/
theorem Deed.Follows.asked (hd : d.Begins i) {condition : Value} (hi : l[i]? = some condition)
    (hskipped : .skipped i ∉ before)
    (hnew : Deed.Follows l (before ++ [d] ++ [.ask i (.xpath condition.display)]) new) :
    Deed.Follows l before (d :: .ask i (.xpath condition.display) :: new) := by
  have hbegins : d.Fits l before (.ask i (.xpath condition.display) :: new) := by
    cases hd <;> exact .inr ⟨condition, hi, rfl⟩
  have hfresh : .skipped i ∉ before ++ [d] := by
    cases hd <;> simpa using hskipped
  exact ⟨hbegins, ⟨hfresh, ⟨d, by simp, hd⟩, condition, hi, rfl⟩, hnew⟩

end Accounts

namespace Page

/-- The conditions of the activations. -/
def conditions (p : Page) : List Value := p.activations.map Activation.condition

/-! ## Any surroundings -/

/-- What a page can come to. -/
inductive Becomes : Page → Page → Prop
  /-- anything happens to the document, the player, the observers and the notes -/
  | outside {p p' : Page} (activations : p'.activations = p.activations)
      (deeds : p'.deeds = p.deeds) : Becomes p p'
  | trans {p p' p'' : Page} (first : Becomes p p') (second : Becomes p' p'') : Becomes p p''
  /-- an activation is told of a change -/
  | notified {skip : Page → Outcome} (hskip : ∀ p, Becomes p (skip p).1) (p : Page) (i : Nat) :
      Becomes p (p.notify skip i).1
  /-- the command is carried out -/
  | called {observe : Nat → Page → Outcome} {skip : Page → Outcome}
      (hobserve : ∀ i p, Becomes p (observe i p).1) (hskip : ∀ p, Becomes p (skip p).1) (p : Page)
      (args : List Value) : Becomes p (p.carryOut observe skip args).1

/-- What is true of a page at any time. -/
structure Sound (p : Page) : Prop where
  marked : ∀ i, .skipped i ∈ p.deeds ↔ i < p.activations.length ∧ p.isSkipped i
  fits : Deed.Follows p.conditions [] p.deeds

/-- Deeds, activations and what is true of a page at any time are kept. -/
structure Grows (p p' : Page) : Prop where
  deeds : p.deeds <+: p'.deeds
  conditions : p.conditions <+: p'.conditions
  sound : Sound p → Sound p'

section Marks

variable {p p' : Page} {i j : Nat}

theorem isSkipped_activate (condition : Value) (hi : i < p.activations.length) :
    (p.activate condition).isSkipped i = p.isSkipped i := by
  unfold isSkipped activate
  rw [List.getElem?_append_left hi]

theorem isSkipped_congr (h : p'.activations = p.activations) (i : Nat) :
    p'.isSkipped i = p.isSkipped i := by
  unfold isSkipped
  rw [h]

theorem conditions_markSkipped : (p.markSkipped i).conditions = p.conditions := by
  refine List.ext_getElem? fun j => ?_
  unfold conditions markSkipped
  rw [List.getElem?_map, List.getElem?_map, List.getElem?_modify]
  by_cases h : i = j <;> cases p.activations[j]? <;> simp [h]

theorem conditions_activate (condition : Value) :
    (p.activate condition).conditions = p.conditions ++ [condition] := by
  unfold conditions activate
  rw [List.map_append]
  rfl

theorem getElem?_conditions {condition : Value}
    (armed : p.activations[i]? = some ⟨condition, false⟩) : p.conditions[i]? = some condition := by
  rw [conditions, List.getElem?_map, armed]
  rfl

theorem length_conditions : p.conditions.length = p.activations.length := List.length_map _

end Marks

section Sound

variable {p p' : Page} {i : Nat} {condition : Value}

/-- No skip returns, and what is done fits. -/
theorem Sound.enter (h : Sound p) (ha : p'.activations = p.activations) {new : List Deed}
    (hd : p'.deeds = p.deeds ++ new) (hnew : ∀ i, .skipped i ∉ new)
    (hfits : Deed.Follows p.conditions p.deeds new) : Sound p' := by
  have hconditions : p'.conditions = p.conditions := congrArg (List.map Activation.condition) ha
  refine ⟨fun i => ?_, ?_⟩
  · rw [hd, List.mem_append, or_iff_left (hnew i), ha, isSkipped_congr ha]
    exact h.marked i
  · rw [hd, hconditions]
    exact h.fits.append (List.prefix_refl _) hfits

theorem Sound.opens (h : Sound p) (condition : Value) : Sound (p.opens condition) := by
  have hlength : (p.opens condition).activations.length = p.activations.length + 1 :=
    List.length_append
  have hsame : ∀ i < p.activations.length, (p.opens condition).isSkipped i = p.isSkipped i :=
    fun i hi => isSkipped_activate condition hi
  refine ⟨fun i => ?_, ?_⟩
  · show .skipped i ∈ p.deeds ++ [.observe _] ↔ _
    rw [List.mem_append, or_iff_left (by simp), hlength]
    refine (h.marked i).trans ⟨fun ⟨hi, hskipped⟩ => ?_, fun ⟨hi, hskipped⟩ => ?_⟩
    · exact ⟨Nat.lt_succ_of_lt hi, hsame i hi ▸ hskipped⟩
    · rcases Nat.lt_succ_iff_lt_or_eq.1 hi with hi | rfl
      · exact ⟨hi, hsame i hi ▸ hskipped⟩
      · have hlast : (p.opens condition).activations[p.activations.length]? =
            some ⟨condition, false⟩ := List.getElem?_concat_length
        rw [isSkipped_of_getElem? hlast] at hskipped
        cases hskipped
  · have hconditions : (p.opens condition).conditions = p.conditions ++ [condition] :=
      conditions_activate condition
    rw [hconditions]
    refine h.fits.append (List.prefix_append _ _) ⟨?_, trivial⟩
    show p.activations.length < _
    rw [List.length_append, length_conditions]
    exact Nat.lt_succ_self _

/-- The activation of a skip that returns is marked. -/
theorem Sound.skipped (h : Sound p) (hi : i < p.activations.length) (hskip : .skip i ∈ p.deeds) :
    Sound ((p.record (.skipped i)).markSkipped i) := by
  have hlength : ((p.record (.skipped i)).markSkipped i).activations.length =
      p.activations.length := List.length_modify _ _ _
  refine ⟨fun j => ?_, ?_⟩
  · rw [hlength, isSkipped_markSkipped, isSkipped_record]
    show .skipped j ∈ p.deeds ++ [.skipped i] ↔ _
    rw [List.mem_append, h.marked j, List.mem_singleton]
    -- the mark and the account change together, and for this activation only
    by_cases hij : i = j
    · subst hij
      simpa using hi
    · simp [hij, Ne.symm hij]
  · rw [conditions_markSkipped]
    exact h.fits.append (List.prefix_refl _) ⟨hskip, trivial⟩

theorem Sound.not_mem (h : Sound p) (armed : p.activations[i]? = some ⟨condition, false⟩) :
    .skipped i ∉ p.deeds := by
  intro hi
  have hskipped := ((h.marked i).1 hi).2
  rw [isSkipped_of_getElem? armed] at hskipped
  cases hskipped

end Sound

section Grows

variable {p p' p'' : Page} {i : Nat} {d : Deed} {condition : Value} {skip : Page → Outcome}

theorem Grows.length_le (h : Grows p p') : p.activations.length ≤ p'.activations.length := by
  rw [← length_conditions, ← length_conditions]
  exact h.conditions.length_le

theorem Grows.trans (h : Grows p p') (h' : Grows p' p'') : Grows p p'' :=
  ⟨h.deeds.trans h'.deeds, h.conditions.trans h'.conditions, fun hp => h'.sound (h.sound hp)⟩

theorem grows_of_eq (ha : p'.activations = p.activations) (new : List Deed)
    (hd : p'.deeds = p.deeds ++ new) (hnew : ∀ i, .skipped i ∉ new)
    (hfits : Sound p → Deed.Follows p.conditions p.deeds new) : Grows p p' := by
  have hconditions : p'.conditions = p.conditions := congrArg (List.map Activation.condition) ha
  exact ⟨hd ▸ List.prefix_append _ _, hconditions ▸ List.prefix_refl _,
    fun h => h.enter ha hd hnew (hfits h)⟩

theorem grows_opens (condition : Value) : Grows p (p.opens condition) := by
  refine ⟨List.prefix_append _ _, ?_, fun h => h.opens condition⟩
  have hconditions : (p.opens condition).conditions = p.conditions ++ [condition] :=
    conditions_activate condition
  exact hconditions ▸ List.prefix_append _ _

/-- A search has come to where the player is to skip. -/
theorem grows_attempts (hd : d.Begins i) (armed : p.activations[i]? = some ⟨condition, false⟩)
    (n : Nat) : Grows p ((p.record d).attempts i condition (n + 1)) := by
  refine grows_of_eq rfl [d, .ask i (.xpath condition.display), .found i (n + 1), .skip i]
    (by simp [attempts, asks, record, note]) (by cases hd <;> simp) fun h => ?_
  have hskipped := h.not_mem armed
  refine .asked hd (getElem?_conditions armed) hskipped
    ⟨⟨⟨.xpath condition.display, by simp⟩, .inr rfl⟩, ?_, trivial⟩
  exact ⟨by cases hd <;> simpa using hskipped, n, by simp⟩

theorem grows_searched (hskip : ∀ p, Grows p (skip p).1) (hd : d.Begins i)
    (hi : i < p.activations.length) {o : Outcome} (h : Searched skip i (p.record d) o) :
    Grows p o.1 := by
  cases h with
  | ended marked =>
    refine grows_of_eq rfl [d] rfl (by cases hd <;> simp) fun h => ⟨?_, trivial⟩
    have hskipped := (h.marked i).2 ⟨hi, marked⟩
    cases hd <;> exact .inl hskipped
  | @refused condition _ armed answer =>
    refine grows_of_eq rfl [d, .ask i (.xpath condition.display)]
      (by simp [asks, record]) (by cases hd <;> simp) fun h => ?_
    exact .asked hd (getElem?_conditions armed) (h.not_mem armed) trivial
  | @missed condition armed answer =>
    refine grows_of_eq rfl [d, .ask i (.xpath condition.display), .found i 0]
      (by simp [asks, record]) (by cases hd <;> simp) fun h => ?_
    exact .asked hd (getElem?_conditions armed) (h.not_mem armed)
      ⟨⟨⟨.xpath condition.display, by simp⟩, .inl rfl⟩, trivial⟩
  | @failed condition node rest p' fault armed answer attempt =>
    have hattempt := hskip ((p.record d).attempts i condition (rest.length + 1))
    rw [attempt] at hattempt
    exact (grows_attempts (p := p) hd armed _).trans hattempt
  | @skipped condition node rest p' armed answer attempt =>
    have hattempt := hskip ((p.record d).attempts i condition (rest.length + 1))
    rw [attempt] at hattempt
    have hp' := (grows_attempts (p := p) hd armed _).trans hattempt
    have hmem : .skip i ∈ p'.deeds := hattempt.deeds.subset (by simp [attempts, record])
    refine ⟨hp'.deeds.trans (List.prefix_append _ _), ?_, fun h => ?_⟩
    · rw [conditions_markSkipped]
      exact hp'.conditions
    · exact (hp'.sound h).skipped (Nat.lt_of_lt_of_le hi hp'.length_le) hmem

theorem grows_notify (hskip : ∀ p, Grows p (skip p).1) (p : Page) (i : Nat) :
    Grows p (p.notify skip i).1 := by
  by_cases hi : i < p.activations.length
  · exact grows_searched hskip .notified hi (searched_notify skip hi)
  · rw [notify, if_neg hi]
    exact grows_of_eq rfl [] (by simp) (by simp) fun _ => trivial

theorem grows_carryOut {observe : Nat → Page → Outcome} (hobserve : ∀ i p, Grows p (observe i p).1)
    (hskip : ∀ p, Grows p (skip p).1) (p : Page) (args : List Value) :
    Grows p (p.carryOut observe skip args).1 := by
  have hcalled := called_carryOut observe skip p args
  generalize p.carryOut observe skip args = o at hcalled ⊢
  cases hcalled with
  | incomplete => exact grows_of_eq rfl [] (by simp) (by simp) fun _ => trivial
  | @unobserved condition _ _ _ answer =>
    have hanswer := hobserve p.activations.length (p.opens condition)
    rw [answer] at hanswer
    exact (grows_opens _).trans hanswer
  | @searched condition rest p' p'' fault answer search =>
    have hanswer := hobserve p.activations.length (p.opens condition)
    rw [answer] at hanswer
    have hlt : p.activations.length < p'.activations.length := by
      refine Nat.lt_of_lt_of_le ?_ hanswer.length_le
      show _ < (p.activations ++ [_]).length
      simp
    exact ((grows_opens _).trans hanswer).trans (grows_searched hskip .observed hlt search)

theorem Becomes.grows (h : Becomes p p') : Grows p p' := by
  induction h with
  | outside activations deeds =>
    exact grows_of_eq activations [] (by simpa using deeds) (by simp) fun _ => trivial
  | trans _ _ ih ih' => exact ih.trans ih'
  | notified _ p i ih => exact grows_notify ih p i
  | called _ _ p args ihobserve ihskip => exact grows_carryOut ihobserve ihskip p args

end Grows

/-! ## One activation among others -/

/-- From `p` to `p'` a mark of `i` stays, and if `i` was not told of a change its mark is the
same. -/
def Apart (i : Nat) (p p' : Page) : Prop :=
  ∃ new, p'.deeds = p.deeds ++ new ∧ (p.isSkipped i → p'.isSkipped i) ∧
    (.notified i ∉ new → p'.isSkipped i = p.isSkipped i)

section Apart

variable {p p' p'' : Page} {i j : Nat} {d : Deed} {skip : Page → Outcome}

theorem apart_of_eq (hsame : p'.isSkipped i = p.isSkipped i) (new : List Deed)
    (hd : p'.deeds = p.deeds ++ new) : Apart i p p' :=
  ⟨new, hd, fun h => hsame.trans h, fun _ => hsame⟩

theorem Apart.trans (h : Apart i p p') (h' : Apart i p' p'') : Apart i p p'' := by
  obtain ⟨new, hd, hstays, hsame⟩ := h
  obtain ⟨new', hd', hstays', hsame'⟩ := h'
  refine ⟨new ++ new', by rw [hd', hd, List.append_assoc], fun h => hstays' (hstays h), ?_⟩
  intro hnew
  rw [List.mem_append, not_or] at hnew
  exact (hsame' hnew.2).trans (hsame hnew.1)

/-- Only the search of the activation itself marks it. -/
theorem apart_searched (hskip : ∀ p, i < p.activations.length → Apart i p (skip p).1)
    (hi : i < p.activations.length) (hown : j = i → d = .notified i) {o : Outcome}
    (h : Searched skip j (p.record d) o) : Apart i p o.1 := by
  cases h with
  | ended marked => exact apart_of_eq rfl [d] rfl
  | @refused condition _ armed answer =>
    exact apart_of_eq rfl [d, .ask j (.xpath condition.display)] (by simp [asks, record])
  | @missed condition armed answer =>
    exact apart_of_eq rfl [d, .ask j (.xpath condition.display), .found j 0]
      (by simp [asks, record])
  | @failed condition node rest p' fault armed answer attempt =>
    have hattempt := hskip ((p.record d).attempts j condition (rest.length + 1)) hi
    rw [attempt] at hattempt
    refine Apart.trans ?_ hattempt
    exact apart_of_eq rfl [d, .ask j (.xpath condition.display), .found j (rest.length + 1),
      .skip j] (by simp [attempts, asks, record, note])
  | @skipped condition node rest p' armed answer attempt =>
    obtain ⟨new, hdeeds, hstays, hsame⟩ :=
      hskip ((p.record d).attempts j condition (rest.length + 1)) hi
    rw [attempt] at hdeeds hstays hsame
    dsimp only at hdeeds
    refine ⟨d :: .ask j (.xpath condition.display) :: .found j (rest.length + 1) :: .skip j ::
      (new ++ [.skipped j]), ?_, fun h => ?_, fun hnew => ?_⟩
    · simp [markSkipped, record, hdeeds, attempts, asks, note]
    · rw [isSkipped_markSkipped, isSkipped_record, hstays h, Bool.or_true]
    · have hne : j ≠ i := fun hj => hnew (by simp [hown hj])
      rw [isSkipped_markSkipped, isSkipped_record, decide_eq_false hne, Bool.false_or]
      exact hsame fun hmem => hnew (by simp [hmem])

theorem Becomes.apart (h : Becomes p p') (hi : i < p.activations.length) : Apart i p p' := by
  induction h with
  | outside activations deeds => exact apart_of_eq (isSkipped_congr activations i) [] (by simpa)
  | trans first _ ih ih' => exact (ih hi).trans (ih' (Nat.lt_of_lt_of_le hi first.grows.length_le))
  | @notified skip _ p j ih =>
    by_cases hj : j < p.activations.length
    · exact apart_searched ih hi (fun h => h ▸ rfl) (searched_notify skip hj)
    · rw [notify, if_neg hj]
      exact apart_of_eq rfl [] (by simp)
  | @called observe skip hobserve _ p args ihobserve ihskip =>
    have hcalled := called_carryOut observe skip p args
    generalize p.carryOut observe skip args = o at hcalled ⊢
    have hopens : ∀ condition, Apart i p (p.opens condition) :=
      fun condition => apart_of_eq (isSkipped_activate condition hi) [_] rfl
    have hlt : ∀ condition, i < (p.opens condition).activations.length :=
      fun condition => Nat.lt_of_lt_of_le hi (grows_opens condition).length_le
    cases hcalled with
    | incomplete => exact apart_of_eq rfl [] (by simp)
    | @unobserved condition _ _ _ answer =>
      have hanswer := ihobserve p.activations.length (p.opens condition) (hlt condition)
      rw [answer] at hanswer
      exact (hopens condition).trans hanswer
    | @searched condition rest p' p'' fault answer search =>
      have hanswer := ihobserve p.activations.length (p.opens condition) (hlt condition)
      have hgrows := (hobserve p.activations.length (p.opens condition)).grows
      rw [answer] at hanswer hgrows
      refine ((hopens condition).trans hanswer).trans (apart_searched ihskip ?_ ?_ search)
      · exact Nat.lt_of_lt_of_le (hlt condition) hgrows.length_le
      -- the activation that is made is none of those that there were
      · exact fun h => absurd h (Nat.ne_of_gt hi)

end Apart

/-! ## Pages among them -/

section Pages

variable {p : Page} {skip mutate : Page → Outcome}

theorem becomes_skipPlaying (hmutate : ∀ p, Becomes p (mutate p).1) (p : Page) :
    Becomes p (skipPlaying mutate p).1 := by
  unfold skipPlaying
  dsimp only
  split
  · exact .outside rfl rfl
  · split
    · exact .outside rfl rfl
    · refine .trans ?_ (hmutate _)
      exact .outside rfl rfl

theorem becomes_notifyAll (hskip : ∀ p, Becomes p (skip p).1) (observers : List Nat) (p : Page) :
    Becomes p (notifyAll skip observers p).1 := by
  induction observers generalizing p with
  | nil => exact .outside rfl rfl
  | cons i rest ih =>
    have hnotify := Becomes.notified hskip p i
    unfold notifyAll
    generalize p.notify skip i = o at hnotify ⊢
    obtain ⟨p', _ | fault⟩ := o
    · exact hnotify.trans (ih p')
    · exact hnotify

theorem becomes_mutateWithin (depth : Nat) (p : Page) : Becomes p (mutateWithin depth p).1 := by
  induction depth generalizing p with
  | zero => exact .outside rfl rfl
  | succ depth ih => exact becomes_notifyAll (becomes_skipPlaying ih) p.observers p

theorem becomes_watch (i : Nat) (p : Page) : Becomes p (p.watch i).1 := by
  unfold watch
  split <;> exact .outside rfl rfl

theorem becomes_act (a : Act) (p : Page) : Becomes p (p.act a) := by
  cases a with
  | call args =>
    exact .called becomes_watch (becomes_skipPlaying fun p => becomes_mutateWithin _ p) p args
  | mutate => exact becomes_mutateWithin _ p
  | setNodes key nodes => exact .outside rfl rfl

theorem becomes_run (acts : List Act) (p : Page) : Becomes p (p.run acts) := by
  induction acts generalizing p with
  | nil => exact .outside rfl rfl
  | cons a acts ih => exact (becomes_act a p).trans (ih (p.act a))

end Pages

/-- With whatever document and player: the search of an activation that is told of a change, and
the first one of an activation that the command makes, does nothing if the activation is marked;
else it asks the document for its own condition and nothing else, and if a node is found it has the
player skip, once. An activation is marked exactly if a skip of its own has returned, and stays so;
from then on it neither asks nor has the player skip. Its mark does not change while it is told of
no change. All that happens on a page is of this kind, and there a change is told to every
observer. -/
theorem armed_until_skipped :
    (∀ (skip : Page → Outcome) (p : Page) (i : Nat), i < p.activations.length →
      Searched skip i (p.record (.notified i)) (p.notify skip i)) ∧
    (∀ (observe : Nat → Page → Outcome) (skip : Page → Outcome) (p : Page) (args : List Value),
      Called observe skip p args (p.carryOut observe skip args)) ∧
    (∀ (document : Document) (player : Player) (p : Page), Becomes { document, player } p →
      (∀ i a, p.activations[i]? = some a → (a.skipped ↔ .skipped i ∈ p.deeds)) ∧
      ∀ before d after, p.deeds = before ++ d :: after → d.Fits p.conditions before after) ∧
    (∀ p p' : Page, Becomes p p' → ∃ new, p'.deeds = p.deeds ++ new ∧
      ∀ i < p.activations.length, (p.isSkipped i → p'.isSkipped i) ∧
        (.notified i ∉ new → p'.isSkipped i = p.isSkipped i)) ∧
    (∀ (p : Page) (args : List Value), Called watch (skipPlaying mutate) p args (p.call args)) ∧
    (∀ p : Page, Told (skipPlaying mutate) p.observers p p.mutate) ∧
    ∀ (document : Document) (player : Player) (acts : List Act),
      Becomes { document, player } (({ document, player } : Page).run acts) := by
  refine ⟨fun skip p i hi => searched_notify skip hi, called_carryOut, ?_, ?_,
    fun p args => called_carryOut watch (skipPlaying mutate) p args, ?_,
    fun document player acts => becomes_run acts _⟩
  · intro document player p h
    have hsound : Sound p := h.grows.sound ⟨by simp, trivial⟩
    refine ⟨fun i a ha => ?_, fun before d after hdeeds => ?_⟩
    · rw [hsound.marked i, isSkipped_of_getElem? ha]
      exact (and_iff_right (List.getElem?_eq_some_iff.1 ha).1).symm
    · exact Deed.Follows.fits (hdeeds ▸ hsound.fits)
  · intro p p' h
    obtain ⟨new, hd⟩ := h.grows.deeds
    refine ⟨new, hd.symm, fun i hi => ?_⟩
    obtain ⟨new', hd', hstays, hsame⟩ := h.apart hi
    obtain rfl := List.append_cancel_left (hd.trans hd')
    exact ⟨hstays, hsame⟩
  · intro p
    rw [mutate_eq]
    exact told_notifyAll (skipPlaying mutate) p.observers p

/-- A document in which one of two conditions has a node, and a player that fails to skip once and
changes the document as it skips then. -/
def samplePage : Page :=
  { document := { xpath := [(text "//a", [.text (text "n")])] }
    player := { faults := [some ⟨[], [], .contained⟩], changes := 1 } }

/-- The first skip for the second activation fails, and the change has it try again. -/
def sampleActs : List Act := [.call [.text (text "//b")], .call [.text (text "//a")], .mutate]

/-- The first activation is still armed; the second is marked, as a skip of its own has returned,
and a document that changes unnoticed leaves both as they are. -/
theorem armed_until_skipped_sampleActs :
    let p := samplePage.run sampleActs
    p.activations.map Activation.skipped = [false, true] ∧
      .skipped 0 ∉ p.deeds ∧ .skipped 1 ∈ p.deeds ∧
      ({ p with document := {} } : Page).isSkipped 1 = p.isSkipped 1 := by
  obtain ⟨-, -, hmarks, hapart, -, -, hpages⟩ := armed_until_skipped
  obtain ⟨hmarked, -⟩ := hmarks _ _ _ (hpages samplePage.document samplePage.player sampleActs)
  refine ⟨by decide +kernel, ?_, ?_, ?_⟩
  · have h := hmarked 0 ⟨.text (text "//b"), false⟩ (by rfl)
    exact fun hmem => Bool.false_ne_true (h.2 hmem)
  · exact (hmarked 1 ⟨.text (text "//a"), true⟩ (by rfl)).1 rfl
  · obtain ⟨new, hnew, hsame⟩ := hapart (samplePage.run sampleActs)
      { samplePage.run sampleActs with document := {} } (.outside rfl rfl)
    obtain rfl : new = [] := List.append_right_eq_self.1 hnew.symm
    exact (hsame 1 (by decide +kernel)).2 List.not_mem_nil

end Page

end Snippets
