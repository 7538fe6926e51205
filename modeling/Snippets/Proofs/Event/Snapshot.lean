import Snippets.Proofs.Event.Rounds

/-!
# Emissions with any listeners

What a listener does when it is called is a tree of steps (`Conduct`): it adds and removes
listeners, asks who is registered, emits the event again, goes on as the answers suggest, and
returns or fails in the end. `emission` emits an event to listeners of any conduct and tells all
that is done, in order.

What is done takes one event to another (`Leads`): the registrations are the old ones with what was
added and removed, and every emission, those inside others included, has one round over the
registrations of the moment at which it began (`emission_snapshot`). The listeners of `Event`, which
are data, are a case of this (`matches_emit`).
-/

namespace Snippets.Event

/-! ## Listeners -/

/-- What a listener does in one call. An emission that it starts comes with the conduct of those who
are called in it, which may hang on all that has happened by then. -/
inductive Conduct where
  | ends (fault : Option Fault)
  | add (name : Text) (next : Conduct)
  | remove (name : Text) (next : Conduct)
  | ask (name : Text) (next : Bool → Conduct)
  | emit (others : Event → Text → Conduct) (next : Option Fault → Conduct)

/-- What is done, where `n` is the number of the emission for which it is done. -/
inductive Deed where
  | began (n : Nat)
  | called (n : Nat) (name : Text)
  | returned (n : Nat) (fault : Option Fault)
  | ended (n : Nat) (fault : Option Fault)
  | added (name : Text)
  | removed (name : Text)
  deriving DecidableEq, Repr

/-- What becomes of an event, what is done on the way, and how it fails. -/
structure Passage where
  event : Event
  deeds : List Deed := []
  fault : Option Fault := none

/-- The passage with something done before it. -/
def Passage.behind (deeds : List Deed) (p : Passage) : Passage :=
  { p with deeds := deeds ++ p.deeds }

/-- One round of the emission `n`: calls listeners in order, up to the first that fails. -/
def round (call : Event → Text → Passage) (n : Nat) : List Text → Event → Passage
  | [], e => { event := e, deeds := [.ended n none] }
  | name :: rest, e =>
    match call { e with calls := e.calls ++ [name] } name with
    | ⟨e, deeds, none⟩ =>
      (round call n rest e).behind (.called n name :: (deeds ++ [.returned n none]))
    | ⟨e, deeds, some f⟩ =>
      { event := e, fault := some f
        deeds := .called n name :: (deeds ++ [.returned n (some f), .ended n (some f)]) }

/-- Emits to everybody who is registered by now. -/
def emitTo (call : Event → Text → Passage) (e : Event) : Passage :=
  (round call e.emitted e.registered { e with emitted := e.emitted + 1 }).behind [.began e.emitted]

/-- Carries out what a listener does. -/
def Conduct.perform : Conduct → Event → Passage
  | .ends fault, e => { event := e, fault }
  | .add name next, e => (next.perform (e.add name)).behind [.added name]
  | .remove name next, e => (next.perform (e.remove name)).behind [.removed name]
  | .ask name next, e => (next (e.has name)).perform e
  | .emit others next, e =>
    let p := emitTo (fun e name => (others e name).perform e) e
    ((next p.fault).perform p.event).behind p.deeds

/-- Emits the event to listeners of any conduct. -/
def emission (e : Event) (listeners : Event → Text → Conduct) : Passage :=
  emitTo (fun e name => (listeners e name).perform e) e

/-! ## What is done -/

namespace Deed

/-- The emission for which it is done. -/
def number? : Deed → Option Nat
  | began n | called n _ | returned n _ | ended n _ => some n
  | added _ | removed _ => none

/-- The registrations after it. -/
def apply (registered : List Text) : Deed → List Text
  | added name => registered ++ [name]
  | removed name => registered.erase name
  | _ => registered

end Deed

/-- The registrations after some deeds: whoever is added is the last, and of whoever is removed the
first registration goes, if there is one. -/
def replay (registered : List Text) (deeds : List Deed) : List Text :=
  deeds.foldl Deed.apply registered

@[simp] theorem replay_nil (registered : List Text) : replay registered [] = registered := rfl

@[simp] theorem replay_append (registered : List Text) (deeds deeds' : List Deed) :
    replay registered (deeds ++ deeds') = replay (replay registered deeds) deeds' :=
  List.foldl_append

/-- What is done for the emission `n`. -/
def doneFor (n : Nat) (deeds : List Deed) : List Deed :=
  deeds.filter fun d => d.number? = some n

@[simp] theorem doneFor_append (n : Nat) (deeds deeds' : List Deed) :
    doneFor n (deeds ++ deeds') = doneFor n deeds ++ doneFor n deeds' :=
  List.filter_append ..

theorem doneFor_cons_self {n : Nat} {d : Deed} (h : d.number? = some n) (deeds : List Deed) :
    doneFor n (d :: deeds) = d :: doneFor n deeds :=
  List.filter_cons_of_pos (by simp [h])

theorem doneFor_eq_nil {n : Nat} {deeds : List Deed} (h : ∀ d ∈ deeds, d.number? ≠ some n) :
    doneFor n deeds = [] := by
  rw [doneFor, List.filter_eq_nil_iff]
  exact fun d hd => by simp [h d hd]

/-- What an emission does itself: it calls the listeners in order, each of whom returns before the
next is called, and ends when the last one has returned or one has failed. -/
inductive Round (n : Nat) : List Text → List Deed → Prop where
  | done : Round n [] [.ended n none]
  | goes {names : List Text} {deeds : List Deed} (name : Text) (h : Round n names deeds) :
      Round n (name :: names) (.called n name :: .returned n none :: deeds)
  | fails (name : Text) (f : Fault) (names : List Text) :
      Round n (name :: names) [.called n name, .returned n (some f), .ended n (some f)]

/-! ## From one event to another -/

/-- `deeds` lead from `e` to `e'`, inside the emission `own` if it is given, which began before. -/
structure Leads (own : Option Nat) (e : Event) (deeds : List Deed) (e' : Event) : Prop where
  registered : e'.registered = replay e.registered deeds
  emitted : e.emitted ≤ e'.emitted
  numbers : ∀ d ∈ deeds, ∀ n, d.number? = some n →
    own = some n ∨ e.emitted ≤ n ∧ n < e'.emitted
  begins : ∀ n, .began n ∈ deeds → e.emitted ≤ n ∧ n < e'.emitted
  rounds : ∀ before n after, deeds = before ++ .began n :: after →
    Round n (replay e.registered before) (doneFor n after)

section Leads

variable {e e' e'' : Event} {own : Option Nat} {deeds deeds' : List Deed} {n : Nat}

theorem Leads.refl (own : Option Nat) (e : Event) : Leads own e [] e :=
  ⟨rfl, Nat.le_refl _, nofun, nofun, fun before n after h => by simp at h⟩

theorem Leads.mono (h : Leads none e deeds e') (own : Option Nat) : Leads own e deeds e' :=
  ⟨h.registered, h.emitted, fun d hd n hn => .inr ((h.numbers d hd n hn).resolve_left nofun),
    h.begins, h.rounds⟩

/-- One deed that begins no emission. -/
theorem leads_single {d : Deed} (hr : e'.registered = d.apply e.registered)
    (he : e'.emitted = e.emitted) (hd : ∀ n, d.number? = some n → own = some n)
    (hb : ∀ n, d ≠ .began n) : Leads own e [d] e' := by
  refine ⟨hr, Nat.le_of_eq he.symm, ?_, ?_, ?_⟩
  · intro d' hd' n hn
    rw [List.mem_singleton.1 hd'] at hn
    exact .inl (hd n hn)
  · intro n hn
    exact absurd (List.mem_singleton.1 hn).symm (hb n)
  · intro before n after h
    have hmem : Deed.began n ∈ [d] := by rw [h]; simp
    exact absurd (List.mem_singleton.1 hmem).symm (hb n)

/-- What is done later is not done for an emission that began before, unless it is `own`. -/
theorem Leads.doneFor_eq_nil (h : Leads own e deeds e') (hown : own ≠ some n)
    (hn : n < e.emitted) : doneFor n deeds = [] := by
  refine Event.doneFor_eq_nil fun d hd hnumber => ?_
  obtain hsame | ⟨hle, -⟩ := h.numbers d hd n hnumber
  · exact hown hsame
  · omega

theorem Leads.trans (h : Leads own e deeds e') (h' : Leads own e' deeds' e'')
    (hown : ∀ n, own = some n → n < e.emitted) : Leads own e (deeds ++ deeds') e'' := by
  have hle := h.emitted
  have hle' := h'.emitted
  refine ⟨?_, Nat.le_trans hle hle', ?_, ?_, ?_⟩
  · rw [h'.registered, h.registered, replay_append]
  · intro d hd n hn
    obtain hd | hd := List.mem_append.1 hd
    · exact (h.numbers d hd n hn).imp_right fun hb => ⟨hb.1, by omega⟩
    · exact (h'.numbers d hd n hn).imp_right fun hb => ⟨by omega, hb.2⟩
  · intro n hn
    obtain hn | hn := List.mem_append.1 hn
    · have := h.begins n hn
      omega
    · have := h'.begins n hn
      omega
  · intro before n after heq
    obtain ⟨middle, rfl, hrest⟩ | ⟨middle, hdeeds, hrest⟩ := List.append_eq_append_iff.1 heq
    · -- the emission begins in the second part
      have hround := h'.rounds middle n after hrest
      rwa [h.registered, ← replay_append] at hround
    · cases middle with
      | nil =>
        have hround := h'.rounds [] n after (by simpa using hrest.symm)
        rwa [h.registered, replay_nil, hdeeds, List.append_nil] at hround
      | cons d middle =>
        -- it begins in the first part, and nothing is done for it in the second
        rw [List.cons_append, List.cons.injEq] at hrest
        obtain ⟨rfl, rfl⟩ := hrest
        have hbegins := h.begins n (by rw [hdeeds]; simp)
        have hnone : doneFor n deeds' = [] := by
          refine h'.doneFor_eq_nil (fun hsame => ?_) hbegins.2
          have := hown n hsame
          omega
        rw [doneFor_append, hnone, List.append_nil]
        exact h.rounds before n middle hdeeds

end Leads

/-! ## Emissions -/

/-- A passage from `e` that is no part of a round. -/
def Passage.From (e : Event) (p : Passage) : Prop := Leads none e p.deeds p.event

section Emission

variable {e : Event} {call : Event → Text → Passage} {n : Nat}

/-- A round inside the emission `n`, which has begun. -/
theorem leads_round (hcall : ∀ e name, (call e name).From e) (names : List Text)
    (hn : n < e.emitted) :
    Leads (some n) e (round call n names e).deeds (round call n names e).event ∧
      Round n names (doneFor n (round call n names e).deeds) ∧
      (∃ deeds, (round call n names e).deeds =
        deeds ++ [.ended n (round call n names e).fault]) := by
  induction names generalizing e with
  | nil =>
    refine ⟨leads_single rfl rfl (fun m hm => hm) nofun, ?_, [], rfl⟩
    rw [round, doneFor_cons_self rfl]
    exact .done
  | cons name names ih =>
    have hown : ∀ m, some n = some m → m < e.emitted := by
      rintro m ⟨⟩
      exact hn
    have hlistener := hcall { e with calls := e.calls ++ [name] } name
    unfold round
    generalize call { e with calls := e.calls ++ [name] } name = p at hlistener ⊢
    obtain ⟨e₁, deeds, fault⟩ := p
    have hcalled : Leads (some n) e [.called n name] { e with calls := e.calls ++ [name] } :=
      leads_single rfl rfl (fun m hm => hm) nofun
    have hreturned : Leads (some n) e (.called n name :: deeds ++ [.returned n fault]) e₁ :=
      (hcalled.trans (hlistener.mono (some n)) hown).trans
        (leads_single rfl rfl (fun m hm => hm) nofun) hown
    have hnone : doneFor n deeds = [] := hlistener.doneFor_eq_nil nofun hn
    cases fault with
    | none =>
      obtain ⟨hleads, hround, before, hend⟩ := ih (Nat.lt_of_lt_of_le hn hreturned.emitted)
      dsimp only
      generalize round call n names e₁ = q at hleads hround hend ⊢
      refine ⟨hreturned.trans hleads hown, ?_,
        .called n name :: (deeds ++ [.returned n none]) ++ before, ?_⟩
      · rw [Passage.behind, doneFor_append, doneFor_cons_self rfl, doneFor_append, hnone,
          doneFor_cons_self rfl]
        exact .goes name hround
      · rw [Passage.behind, hend, List.append_assoc]
    | some f =>
      have hended : Leads (some n) e (.called n name :: deeds ++ [.returned n (some f)] ++
          [.ended n (some f)]) e₁ :=
        hreturned.trans (leads_single rfl rfl (fun m hm => hm) nofun) hown
      refine ⟨by simpa using hended, ?_, .called n name :: (deeds ++ [.returned n (some f)]),
        by simp⟩
      rw [doneFor_cons_self rfl, doneFor_append, hnone, doneFor_cons_self rfl,
        doneFor_cons_self rfl]
      exact .fails name f names

/-- An emission begins, has its round over those who are registered by then, and ends. -/
theorem from_emitTo (hcall : ∀ e name, (call e name).From e) (e : Event) :
    (emitTo call e).From e ∧ ∃ deeds, (emitTo call e).deeds =
      .began e.emitted :: (deeds ++ [.ended e.emitted (emitTo call e).fault]) := by
  obtain ⟨hleads, hround, deeds, hend⟩ := leads_round (n := e.emitted)
    (e := { e with emitted := e.emitted + 1 }) hcall e.registered (Nat.lt_succ_self _)
  unfold emitTo
  generalize round call e.emitted e.registered { e with emitted := e.emitted + 1 } = p
    at hleads hround hend ⊢
  have hemitted : e.emitted + 1 ≤ p.event.emitted := hleads.emitted
  refine ⟨⟨hleads.registered, Nat.le_of_succ_le hemitted, ?_, ?_, ?_⟩, deeds, ?_⟩
  · intro d hd n hn
    show _ ∨ e.emitted ≤ n ∧ n < p.event.emitted
    obtain rfl | hd := List.mem_cons.1 hd
    · cases hn
      omega
    · obtain hsame | hbounds := hleads.numbers d hd n hn
      · cases hsame
        omega
      · dsimp only at hbounds
        omega
  · intro n hn
    show e.emitted ≤ n ∧ n < p.event.emitted
    obtain hn | hn := List.mem_cons.1 hn
    · cases hn
      omega
    · have hbounds := hleads.begins n hn
      dsimp only at hbounds
      omega
  · intro before n after heq
    cases before with
    | nil =>
      obtain ⟨hbegan, hafter⟩ := List.cons.inj heq
      cases hbegan
      rw [replay_nil, ← hafter]
      exact hround
    | cons d before =>
      obtain ⟨rfl, hafter⟩ := List.cons.inj heq
      exact hleads.rounds before n after hafter
  · rw [Passage.behind, hend]
    rfl

/-- Whatever a listener does leads from the event it finds to the one it leaves. -/
theorem from_perform (c : Conduct) (e : Event) : (c.perform e).From e := by
  induction c generalizing e with
  | ends fault => exact .refl none e
  | add name next ih =>
    have hadd : Leads none e [.added name] (e.add name) := leads_single rfl rfl nofun nofun
    exact hadd.trans (ih (e.add name)) nofun
  | remove name next ih =>
    have hremove : Leads none e [.removed name] (e.remove name) :=
      leads_single rfl rfl nofun nofun
    exact hremove.trans (ih (e.remove name)) nofun
  | ask name next ih => exact ih (e.has name) e
  | emit others next ihOthers ihNext =>
    have hemit := (from_emitTo (fun e name => ihOthers e name e) e).1
    exact Leads.trans hemit (ihNext _ _) nofun

end Emission

/-! ## Listeners that are data -/

/-- What a listener that is data does in the end: it may emit to others, and fails with whoever of
them fails or by itself. -/
def lastOf (l : Listener) : Option (Event → Text → Conduct) → Conduct
  | none => .ends l.fault
  | some others => .emit others fun fault => .ends (fault <|> l.fault)

/-- The conduct of a listener that is data, with that of those whom it calls if it emits. -/
def conductOf (l : Listener) (nested : Option (Event → Text → Conduct)) : Conduct :=
  l.removes.foldr .remove (l.adds.foldr .add (lastOf l nested))

/-- A listener of `e` when it was called some times: each call has taken an emission from it. -/
def worn (e : Event) (name : Text) (calls : Nat) : Listener :=
  { e.listener name with emissions := (e.listener name).emissions - calls }

/-- How often a listener was called since `e`. -/
def callsSince (e e' : Event) (name : Text) : Nat := e'.calls.count name - e.calls.count name

/-- The conduct of the listeners of `e` in an emission inside which others may be nested `depth`
deep. The call that is under way has been counted, but has not taken an emission before. -/
def scriptedWithin (e : Event) : (depth : Nat) → Event → Text → Conduct
  | 0, e', name => conductOf (e.worn name (e.callsSince e' name - 1)) none
  | depth + 1, e', name =>
    let l := e.worn name (e.callsSince e' name - 1)
    conductOf l (if l.emissions = 0 then none else some (e.scriptedWithin depth))

/-- The conduct of the listeners of `e`. -/
def scripted (e : Event) : Event → Text → Conduct := e.scriptedWithin e.budget

/-- The event with the listeners of `e`. -/
def restored (e e' : Event) : Event := { e' with listeners := e.listeners }

/-- Since `e` every call has taken an emission from the listener that was called. -/
structure Spent (e e' : Event) : Prop where
  calls : ∀ name, e.calls.count name ≤ e'.calls.count name
  listener : ∀ name, e'.listener name = e.worn name (e.callsSince e' name)

section Scripted

variable {e r r' : Event} {emit : Event → Event × Option Fault}
  {nested : Option (Event → Text → Conduct)} {name : Text}

theorem spent_self (e : Event) : Spent e e := by
  refine ⟨fun _ => Nat.le_refl _, fun name => ?_⟩
  rw [worn, callsSince, Nat.sub_self, Nat.sub_zero]

theorem Spent.same (h : Spent e r) (hl : r'.listeners = r.listeners) (hc : r'.calls = r.calls) :
    Spent e r' := by
  have hlistener : ∀ name, r'.listener name = r.listener name := fun name => by
    rw [Event.listener, hl]
    rfl
  refine ⟨fun name => hc ▸ h.calls name, fun name => ?_⟩
  rw [hlistener, h.listener, callsSince, callsSince, hc]

theorem listener_spend (e : Event) (name n : Text) : (e.spend name).listener n =
    if n = name then { e.listener n with emissions := (e.listener n).emissions - 1 }
    else e.listener n := by
  unfold listener spend
  dsimp only
  rw [lookup_spend]
  cases e.listeners.lookup n with
  | none => split_ifs <;> rfl
  | some l => split_ifs <;> rfl

/-- A call that is counted, and takes an emission. -/
theorem Spent.call (h : Spent e r) (hl : r'.listeners = r.listeners)
    (hc : r'.calls = r.calls ++ [name]) : Spent e (r'.spend name) := by
  have hcount : ∀ n, r'.calls.count n = r.calls.count n + if n = name then 1 else 0 := fun n => by
    rw [hc, List.count_append, List.count_singleton]
    by_cases hn : n = name
    · simp [hn]
    · simp [hn, Ne.symm hn]
  have hlistener : ∀ n, r'.listener n = e.worn n (e.callsSince r n) := fun n => by
    rw [Event.listener, hl]
    exact h.listener n
  refine ⟨fun n => ?_, fun n => ?_⟩
  · show _ ≤ r'.calls.count n
    rw [hcount]
    exact Nat.le_add_right_of_le (h.calls n)
  · have hle := h.calls n
    rw [listener_spend, hlistener]
    have hspend : (r'.spend name).calls = r'.calls := rfl
    unfold worn callsSince
    rw [hspend, hcount]
    have hless : ∀ k, k - (r.calls.count n - e.calls.count n) - 1 =
        k - (r.calls.count n + 1 - e.calls.count n) := fun k => by omega
    split_ifs with hn
    · dsimp only
      rw [hless]
    · rfl

/-- The last call took no emission from a listener that had none. -/
theorem Spent.of_spend (h : Spent e (r.spend name)) (hzero : (r.listener name).emissions = 0) :
    Spent e r := by
  refine ⟨h.calls, fun n => ?_⟩
  rw [← show (r.spend name).listener n = r.listener n from ?_]
  · exact h.listener n
  · rw [listener_spend]
    split_ifs with hn
    · rw [hn]
      generalize r.listener name = l at hzero ⊢
      cases l
      cases hzero
      rfl
    · rfl

theorem perform_removes (names : List Text) (c : Conduct) (e : Event) : ∃ deeds,
    (names.foldr .remove c).perform e = (c.perform (names.foldl remove e)).behind deeds := by
  induction names generalizing e with
  | nil => exact ⟨[], rfl⟩
  | cons name names ih =>
    obtain ⟨deeds, h⟩ := ih (e.remove name)
    exact ⟨.removed name :: deeds, congrArg (Passage.behind [.removed name]) h⟩

theorem perform_adds (names : List Text) (c : Conduct) (e : Event) : ∃ deeds,
    (names.foldr .add c).perform e = (c.perform (names.foldl add e)).behind deeds := by
  induction names generalizing e with
  | nil => exact ⟨[], rfl⟩
  | cons name names ih =>
    obtain ⟨deeds, h⟩ := ih (e.add name)
    exact ⟨.added name :: deeds, congrArg (Passage.behind [.added name]) h⟩

theorem perform_conductOf (l : Listener) (nested : Option (Event → Text → Conduct)) (e : Event) :
    ∃ deeds, (conductOf l nested).perform e =
      ((lastOf l nested).perform (l.adds.foldl add (l.removes.foldl remove e))).behind deeds := by
  obtain ⟨removed, hremoves⟩ := perform_removes l.removes (l.adds.foldr .add (lastOf l nested)) e
  obtain ⟨added, hadds⟩ := perform_adds l.adds (lastOf l nested) (l.removes.foldl remove e)
  refine ⟨removed ++ added, ?_⟩
  rw [conductOf, hremoves, hadds, Passage.behind, Passage.behind, Passage.behind,
    List.append_assoc]

/-- An outcome of an emission among listeners that are data, and a passage, are the same. -/
def Matches (e : Event) (o : Event × Option Fault) (p : Passage) : Prop :=
  Spent e o.1 ∧ p.event = e.restored o.1 ∧ p.fault = o.2

/-- What `emit` does is what an emission to listeners of some conduct does, if to anybody. -/
def Plays (e : Event) (emit : Event → Event × Option Fault) :
    Option (Event → Text → Conduct) → Prop
  | none => ∀ r, emit r = (r, none)
  | some others => ∀ r, Spent e r → Matches e (emit r) ((e.restored r).emission others)

theorem matches_call (hplays : Plays e emit nested) (h : Spent e r) (name : Text) :
    Matches e (r.call emit name)
      ((conductOf (r.listener name)
        (if (r.listener name).emissions = 0 then none else nested)).perform
          (e.restored { r with calls := r.calls ++ [name] })) := by
  unfold Event.call
  extract_lets l r₁ r₂
  obtain ⟨hrl, hrc⟩ := foldl_registrations (f := remove) (fun _ _ => ⟨rfl, rfl⟩) l.removes r₁
  obtain ⟨hal, hac⟩ := foldl_registrations (f := add) (fun _ _ => ⟨rfl, rfl⟩) l.adds
    (l.removes.foldl remove r₁)
  have hspent : Spent e (r₂.spend name) := h.call (hal.trans hrl) (hac.trans hrc)
  have hremoved : l.removes.foldl remove (e.restored r₁) =
      e.restored (l.removes.foldl remove r₁) := List.foldl_hom e.restored fun _ _ => rfl
  have hadded : l.adds.foldl add (e.restored (l.removes.foldl remove r₁)) = e.restored r₂ :=
    List.foldl_hom e.restored fun _ _ => rfl
  obtain ⟨deeds, hperform⟩ := perform_conductOf l
    (if l.emissions = 0 then none else nested) (e.restored r₁)
  rw [hperform, hremoved, hadded]
  by_cases hzero : l.emissions = 0
  · rw [if_pos hzero, if_pos hzero]
    have hlistener : r₂.listener name = l := by
      rw [Event.listener, hal.trans hrl]
      rfl
    exact ⟨hspent.of_spend (hlistener ▸ hzero), rfl, rfl⟩
  · rw [if_neg hzero, if_neg hzero]
    cases nested with
    | none =>
      rw [hplays (r₂.spend name)]
      exact ⟨hspent, rfl, rfl⟩
    | some others =>
      obtain ⟨hafter, hevent, hfault⟩ := hplays (r₂.spend name) hspent
      exact ⟨hafter, hevent, congrArg (fun fault => fault <|> l.fault) hfault⟩

/-- The listeners of `e` inside an emission that knows how those play to whom they emit. -/
theorem matches_deliver {listeners : Event → Text → Conduct} (hplays : Plays e emit nested)
    (hlisteners : ∀ e' name, listeners e' name =
      let l := e.worn name (e.callsSince e' name - 1)
      conductOf l (if l.emissions = 0 then none else nested))
    (n : Nat) (names : List Text) (h : Spent e r) :
    Matches e (deliver emit names r)
      (round (fun e' name => (listeners e' name).perform e') n names (e.restored r)) := by
  induction names generalizing r with
  | nil => exact ⟨h, rfl, rfl⟩
  | cons name names ih =>
    have hcall := matches_call hplays h name
    have hlistener : e.worn name
        (e.callsSince (e.restored { r with calls := r.calls ++ [name] }) name - 1) =
          r.listener name := by
      rw [h.listener name]
      congr 1
      show (r.calls ++ [name]).count name - _ - 1 = _
      rw [List.count_append, List.count_singleton_self, callsSince]
      omega
    unfold deliver round
    rw [show { e.restored r with calls := (e.restored r).calls ++ [name] } =
      e.restored { r with calls := r.calls ++ [name] } from rfl, hlisteners, hlistener]
    generalize Conduct.perform _ _ = p at hcall ⊢
    generalize r.call emit name = o at hcall ⊢
    obtain ⟨e₁, deeds, fault⟩ := p
    obtain ⟨r₁, fault'⟩ := o
    obtain ⟨hspent, hevent, hfault⟩ := hcall
    dsimp only at hspent hevent hfault
    subst hevent hfault
    cases fault with
    | none => exact ih hspent
    | some f => exact ⟨hspent, rfl, rfl⟩

theorem plays_emitWithin (e : Event) (depth : Nat) :
    Plays e (emitWithin (depth + 1)) (some (e.scriptedWithin depth)) := by
  induction depth with
  | zero =>
    intro r h
    have hnone : Plays e (emitWithin 0) none := fun _ => rfl
    refine matches_deliver hnone (fun _ _ => ?_) r.emitted r.registered (h.same rfl rfl)
    rw [scriptedWithin]
    simp
  | succ depth ih =>
    intro r h
    exact matches_deliver ih (fun _ _ => rfl) r.emitted r.registered (h.same rfl rfl)

/-- An event with listeners that are data is emitted to listeners of their conduct. -/
theorem matches_emit (e : Event) : Matches e e.emit (e.emission e.scripted) :=
  plays_emitWithin e e.budget e (spent_self e)

end Scripted

/-- Whatever listeners do, an emission calls those who are registered when it begins, once for each
registration and in order, up to the first that fails; and so does every emission that begins inside
it. The registrations are those of before with what was added and removed meanwhile, in order. An
emission to listeners that are data is one of these. -/
theorem emission_snapshot (e : Event) :
    (∀ listeners : Event → Text → Conduct, ∃ deeds,
      (e.emission listeners).deeds =
        .began e.emitted :: (deeds ++ [.ended e.emitted (e.emission listeners).fault]) ∧
      (e.emission listeners).event.registered =
        replay e.registered (e.emission listeners).deeds ∧
      ∀ before n after, (e.emission listeners).deeds = before ++ .began n :: after →
        Round n (replay e.registered before) (doneFor n after)) ∧
      (e.emission e.scripted).event = { e.emit.1 with listeners := e.listeners } ∧
      (e.emission e.scripted).fault = e.emit.2 := by
  refine ⟨fun listeners => ?_, (matches_emit e).2⟩
  obtain ⟨hfrom, deeds, hdeeds⟩ := from_emitTo (fun e name => from_perform (listeners e name) e) e
  exact ⟨deeds, hdeeds, hfrom.registered, hfrom.rounds⟩

/-- The first of two listeners leaves, brings a third and emits: the emission inside calls the
second and the third, and the one outside goes on with the second. -/
example : (({ registered := [text "a", text "b"] } : Event).emission fun _ name =>
      if name = text "a" then .remove name (.add (text "c") (.emit (fun _ _ => .ends none) .ends))
      else .ends none).deeds =
    [.began 0, .called 0 (text "a"), .removed (text "a"), .added (text "c"),
      .began 1, .called 1 (text "b"), .returned 1 none, .called 1 (text "c"), .returned 1 none,
      .ended 1 none, .returned 0 none, .called 0 (text "b"), .returned 0 none, .ended 0 none] := by
  decide +kernel

end Snippets.Event
