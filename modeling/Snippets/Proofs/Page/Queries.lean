import Mathlib.Data.List.Basic
import Mathlib.Tactic.SplitIfs
import Snippets.Page.SkipMedia

/-!
# What a query visits

A selector asks for an XPath expression exactly if it is one between `xpath(` and `)`, whatever
brackets the expression has (`ofSelector_eq_xpath_iff`). Since `xpath(` does not end as `)` begins,
the two never overlap, and the expression is all that stands between them.

A run of a query asks once and applies its callback to what the answer held, up to the first node
at which it fails (`toured_run`), whatever the callback makes of the document meanwhile. This is
said of any document that answers from a state, which may change as it answers, and of any callback
that changes this state: so it can be said of whole series of runs, each of which finds what those
before it left (`trail_series`). Asking the document of a page is one case (`apply_eq_run`), and the
search of an activation is another (`search_eq_run`).
-/

namespace Snippets

namespace Query

/-! ## Selectors -/

section Selectors

variable {selector e : Text}

/-- A selector cannot end its `xpath(` and its `)` in the same place. -/
theorem not_closing_suffix_opening : ¬ closing <:+ opening := by decide

theorem isXPath_iff : isXPath selector ↔ ∃ e, selector = opening ++ e ++ closing := by
  unfold isXPath
  rw [Bool.and_eq_true, List.isPrefixOf_iff_prefix, List.isSuffixOf_iff_suffix]
  constructor
  · rintro ⟨⟨rest, rfl⟩, before, h⟩
    rcases List.append_eq_append_iff.1 h with ⟨shared, hopening, hclosing⟩ | ⟨e, -, hrest⟩
    · cases shared with
      | nil => exact ⟨[], by rw [← List.nil_append rest, ← hclosing, List.append_nil]⟩
      | cons point shared =>
        -- all of the closing bracket would belong to the opening
        obtain ⟨rfl, hshared⟩ := List.cons_eq_cons.1 hclosing
        obtain ⟨rfl, rfl⟩ := List.append_eq_nil_iff.1 hshared.symm
        exact absurd ⟨before, hopening.symm⟩ not_closing_suffix_opening
    · exact ⟨e, by rw [hrest, List.append_assoc]⟩
  · rintro ⟨e, rfl⟩
    exact ⟨⟨e ++ closing, (List.append_assoc _ _ _).symm⟩, List.suffix_append _ _⟩

theorem ofSelector_wrapped (e : Text) : ofSelector (opening ++ e ++ closing) = .xpath e := by
  rw [ofSelector, if_pos (isXPath_iff.2 ⟨e, rfl⟩), List.append_assoc, List.drop_left]
  congr 1
  refine List.take_left' ?_
  simp only [List.length_append]
  omega

theorem ofSelector_of_not_wrapped (h : ∀ e, selector ≠ opening ++ e ++ closing) :
    ofSelector selector = .css selector :=
  if_neg fun hx => (isXPath_iff.1 hx).elim h

theorem ofSelector_eq_xpath_iff :
    ofSelector selector = .xpath e ↔ selector = opening ++ e ++ closing := by
  constructor
  · intro h
    by_cases hx : ∃ e, selector = opening ++ e ++ closing
    · obtain ⟨e', rfl⟩ := hx
      rw [ofSelector_wrapped] at h
      rw [Query.xpath.inj h]
    · rw [ofSelector_of_not_wrapped (not_exists.1 hx)] at h
      cases h
  · rintro rfl
    exact ofSelector_wrapped e

end Selectors

/-! ## Runs -/

/-- A document that answers from a state, which may change as it answers. -/
abbrev Host (σ : Type) := Query → σ → σ × Except Fault (List Value)

/-- What is applied to a node. It may change the state and fail. -/
abbrev Callback (σ : Type) := Value → σ → σ × Option Fault

/-- One use of a query: what others have done to the state, and what the query is run with. -/
structure Use (σ : Type) where
  change : σ → σ := id
  callback : Option (Callback σ)

/-- What one run of a query did: the questions asked, the nodes that the callback was applied to,
what there is after it and the fault that ended it. -/
structure Tour (σ : Type) where
  asked : List Query
  seen : List Value
  state : σ
  fault : Option Fault

section Runs

variable {σ : Type} (ask : Host σ) (q : Query)

/-- Runs a query on a document that answers from a state, as `apply` does on that of a page. -/
def run (callback : Option (Callback σ)) (s : σ) : Tour σ :=
  match callback with
  | none => ⟨[], [], s, none⟩
  | some callback =>
    match ask q s with
    | (s, .error fault) => ⟨[q], [], s, some fault⟩
    | (s, .ok nodes) =>
      let (seen, s, fault) := visit callback nodes s
      ⟨[q], seen, s, fault⟩

/-- Runs a query again and again, each time on what the time before has left and others have changed
since. -/
def series : List (Use σ) → σ → List (Tour σ)
  | [], _ => []
  | use :: rest, s =>
    let tour := run ask q use.callback (use.change s)
    tour :: series rest tour.state

/-- What there is after a callback was applied to nodes, one after another. -/
def after (callback : Callback σ) (s : σ) (nodes : List Value) : σ :=
  nodes.foldl (fun s node => (callback node s).1) s

/-- A callback fails at none of the nodes. -/
def Passes (callback : Callback σ) (s : σ) (nodes : List Value) : Prop :=
  ∀ before node, before ++ [node] <+: nodes → (callback node (after callback s before)).2 = none

/-- What a run of a query does from a state. -/
inductive Toured : Option (Callback σ) → σ → Tour σ → Prop
  /-- without a callback nothing is asked -/
  | idle (s : σ) : Toured none s ⟨[], [], s, none⟩
  /-- the document does not answer -/
  | refused {callback : Callback σ} {s s' : σ} {fault : Fault}
      (answer : ask q s = (s', .error fault)) :
      Toured (some callback) s ⟨[q], [], s', some fault⟩
  /-- the callback is applied to every node of the answer -/
  | through {callback : Callback σ} {s s' : σ} {nodes : List Value}
      (answer : ask q s = (s', .ok nodes)) (passes : Passes callback s' nodes) :
      Toured (some callback) s ⟨[q], nodes, after callback s' nodes, none⟩
  /-- the callback fails at a node of the answer, and is applied to none behind it -/
  | broken {callback : Callback σ} {s s' : σ} {before rest : List Value}
      {node : Value} {fault : Fault} (answer : ask q s = (s', .ok (before ++ node :: rest)))
      (passes : Passes callback s' before)
      (fails : (callback node (after callback s' before)).2 = some fault) :
      Toured (some callback) s
        ⟨[q], before ++ [node], after callback s' (before ++ [node]), some fault⟩

/-- What the runs of a series do, each from the state that the one before it left. -/
inductive Trail : List (Use σ) → σ → List (Tour σ) → Prop
  | nil (s : σ) : Trail [] s []
  | cons {use : Use σ} {rest : List (Use σ)} {s : σ} {tour : Tour σ} {tours : List (Tour σ)}
      (first : Toured ask q use.callback (use.change s) tour)
      (others : Trail rest tour.state tours) : Trail (use :: rest) s (tour :: tours)

end Runs

section Visits

variable {σ : Type} {ask : Host σ} {q : Query}
  {callback : Callback σ} {s s' : σ} {node : Value} {nodes : List Value}

theorem passes_nil : Passes callback s [] := by
  intro before node h
  simp at h

theorem passes_cons (h : callback node s = (s', none)) (hp : Passes callback s' nodes) :
    Passes callback s (node :: nodes) := by
  intro before last hbefore
  cases before with
  | nil =>
    obtain ⟨rfl, -⟩ := List.cons_prefix_cons.1 hbefore
    exact congrArg Prod.snd h
  | cons first before =>
    obtain ⟨rfl, hrest⟩ := List.cons_prefix_cons.1 hbefore
    have hafter : after callback s (first :: before) = after callback s' before := by
      rw [after, List.foldl_cons, h]
      rfl
    rw [hafter]
    exact hp before last hrest

/-- Going through nodes either passes them all or ends at the first at which the callback fails. -/
theorem visit_cases (callback : Callback σ) (nodes : List Value) (s : σ) :
    (visit callback nodes s = (nodes, after callback s nodes, none) ∧ Passes callback s nodes) ∨
      ∃ before node rest fault, nodes = before ++ node :: rest ∧ Passes callback s before ∧
        (callback node (after callback s before)).2 = some fault ∧
        visit callback nodes s =
          (before ++ [node], after callback s (before ++ [node]), some fault) := by
  induction nodes generalizing s with
  | nil => exact .inl ⟨rfl, passes_nil⟩
  | cons node nodes ih =>
    unfold visit
    rcases hnode : callback node s with ⟨s', _ | fault⟩
    · have hstep : ∀ l, after callback s (node :: l) = after callback s' l := by
        intro l
        rw [after, List.foldl_cons, hnode]
        rfl
      dsimp only
      rcases ih s' with
        ⟨hvisit, hpasses⟩ | ⟨before, last, rest, fault, rfl, hpasses, hfails, hvisit⟩
      · exact .inl ⟨by rw [hvisit, hstep], passes_cons hnode hpasses⟩
      · refine .inr ⟨node :: before, last, rest, fault, rfl, passes_cons hnode hpasses, ?_, ?_⟩
        · rw [hstep]
          exact hfails
        · rw [hvisit, List.cons_append, hstep]
    · refine .inr ⟨[], node, nodes, fault, rfl, passes_nil, ?_, ?_⟩
      · exact congrArg Prod.snd hnode
      · simp [after, hnode]

theorem toured_run (callback : Option (Callback σ)) (s : σ) :
    Toured ask q callback s (run ask q callback s) := by
  cases callback with
  | none => exact .idle s
  | some callback =>
    unfold run
    rcases hanswer : ask q s with ⟨s', fault | nodes⟩
    · exact .refused hanswer
    · dsimp only
      rcases visit_cases callback nodes s' with
        ⟨hvisit, hpasses⟩ | ⟨before, node, rest, fault, rfl, hpasses, hfails, hvisit⟩
      · rw [hvisit]
        exact .through hanswer hpasses
      · rw [hvisit]
        exact .broken hanswer hpasses hfails

theorem trail_series (uses : List (Use σ)) (s : σ) :
    Trail ask q uses s (series ask q uses s) := by
  induction uses generalizing s with
  | nil => exact .nil s
  | cons use rest ih => exact .cons (toured_run use.callback (use.change s)) (ih _)

/-! ## The documents of pages -/

/-- The document of a page answers without changing. -/
def ofDocument : Host Document := fun q d => (d, d.find q)

/-- A run that changes only the document is one of these. -/
theorem apply_eq_run (q : Query) (callback : Option (Callback Document)) (d : Document) :
    q.apply callback d =
      let tour := run ofDocument q callback d
      ⟨tour.seen, tour.state, tour.asked.map effect, tour.fault⟩ := by
  unfold apply run ofDocument
  cases callback with
  | none => rfl
  | some callback => cases d.find q <;> rfl

end Visits

end Query

/-- An activation asks for its own condition, whatever brackets that has. -/
theorem Activation.query_eq (a : Activation) : a.query = .xpath a.condition.display :=
  Query.ofSelector_wrapped _

namespace Page

variable {skip : Page → Outcome} {i : Nat}

/-- How the document of a page answers an activation, which enters question and answer. -/
def answering (i : Nat) : Query.Host Page := fun q p =>
  let p := p.record (.ask i q)
  match p.document.find q with
  | .error fault => (p, .error fault)
  | .ok nodes => (p.record (.found i nodes.length), .ok nodes)

/-- What an activation is asked when a node matches. -/
theorem matchAll_eq_visit (condition : Value) (nodes : List Value) (p : Page) :
    matchAll skip i condition nodes p =
      (Query.visit (fun _ p => p.onMatch skip i condition) nodes p).2 := by
  induction nodes generalizing p with
  | nil => rfl
  | cons node rest ih =>
    unfold matchAll Query.visit
    rcases p.onMatch skip i condition with ⟨p', _ | fault⟩
    · exact ih p'
    · rfl

/-- The search of an armed activation is a run of its query, whose callback has the player skip. -/
theorem search_eq_run {p : Page} {a : Activation} (ha : p.activations[i]? = some a)
    (harmed : a.skipped = false) :
    p.search skip i =
      let tour := Query.run (answering i) a.query
        (some fun _ p => p.onMatch skip i a.condition) p
      (tour.state, tour.fault) := by
  unfold search Query.run answering
  rw [ha]
  dsimp only
  rw [harmed, if_neg Bool.false_ne_true]
  have hdocument : (p.record (.ask i a.query)).document = p.document := rfl
  rw [hdocument]
  rcases p.document.find a.query with fault | nodes
  · rfl
  · dsimp only
    rw [matchAll_eq_visit]

end Page

namespace Query

/-- A selector is an expression exactly if it stands between `xpath(` and `)`, and then it is the
only one; any other selector is taken whole. For every document, every run of a query asks once, of
what the runs before it and others have left, and goes through the nodes of the answer up to the
first at which its callback fails; without a callback it does nothing. The runs on the document of a
page are among these. -/
theorem series_visits :
    (∀ selector e : Text, selector = opening ++ e ++ closing →
      ofSelector selector = .xpath e ∧ ∀ e', selector = opening ++ e' ++ closing → e' = e) ∧
    (∀ selector : Text, (∀ e, selector ≠ opening ++ e ++ closing) →
      ofSelector selector = .css selector) ∧
    (∀ (σ : Type) (ask : Host σ) (selector : Text) (uses : List (Use σ)) (s : σ),
      Trail ask (ofSelector selector) uses s (series ask (ofSelector selector) uses s)) ∧
    ∀ (selector : Text) (callback : Option (Callback Document)) (d : Document),
      (ofSelector selector).apply callback d =
        let tour := run ofDocument (ofSelector selector) callback d
        ⟨tour.seen, tour.state, tour.asked.map effect, tour.fault⟩ := by
  refine ⟨fun selector e h => ?_, fun _ => ofSelector_of_not_wrapped,
    fun _ _ _ uses s => trail_series uses s, fun _ => apply_eq_run _⟩
  have hxpath := ofSelector_eq_xpath_iff.2 h
  refine ⟨hxpath, fun e' h' => ?_⟩
  exact Query.xpath.inj ((ofSelector_eq_xpath_iff.2 h').symm.trans hxpath)

/-- Brackets in an expression belong to it, and the two of a selector cannot share one. -/
theorem series_visits_brackets :
    ofSelector (text "xpath((//a)[last()])") = .xpath (text "(//a)[last()]") ∧
      ofSelector (text "xpath)") = .css (text "xpath)") := by
  obtain ⟨hxpath, hcss, -⟩ := series_visits
  refine ⟨(hxpath _ _ (by decide)).1, hcss _ fun e he => ?_⟩
  exact absurd (isXPath_iff.2 ⟨e, he⟩) (by decide)

/-- Empties the lists it is called for and leaves a node of its own. -/
def replacing : Callback Document :=
  ({ clear := true, append := some (.text (text "c")), fault := fun _ => ⟨[], [], .contained⟩ } :
    Reaction).callback

/-- The nodes of the moment are gone through although the first call has emptied their list; the
next run finds what was put there. -/
example :
    (series ofDocument (.xpath (text "//a")) [{ callback := replacing }, { callback := replacing }]
        { xpath := [(text "//a", [.text (text "a"), .text (text "b")])] }).map Tour.seen =
      [[.text (text "a"), .text (text "b")], [.text (text "c")]] :=
  rfl

end Query

end Snippets
