import Snippets.Proofs.Cli.Delivery
import Snippets.Proofs.Rules.Reloading

/-!
# Every run ends

A run whose rules file holds a list delivers its report. If the page is exempt, the run ends in its
first turn (`runOnce_exempt`). If what the file holds is no list, the cycle reports that there are
no rules, and the command closes the gateway when the loading has ended, which may be before it gets
there or after (`runs_without_rules`). So every run ends with a result (`runOnce_ends`).
-/

namespace Snippets

namespace Cli

open Session (listener Runs)

/-- A run on an exempt page ends in its first turn. -/
theorem runOnce_exempt (w : Surroundings) (config : Config) (v : Value) (path : Path)
    (url : Text) : ∃ s, runOnce (runSession w config ⟨v, .bool true, some path⟩ url) =
      (s, .ok .nothing) :=
  ⟨_, runOnce_of_runs (.one rfl rfl rfl) (by decide) rfl⟩

namespace Errand

variable (e : Errand) {v : Value}

/-! ## Without rules -/

/-- A session of the run, if its rules file holds `v`. -/
def holding (v : Value) (s : Session) : Session := s.sourced { e.source with snippets := v }

def noRules : Report := { status := .noRules }

/-- The cycle when it has found no rules. -/
def rulelessCycle : Task where
  role := .cycle true
  due := []
  outcome := some (.ok (.report noRules))

/-- The cycle has found no rules, and the loading has not begun. -/
def ruleless (v : Value) (journal : Journal) : Session :=
  { e.holding v (e.asked journal) with
    tasks := [command, { phase := some (.getting 3), due := [] }, rulelessCycle,
      { role := .load, due := [⟨.load, false⟩] }]
    waiting := [(1, .shared 3)]
    ready := [.resume 3, .settled 2, .resume 0] }

theorem cycle_ruleless {s : Session} {t : TaskId} (hs : s.stage ≠ .suppressed)
    (hheld : s.host.isHeld .snippets = false) (hv : s.host.snippets = .ok v)
    (hitems : v.items? = none) : ∃ j, s.cycle t = ({ s with journal := j },
      .ends (.ok (.report { status := .noRules, queued := s.queue.length }))) := by
  unfold Session.cycle
  rw [if_neg hs]
  dsimp only
  rw [if_neg (by rw [Bool.not_eq_true]; exact hheld)]
  unfold Session.takeRules
  rw [show (s.effect (some t) .askSnippets).host.snippets = .ok v from hv]
  dsimp only
  rw [hitems]
  exact ⟨_, rfl⟩

theorem runs_ruleless (hv : v.items? = none) :
    ∃ j, Runs 0 3 (e.holding v e.begun) (e.ruleless v j) := by
  obtain ⟨j₁, h₁⟩ : ∃ j, ({ e.holding v e.begun with ready := [] } : Session).perform
      (.resume 0) = e.holding v (e.started j) := ⟨_, rfl⟩
  obtain ⟨j₂, h₂⟩ : ∃ j, ({ e.holding v (e.started j₁) with ready := [.resume 2] } :
      Session).perform (.resume 1) = e.holding v (e.asked j) := ⟨_, rfl⟩
  have hstage : (({ e.holding v (e.asked j₂) with ready := [.resume 3] } : Session).heed 2).stage
      ≠ .suppressed := nofun
  obtain ⟨j₃, hcycle⟩ := cycle_ruleless (t := 2) hstage rfl rfl hv
  have h₃ : ({ e.holding v (e.asked j₂) with ready := [.resume 3] } : Session).perform
      (.resume 2) = e.ruleless v (j₃ ++ [⟨some 2, .reported (.ok noRules)⟩]) :=
    (Session.perform_begin (c := .cycle) rfl hcycle).trans rfl
  exact ⟨_, .job rfl rfl h₁ (.job rfl rfl h₂ (.one rfl rfl h₃))⟩

theorem fresh_ruleless (v : Value) (j : Journal) :
    e.Fresh (({ e.ruleless v j with ready := [.settled 2, .resume 0] } : Session).heed 3) :=
  ⟨⟨rfl, rfl, rfl, rfl, rfl⟩, rfl, rfl, rfl, rfl⟩

/-! ## The loading ends before the command goes on -/

/-- The loading has ended in its first turn. -/
def loadedFirst (v : Value) (host : Host) (journal : Journal) : Session :=
  { e.ruleless v journal with
    host
    runner := runnerOf e.settings e.script
    tasks := [command, { phase := some (.getting 3), due := [] }, rulelessCycle, e.loadTask none]
    ready := [.settled 2, .resume 0, .settled 3, .relay 1] }

theorem runs_loadedFirst (v : Value) (host : Host) (j : Journal) :
    ∃ s, Runs 0 2 (e.loadedFirst v host j) s ∧ s.outcome? 0 = some (.ok (.report noRules)) := by
  obtain ⟨s₁, hs₁⟩ : ∃ s₁, s₁ = { e.loadedFirst v host j with
    pending := [], ready := [.resume 0, .settled 3, .relay 1] } := ⟨_, rfl⟩
  have h₁ : Session.perform { e.loadedFirst v host j with
      ready := [.resume 0, .settled 3, .relay 1] } (.settled 2) = s₁ := by
    rw [hs₁]
    rfl
  have hready : s₁.ready = [.resume 0, .settled 3, .relay 1] := by rw [hs₁]
  have hlive : s₁.hasEnded 0 = false := by rw [hs₁]; rfl
  refine ⟨_, .job rfl rfl h₁ (.one hlive hready rfl), ?_⟩
  rw [hs₁]
  -- closing the gateway depends on whether there is a script
  unfold loadedFirst loadTask ended
  cases e.script with
  | ok bytes => rfl
  | error reason => rfl

/-! ## The command waits for the loading -/

/-- The command while it closes the gateway. -/
def closingCommand : Task where
  phase := some (.closing 3)
  due := []
  verdict := .ok (some (.report noRules))

/-- The command waits for the loading, which has read a file. -/
def loadedLast (v : Value) (u : Url) (journal : Journal) : Session :=
  { e.ruleless v journal with
    event := { registered := [] }
    pending := []
    tasks := [closingCommand, { phase := some (.getting 3), due := [] }, rulelessCycle,
      { role := .load, phase := some (.reading (e.reading u)), due := [] }]
    waiting := [(1, .shared 3), (0, .shared 3)]
    ready := [.resume 3] }

theorem runs_loadedLast (v : Value) (u : Url) (j : Journal) :
    Runs 0 3 { e.ruleless v j with
      tasks := [command, { phase := some (.getting 3), due := [] }, rulelessCycle,
        { role := .load, phase := some (.reading (e.reading u)), due := [] }]
      waiting := [(1, .shared 3), (3, .turn)]
      ready := [.settled 2, .resume 0, .relay 3] } (e.loadedLast v u j) :=
  .job rfl rfl rfl (.job rfl rfl rfl (.one rfl rfl rfl))

/-- The loading has ended while the command waits for it. -/
def arrivedLast (v : Value) (phase : Option Phase) (host : Host) (journal : Journal) : Session :=
  { e.ruleless v journal with
    host
    event := { registered := [] }
    pending := []
    runner := runnerOf e.settings e.script
    tasks := [closingCommand, { phase := some (.getting 3), due := [] }, rulelessCycle,
      e.loadTask phase]
    waiting := [(1, .shared 3), (0, .shared 3)]
    ready := [.settled 3, .relay 1, .relay 0] }

theorem perform_loadedLast (v : Value) {u : Url} (hu : Url.split e.url = .ok u)
    (hremote : u.isRemote = false) (j : Journal) :
    ∃ host j', Session.perform { e.loadedLast v u j with ready := [] } (.resume 3) =
      e.arrivedLast v (some (.reading (e.reading u))) host j' := by
  have hbare : e.Bare (({ e.loadedLast v u j with ready := [] } : Session).heed 3) :=
    ⟨rfl, rfl, rfl, rfl, rfl⟩
  obtain ⟨scratch, replies, j', -, -, hfile⟩ := hbare.takeFile (t := 3) hu hremote
  exact ⟨_, j', (Session.perform_continue (p := .reading (e.reading u)) rfl hfile).trans rfl⟩

theorem runs_arrivedLast (v : Value) (phase : Option Phase) (host : Host) (j : Journal) :
    ∃ s, Runs 0 5 (e.arrivedLast v phase host j) s ∧
      s.outcome? 0 = some (.ok (.report noRules)) := by
  obtain ⟨j₁, h₁⟩ : ∃ j₁, Session.settled { e.arrivedLast v phase host j with
      ready := [.relay 1, .relay 0] } 3 =
      { e.arrivedLast v phase host j₁ with ready := [.relay 1, .relay 0] } := by
    unfold Session.settled arrivedLast loadTask ended
    cases e.script with
    | ok bytes => exact ⟨j, rfl⟩
    | error reason => exact ⟨_, rfl⟩
  obtain ⟨j₂, h₂⟩ : ∃ j₂, Session.perform { e.arrivedLast v phase host j₁ with
      waiting := [], ready := [.resume 0] } (.resume 1) =
      { e.arrivedLast v phase host j₂ with
        tasks := [closingCommand, e.getTask, rulelessCycle, e.loadTask phase]
        waiting := [], ready := [.resume 0, .settled 1] } :=
    ⟨_, (Session.perform_continue (k := .other) (p := .getting 3) rfl rfl).trans rfl⟩
  refine ⟨_, .job rfl rfl h₁ (.job rfl rfl rfl (.job rfl rfl rfl (.job rfl rfl h₂
    (.one rfl rfl rfl)))), ?_⟩
  unfold arrivedLast loadTask ended
  cases e.script with
  | ok bytes => rfl
  | error reason => rfl

/-- A run that finds no rules ends with the report that says so. -/
theorem runs_without_rules (hv : v.items? = none)
    (hfetch : ∀ f, e.around.replies.now.source = .error f → f.reach = .contained) :
    ∃ n s, n ≤ 16 ∧ Runs 0 n (e.holding v e.begun) s ∧
      s.outcome? 0 = some (.ok (.report noRules)) := by
  obtain ⟨j, hruleless⟩ := e.runs_ruleless hv
  obtain ⟨scratch, replies, j', -, -, hload⟩ | ⟨u, j', hu, hremote, -, hload⟩ :=
    (e.fresh_ruleless v j).load hfetch
  · obtain ⟨host, hturn⟩ : ∃ host, Session.perform
        { e.ruleless v j with ready := [.settled 2, .resume 0] } (.resume 3) =
          e.loadedFirst v host j' :=
      ⟨_, (Session.perform_begin (c := .load) rfl hload).trans rfl⟩
    obtain ⟨s, hruns, hs⟩ := e.runs_loadedFirst v host j'
    exact ⟨_, s, by decide, hruleless.trans (.job rfl rfl hturn hruns), hs⟩
  · have hturn : Session.perform { e.ruleless v j with ready := [.settled 2, .resume 0] }
        (.resume 3) = _ :=
      Session.perform_begin (c := .load) rfl hload
    obtain ⟨host, j'', harrived⟩ := e.perform_loadedLast v hu hremote j'
    obtain ⟨s, hruns, hs⟩ := e.runs_arrivedLast v _ host j''
    have hlast := (e.runs_loadedLast v u j').trans (.job rfl rfl harrived hruns)
    exact ⟨_, s, by decide, hruleless.trans (.job rfl rfl hturn hlast), hs⟩

end Errand

/-! ## Any rules -/

/-- A run comes to an end, whatever its rules file holds. -/
theorem runOnce_ends {w : Surroundings} (config : Config) {v : Value} (exempt : Bool) (path : Path)
    (url : Text) (hv : ∀ items, v ≠ .tuple items)
    (hfetch : ∀ f, w.replies.now.source = .error f → f.reach = .contained)
    (hprocess : ∀ f, w.processes.now = .fault f → f.reach = .contained) :
    ∃ s r, runOnce (runSession w config ⟨v, .bool exempt, some path⟩ url) = (s, .ok r) := by
  cases exempt with
  | true =>
    obtain ⟨s, hs⟩ := runOnce_exempt w config v path url
    exact ⟨s, .nothing, hs⟩
  | false =>
    cases hitems : v.items? with
    | some items =>
      obtain rfl : v = .list items := by
        cases v with
        | list items' => exact congrArg _ (Option.some.inj hitems)
        | tuple items' => exact absurd rfl (hv items')
        | null | bool | int | real | text | map => cases hitems
      have hcontained : Errand.Contained ⟨w, config, path, items, url⟩ := ⟨hfetch, hprocess⟩
      obtain ⟨s, hrun, -⟩ := hcontained.runOnce
      exact ⟨s, _, hrun⟩
    | none =>
      obtain ⟨n, s, hn, hruns, hs⟩ :=
        Errand.runs_without_rules ⟨w, config, path, [], url⟩ hitems hfetch
      exact ⟨s, _, runOnce_of_runs hruns (by omega) hs⟩

end Cli

end Snippets
