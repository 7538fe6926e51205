import Snippets.Proofs.Session.Turns

/-!
# What a step can do

A step is a command or a job. A job that lets a task go on is a turn of that task (`Turn`): blocks,
after which it waits or has ended (`resume_keeps`; `resume_single` for a loading or a cycle, whose
turn is one block). Everything else a step can do is a sequence of small changes, which `Aside`
lists. `Reachable.keeps` is the induction over whole runs that this gives: an invariant has to be
kept by the changes aside and by turns.
-/

namespace Snippets.Session

/-! ## Turns -/

/-- What may be left to do for a task of a role when it waits. -/
structure Rest (role : Role) (due : List Due) (verdict : Verdict) : Prop where
  allows : ∀ d ∈ due, role.allows d.call.kind
  single : ∀ c, role.call? = some c → verdict = .ok none ∧ due = []

/-- A block of task `t` brings about `P` if its call ends, and `Q` if the task waits. -/
def Leads (t : TaskId) (role : Role) (P Q : Session → Prop) (r : Session × Progress) : Prop :=
  match r.2 with
  | .ends _ => P r.1
  | .waits p w => ∀ due verdict, Rest role due verdict → Q (r.1.suspend t p w due verdict)

section Pursue

variable {t : TaskId} {role : Role} {P Q : Session → Prop}

/-- What every block and the end of a task keep, a task keeps that carries out its calls. -/
theorem pursue_keeps
    (hbegin : ∀ s c, role.allows c.kind → P s → Leads t role P Q (s.beginCall t c))
    (hfinish : ∀ s o, P s → Q (s.finish t o)) {due : List Due}
    (hd : ∀ d ∈ due, role.allows d.call.kind) {verdict : Verdict} (hs : ∀ c, role.call? = some c →
      due = [] ∨ due = [⟨c, false⟩] ∧ verdict = .ok none) {s : Session} (h : P s) :
    Q (s.pursue t verdict due) := by
  induction due generalizing s verdict with
  | nil => exact hfinish s _ h
  | cons d due ih =>
    have hd' : ∀ d ∈ due, role.allows d.call.kind := fun d hd' => hd d (List.mem_cons_of_mem _ hd')
    have hs' : ∀ c, role.call? = some c → due = [] := by
      intro c hc
      rcases hs c hc with hs | ⟨hs, -⟩
      · cases hs
      · exact (List.cons.inj hs).2
    unfold pursue
    split
    · exact ih hd' (fun c hc => .inl (hs' c hc)) h
    · have hb := hbegin s d.call (hd d List.mem_cons_self) h
      unfold Leads at hb
      split
      · next s' p w he =>
        rw [he] at hb
        refine hb due _ ⟨hd', fun c hc => ⟨?_, hs' c hc⟩⟩
        rcases hs c hc with hs | ⟨-, hv⟩
        · cases hs
        · exact hv
      · next s' o he =>
        rw [he] at hb
        exact ih hd' (fun c hc => .inl (hs' c hc)) hb

variable {s : Session} {task : Task}

/-- The session in which the turn of a task begins: it is told to give up at most once. -/
def heed (s : Session) (t : TaskId) : Session :=
  s.modifyTask t fun task => { task with cancelRequested := false }

/-- It is the turn of a task: it has not ended, and if it waited for a loading and is not to give
up, that has ended. All others have their turn to come. -/
structure Turn (s : Session) (t : TaskId) (task : Task) : Prop where
  tidy : Tidy (some t) s
  known : s.tasks[t]? = some task
  live : task.outcome = none
  loaded : ∀ p load, task.phase = some p → p.load? = some load → task.cancelRequested = false →
    s.hasEnded load

theorem Turn.fits (turn : Turn s t task) : task.Fits := turn.tidy.fits t task turn.known turn.live

theorem Turn.lt (turn : Turn s t task) : t < s.tasks.length :=
  (List.getElem?_eq_some_iff.1 turn.known).1

theorem Turn.role? (turn : Turn s t task) : s.role? t = some task.role := by
  simp [Session.role?, turn.known]

theorem task_heed (ht : s.tasks[t]? = some task) :
    (s.heed t).tasks[t]? = some { task with cancelRequested := false } := by
  rw [heed, tasks_modifyTask, if_pos rfl, ht]
  rfl

theorem role?_heed (u : TaskId) : (s.heed t).role? u = s.role? u := role?_modifyTask (by simp)

theorem Turn.loaded_heed (turn : Turn s t task) {p : Phase} {load : TaskId}
    (hp : task.phase = some p) (hl : p.load? = some load) (hc : task.cancelRequested = false) :
    (s.heed t).hasEnded load :=
  (hasEnded_modifyTask (by simp)).trans (turn.loaded p load hp hl hc)

/-- What every block and the end of a task keep, its turn keeps. -/
theorem resume_keeps (turn : Turn s t task) (hnone : task.phase = none → P (s.heed t))
    (hcontinue : ∀ p, task.phase = some p → task.cancelRequested = false →
      Leads t task.role P Q ((s.heed t).continueCall t p))
    (habandon : ∀ p, task.phase = some p → task.cancelRequested = true →
      Leads t task.role P Q ((s.heed t).abandonCall t p))
    (hbegin : ∀ s c, task.role.allows c.kind → P s → Leads t task.role P Q (s.beginCall t c))
    (hfinish : ∀ s o, P s → Q (s.finish t o)) :
    Q (s.resume t) := by
  have hf := turn.fits
  have hproceed : ∀ r : Session × Progress, task.phase ≠ none → Leads t task.role P Q r →
      Q (r.1.proceed t task r.2) := by
    rintro ⟨s', p⟩ hp hl
    have hsingle : ∀ c, task.role.call? = some c → task.verdict = .ok none ∧ task.due = [] := by
      intro c hc
      have h := hf.single c hc
      rw [if_neg (by simpa using hp)] at h
      exact h
    cases p with
    | waits p w => exact hl _ _ ⟨hf.due, hsingle⟩
    | ends o => exact pursue_keeps hbegin hfinish hf.due (fun c hc => .inl (hsingle c hc).2) hl
  unfold resume
  rw [turn.known]
  dsimp only
  rw [if_neg (by simp [turn.live])]
  split
  · next hp hc => exact hfinish _ _ (hnone hp)
  · next hp hc =>
    refine pursue_keeps hbegin hfinish hf.due ?_ (hnone hp)
    intro c hc
    have h := hf.single c hc
    rw [if_pos (by simp [hp])] at h
    exact .inr ⟨h.2, h.1⟩
  · next p hp hc =>
    exact hproceed _ (by simp [hp]) (habandon p hp hc)
  · next p hp hc =>
    exact hproceed _ (by simp [hp]) (hcontinue p hp hc)

/-- What moves of the task's own kinds keep, its turn keeps, whatever it waits for and however it
ends. -/
theorem resume_of_moves (turn : Turn s t task) (h : P (s.heed t))
    (hmoves : ∀ k s s', task.role.allows k → Moves k (some t) s s' →
      s.tasks[t]? = some { task with cancelRequested := false } → P s → P s')
    (hsuspend : ∀ s p w due verdict, s.tasks[t]? = some { task with cancelRequested := false } →
      P s → Q (s.suspend t p w due verdict))
    (hfinish : ∀ s o, s.tasks[t]? = some { task with cancelRequested := false } → P s →
      Q (s.finish t o)) : Q (s.resume t) := by
  have hf := turn.fits
  have hheed := task_heed turn.known
  have hblock : ∀ (s : Session) (r : Session × Progress) (k : Kind), task.role.allows k →
      s.tasks[t]? = some { task with cancelRequested := false } ∧ P s → Block k t s r →
      Leads t task.role (fun s => s.tasks[t]? = some { task with cancelRequested := false } ∧ P s)
        Q r := by
    rintro s ⟨s', p⟩ k hk ⟨htask, hs⟩ hb
    have htask' := hb.moves.task htask
    have hs' := hmoves k s s' hk hb.moves htask hs
    cases p with
    | ends o => exact ⟨htask', hs'⟩
    | waits p w => exact fun due verdict _ => hsuspend s' p w due verdict htask' hs'
  refine resume_keeps
    (P := fun s => s.tasks[t]? = some { task with cancelRequested := false } ∧ P s) turn
    (fun _ => ⟨hheed, h⟩) ?_ ?_ ?_ fun s o hs => hfinish s o hs.1 hs.2
  · intro p hp hc
    exact hblock _ _ p.kind (hf.phase p hp) ⟨hheed, h⟩
      (block_continueCall p fun load hl => turn.loaded_heed hp hl hc)
  · exact fun p hp _ => hblock _ _ p.kind (hf.phase p hp) ⟨hheed, h⟩ (block_abandonCall p)
  · exact fun s c hc hs => hblock _ _ c.kind hc hs (block_beginCall c)

/-- The one block of a turn of a task that is a loading or a cycle. -/
def blockOf (s : Session) (t : TaskId) (task : Task) (c : Call) : Session × Progress :=
  match task.phase, task.cancelRequested with
  | none, true => (s, .ends (.error .cancelled))
  | none, false => s.beginCall t c
  | some p, true => s.abandonCall t p
  | some p, false => s.continueCall t p

theorem block_blockOf {c : Call} (hp : ∀ p, task.phase = some p → p.kind = c.kind)
    (hover : ∀ p load, task.phase = some p → p.load? = some load → task.cancelRequested = false →
      s.hasEnded load) : Block c.kind t s (s.blockOf t task c) := by
  unfold blockOf
  split
  · exact block_ends .refl _
  · exact block_beginCall c
  · next p he _ => exact hp p he ▸ block_abandonCall p
  · next p he hc => exact hp p he ▸ block_continueCall p fun load hl => hover p load he hl hc

/-- What becomes of such a task after its block. -/
def conclude (s : Session) (t : TaskId) : Progress → Session
  | .waits p w => s.suspend t p w [] (.ok none)
  | .ends o => s.finish t o

theorem outcome_judge (o : Outcome) : outcomeOfVerdict (judge (.ok none) o) = o := by
  cases o <;> rfl

theorem resume_single (turn : Turn s t task) {c : Call} (hc : task.role.call? = some c) :
    s.resume t =
      ((s.heed t).blockOf t task c).1.conclude t ((s.heed t).blockOf t task c).2 := by
  obtain ⟨hv, hd⟩ := turn.fits.single c hc
  have hproceed : ∀ r : Session × Progress, task.phase ≠ none →
      r.1.proceed t task r.2 = r.1.conclude t r.2 := by
    rintro ⟨s', p⟩ hp
    rw [if_neg (by simpa using hp)] at hd
    cases p with
    | waits p w => simp only [proceed, conclude, hv, hd]
    | ends o => simp only [proceed, conclude, hv, hd, pursue, outcome_judge]
  have hlive : ¬ task.outcome.isSome := by simp [turn.live]
  unfold resume blockOf
  rw [turn.known]
  dsimp only
  rw [if_neg hlive]
  cases hp : task.phase with
  | none =>
    rw [if_pos (by simp [hp])] at hd
    cases task.cancelRequested with
    | true => rfl
    | false =>
      rw [hv, hd]
      show (s.heed t).pursue t (.ok none) [⟨c, false⟩] =
        ((s.heed t).beginCall t c).1.conclude t ((s.heed t).beginCall t c).2
      simp only [pursue]
      generalize (s.heed t).beginCall t c = r
      obtain ⟨s', p⟩ := r
      cases p with
      | waits p w => rfl
      | ends o => simp only [outcome_judge, conclude]
  | some p =>
    have hp' : task.phase ≠ none := by simp [hp]
    cases task.cancelRequested with
    | true => exact hproceed ((s.heed t).abandonCall t p) hp'
    | false => exact hproceed ((s.heed t).continueCall t p) hp'

end Pursue

/-! ## Jobs keep a session tidy -/

section Jobs

variable {s : Session} {t : TaskId} {run : Option TaskId} {before after : List Job} {j : Job}

/-- A task that is ready gets to run. -/
theorem Tidy.take_resume (h : Tidy none s) (hr : s.ready = before ++ .resume t :: after) :
    Tidy (some t) { s with ready := before ++ after } where
  turns u := by
    have hu := h.turns u
    rw [count_turns, hr, List.filterMap_append] at hu
    rw [count_turns]
    show (s.waiting.map Prod.fst).count u + ((before ++ after).filterMap Job.resumes?).count u =
      if s.isLive u = true ∧ _ then 1 else 0
    rw [List.filterMap_append, List.count_append]
    have hcons : (Job.resume t :: after).filterMap Job.resumes? =
        t :: after.filterMap Job.resumes? := rfl
    rw [hcons, List.count_append, List.count_cons] at hu
    have hlive := (h.isLive_of_mem (t := t) (mem_turns_of_ready (by simp [hr]))).1
    by_cases he : t = u
    · subst he
      simp [hlive] at hu ⊢
      omega
    · simp [he] at hu ⊢
      omega
  running u hu := by
    cases hu
    exact (h.isLive_of_mem (mem_turns_of_ready (by simp [hr]))).1
  fits := h.fits
  waits := h.waits
  loaded u task p load hu := h.loaded u task p load (by
    rw [hr]
    rcases List.mem_append.1 hu with hu | hu
    · exact List.mem_append_left _ hu
    · exact List.mem_append_right _ (List.mem_cons_of_mem _ hu))
  relays u load hw he := by
    have := h.relays u load hw he
    rw [hr] at this
    simpa using this
  loads := h.loads
  targets := h.targets
  owns := h.owns
  alls := h.alls
  pending := h.pending

/-- A job that lets no task go on is done with. -/
theorem Tidy.take (h : Tidy run s) (hr : s.ready = before ++ j :: after) (hj : j.resumes? = none)
    (hrelay : ∀ u load, j = .relay u → (u, .shared load) ∈ s.waiting → s.hasEnded load = false) :
    Tidy run { s with ready := before ++ after } where
  turns u := by
    have hturns : ({ s with ready := before ++ after } : Session).turns = s.turns := by
      unfold Session.turns
      rw [hr, List.filterMap_append, List.filterMap_append, List.filterMap_cons_none hj]
    rw [hturns]
    exact h.turns u
  running := h.running
  fits := h.fits
  waits := h.waits
  loaded u task p load hu := h.loaded u task p load (by
    rw [hr]
    rcases List.mem_append.1 hu with hu | hu
    · exact List.mem_append_left _ hu
    · exact List.mem_append_right _ (List.mem_cons_of_mem _ hu))
  relays u load hw he := by
    have hmem := h.relays u load hw he
    rw [hr] at hmem
    rcases List.mem_append.1 hmem with hmem | hmem
    · exact List.mem_append_left _ hmem
    · rcases List.mem_cons.1 hmem with hmem | hmem
      · have := hrelay u load hmem.symm hw
        rw [show s.hasEnded load = true from he] at this
        cases this
      · exact List.mem_append_right _ hmem
  loads := h.loads
  targets := h.targets
  owns := h.owns
  alls := h.alls
  pending := h.pending

/-- Waiting for anything but a loading ends without conditions. -/
theorem Tidy.wake_of_wait (h : Tidy run s) {w : Wait} (hw : (t, w) ∈ s.waiting)
    (hload : ∀ load, w = .shared load → s.hasEnded load) : Tidy run (s.wake t) := by
  refine h.wake hw ?_
  intro task p load ht hp hl hc
  obtain ⟨task', p', ht', hp', hw'⟩ := h.waits t w hw
  rw [ht] at ht'
  cases ht'
  rw [hp] at hp'
  cases hp'
  refine hload load ?_
  cases p <;> simp_all [Phase.load?, Phase.isWait]

theorem Tidy.relay (h : Tidy run s) (hr : s.ready = before ++ .relay t :: after) :
    Tidy run ({ s with ready := before ++ after }.relay t) := by
  have htake : ∀ w, s.wait? t = some w → (∀ load, w = .shared load → s.hasEnded load = false) →
      Tidy run { s with ready := before ++ after } := by
    intro w hw hn
    refine h.take hr rfl ?_
    rintro u load ⟨⟩ hu
    have := h.wait?_eq hu
    rw [hw] at this
    exact hn load (Option.some.inj this)
  unfold Session.relay
  split
  · next hw => exact (htake _ hw (by simp)).wake_of_wait (mem_waiting_of_wait? hw) (by simp)
  · next load hw =>
    split_ifs with he
    · -- the task is woken first: after that the job is of no use
      have hwake : Tidy run (s.wake t) := by
        refine h.wake_of_wait (mem_waiting_of_wait? hw) ?_
        rintro load' ⟨⟩
        exact he
      have hr' : (s.wake t).ready = before ++ .relay t :: (after ++ [.resume t]) := by
        show s.ready ++ [Job.resume t] = _
        rw [hr]
        simp
      have hdone := hwake.take hr' rfl (by
        rintro u load ⟨⟩ hu
        exact absurd (List.mem_filter.1 hu).2 (by simp))
      rw [← List.append_assoc] at hdone
      exact hdone
    · refine htake _ hw ?_
      rintro load' ⟨⟩
      exact Bool.eq_false_iff.2 he
  · next hturn hshared =>
    refine h.take hr rfl ?_
    rintro u load ⟨⟩ hu
    exact absurd (h.wait?_eq hu) (hshared load)

/-- A task that waits for several goes on waiting for fewer. -/
theorem Tidy.rewait (h : Tidy run s) {cs cs' : List TaskId} (hw : (t, .all cs) ∈ s.waiting)
    (hsub : ∀ c ∈ cs', c ∈ cs) :
    Tidy run { s with waiting := s.waiting.map fun w => if w.1 = t then (t, .all cs') else w } := by
  have hfst : (s.waiting.map fun w => if w.1 = t then (t, Wait.all cs') else w).map Prod.fst =
      s.waiting.map Prod.fst := by
    rw [List.map_map]
    refine List.map_congr_left fun w _ => ?_
    show (if w.1 = t then (t, Wait.all cs') else w).1 = w.1
    split_ifs with he
    · exact he.symm
    · rfl
  have hcases : ∀ u w, (u, w) ∈ s.waiting.map (fun w => if w.1 = t then (t, Wait.all cs') else w) →
      (u, w) ∈ s.waiting ∨ u = t ∧ w = .all cs' := by
    intro u w hu
    obtain ⟨v, hv, he⟩ := List.mem_map.1 hu
    split_ifs at he
    · cases he
      exact .inr ⟨rfl, rfl⟩
    · rw [he] at hv
      exact .inl hv
  refine ⟨?_, h.running, h.fits, ?_, h.loaded, ?_, h.loads, h.targets, ?_, ?_, h.pending⟩
  · intro u
    have hu := h.turns u
    rw [count_turns] at hu ⊢
    rw [hfst]
    exact hu
  · intro u w hu
    rcases hcases u w hu with hu | ⟨rfl, rfl⟩
    · exact h.waits u w hu
    · obtain ⟨task, p, ht, hp, hpw⟩ := h.waits u _ hw
      refine ⟨task, p, ht, hp, ?_⟩
      cases p <;> simp_all [Phase.isWait]
  · intro u load hu
    rcases hcases u _ hu with hu | ⟨-, he⟩
    · exact h.relays u load hu
    · cases he
  · intro u c hu
    rcases hcases u _ hu with hu | ⟨-, he⟩
    · exact h.owns u c hu
    · cases he
  · intro u ds hu c hc
    rcases hcases u _ hu with hu | ⟨rfl, he⟩
    · exact h.alls u ds hu c hc
    · cases he
      exact h.alls u cs hw c (hsub c hc)

theorem Tidy.joined (h : Tidy run s) (t ended : TaskId) : Tidy run (s.joined t ended) := by
  unfold Session.joined
  split
  · next cs hw =>
    have hw := mem_waiting_of_wait? hw
    split_ifs
    · exact h.wake_of_wait hw nofun
    · exact h.rewait hw fun c hc => List.mem_of_mem_erase hc
  · exact h

theorem Tidy.settled (h : Tidy run s) (t : TaskId) : Tidy run (s.settled t) := by
  have herase : Tidy run { s with pending := s.pending.erase t } :=
    ⟨h.turns, h.running, h.fits, h.waits, h.loaded, h.relays, h.loads, h.targets, h.owns, h.alls,
      fun c hc => h.pending c (List.mem_of_mem_erase hc)⟩
  unfold Session.settled
  split
  · exact h
  · dsimp only
    split
    · exact h.congr rfl rfl rfl rfl rfl
    · exact herase
    · exact herase.congr rfl rfl rfl rfl rfl
    · exact h

/-- The turn of a task leaves the session tidy. -/
theorem Turn.tidy_resume {task : Task} (turn : Turn s t task) : Tidy none (s.resume t) := by
  have h := turn.tidy
  have hf := turn.fits
  have hrole : (s.heed t).role? t = some task.role := (role?_heed t).trans turn.role?
  have hblock : ∀ (s : Session) (r : Session × Progress) (k : Kind),
      Tidy (some t) s ∧ s.role? t = some task.role → task.role.allows k → Block k t s r →
      Leads t task.role (fun s => Tidy (some t) s ∧ s.role? t = some task.role) (Tidy none) r := by
    rintro s ⟨s', p⟩ k ⟨h, hr⟩ hk hb
    have h' : Tidy (some t) s' := hb.moves.tidy h
    have hr' : s'.role? t = some task.role := hb.moves.role? hr
    cases p with
    | ends o => exact ⟨h', hr'⟩
    | waits p w =>
      intro due verdict hrest
      obtain ⟨hp, hw⟩ := hb.waits p w rfl
      exact h'.suspend hr' (hp ▸ hk) hw hrest.allows hrest.single
  refine resume_keeps turn (P := fun s => Tidy (some t) s ∧ s.role? t = some task.role)
    (fun _ => ⟨h.clearCancel, hrole⟩) ?_ ?_ ?_ ?_
  · intro p hp hc
    exact hblock (s.heed t) _ p.kind ⟨h.clearCancel, hrole⟩ (hf.phase p hp)
      (block_continueCall p fun load hl => turn.loaded_heed hp hl hc)
  · intro p hp _
    exact hblock (s.heed t) _ p.kind ⟨h.clearCancel, hrole⟩ (hf.phase p hp) (block_abandonCall p)
  · intro s c hc hP
    exact hblock s _ c.kind hP hc (block_beginCall c)
  · exact fun s o hP => hP.1.finish o

/-- Whoever is ready has a turn when its job is taken. -/
theorem Tidy.turn (h : Tidy none s) (hr : s.ready = before ++ .resume t :: after) :
    ∃ task, Turn { s with ready := before ++ after } t task := by
  have htake := h.take_resume hr
  obtain ⟨task, ht, ho⟩ := isLive_iff.1 (htake.running t rfl)
  refine ⟨task, htake, ht, ho, ?_⟩
  intro p load
  exact h.loaded t task p load (by simp [hr]) ht

theorem Tidy.perform (h : Tidy none s) (hr : s.ready = before ++ j :: after) :
    Tidy none ({ s with ready := before ++ after }.perform j) := by
  cases j with
  | resume t =>
    obtain ⟨task, turn⟩ := h.turn hr
    exact turn.tidy_resume
  | relay t => exact h.relay hr
  | joined t ended => exact (h.take hr rfl nofun).joined t ended
  | settled t => exact (h.take hr rfl nofun).settled t

end Jobs

/-! ## Commands keep a session tidy -/

section Commands

variable {s : Session} {t u : TaskId} {run : Option TaskId} {role : Role}

/-- A task is told to give up. -/
def tell (s : Session) (t : TaskId) : Session :=
  (s.modifyTask t fun task => { task with cancelRequested := true }).record (some t) .cancelled

theorem role?_tell (h : s.role? u = some role) : (s.tell t).role? u = some role :=
  (role?_modifyTask (s := s) (by simp)).trans h

/-- Telling a task to give up does so unless it has ended, and wakes it if it may. -/
theorem cancelOne_cases (s : Session) (t : TaskId) :
    s.hasEnded t ∧ s.cancelOne t = s ∨
      s.hasEnded t = false ∧ (s.cancelOne t = s.tell t ∨
        s.cancelOne t = (s.tell t).wake t ∧ ∃ w, s.wait? t = some w) := by
  by_cases he : s.hasEnded t
  · exact .inl ⟨he, by simp [cancelOne, he]⟩
  · refine .inr ⟨by simpa using he, ?_⟩
    unfold cancelOne
    rw [if_neg he]
    dsimp only
    split
    · next hw => exact .inr ⟨rfl, _, hw⟩
    · next hw => exact .inr ⟨rfl, _, hw⟩
    · next hw => exact .inr ⟨rfl, _, hw⟩
    · exact .inl rfl

theorem role?_cancelOne (h : s.role? u = some role) : (s.cancelOne t).role? u = some role := by
  rcases cancelOne_cases s t with ⟨-, he⟩ | ⟨-, he | ⟨he, -⟩⟩ <;> rw [he]
  · exact h
  · exact role?_tell h
  · exact role?_tell h

theorem Tidy.cancelOne (h : Tidy run s) (hr : s.role? t = some role) (hl : role ≠ .load) :
    Tidy run (s.cancelOne t) := by
  have htell : Tidy run (s.tell t) := (h.requestCancel hr hl).congr rfl rfl rfl rfl rfl
  rcases cancelOne_cases s t with ⟨-, he⟩ | ⟨-, he | ⟨he, w, hw⟩⟩ <;> rw [he]
  · exact h
  · exact htell
  · refine htell.wake (mem_waiting_of_wait? (s := s) hw) ?_
    intro task p load ht _ _ hc
    rcases modifyTask_cases ht with ⟨-, old, -, rfl⟩ | ⟨hne, -⟩
    · cases hc
    · exact absurd rfl hne

theorem Tidy.cancelAll (h : Tidy run s) {cs : List TaskId}
    (hcs : ∀ c ∈ cs, s.role? c = some (.cycle true)) : Tidy run (cs.foldl Session.cancelOne s) := by
  induction cs generalizing s with
  | nil => exact h
  | cons c cs ih =>
    exact ih (h.cancelOne (hcs c List.mem_cons_self) nofun)
      fun d hd => role?_cancelOne (hcs d (List.mem_cons_of_mem _ hd))

theorem Tidy.cancel (h : Tidy run s) (hr : s.role? t = some role) (hl : role ≠ .load) :
    Tidy run (s.cancel t) := by
  unfold Session.cancel
  split
  · next c hw => exact h.cancelOne (h.owns t c (mem_waiting_of_wait? hw)) nofun
  · next cs hw =>
    exact (h.cancelOne hr hl).cancelAll
      fun c hc => role?_cancelOne (h.alls t cs (mem_waiting_of_wait? hw) c hc)
  · exact h.cancelOne hr hl

/-- Several tasks that wait for an answer are woken. -/
theorem Tidy.wakeAll (h : Tidy run s) {ws : List (TaskId × Wait)} (hws : ∀ w ∈ ws, w ∈ s.waiting)
    (hanswer : ∀ w ∈ ws, ∃ q, w.2 = .answer q) (hn : (ws.map Prod.fst).Nodup) :
    Tidy run (ws.foldl (fun s w => s.wake w.1) s) := by
  induction ws generalizing s with
  | nil => exact h
  | cons w ws ih =>
    obtain ⟨hw, hn⟩ := List.nodup_cons.1 hn
    obtain ⟨q, hq⟩ := hanswer w List.mem_cons_self
    have hwake : Tidy run (s.wake w.1) :=
      h.wake_of_wait (hws w List.mem_cons_self) (by rw [hq]; exact nofun)
    refine ih hwake ?_ (fun v hv => hanswer v (List.mem_cons_of_mem _ hv)) hn
    intro v hv
    refine List.mem_filter.2 ⟨hws v (List.mem_cons_of_mem _ hv), ?_⟩
    have hne : v.1 ≠ w.1 := fun he => hw (he ▸ List.mem_map.2 ⟨v, hv, rfl⟩)
    simpa using hne

theorem Tidy.release (h : Tidy run s) (q : Question) : Tidy run (s.release q) := by
  have hhost : Tidy run
      (s.withHost { s.host with held := s.host.held.filter fun h => h != q }) :=
    h.congr rfl rfl rfl rfl rfl
  refine hhost.wakeAll (fun w hw => (List.mem_filter.1 hw).1) ?_ ?_
  · intro w hw
    exact ⟨q, by simpa using (List.mem_filter.1 hw).2⟩
  · refine List.Nodup.sublist (List.filter_sublist.map _) ?_
    rw [List.nodup_iff_count]
    intro t
    have ht := hhost.turns t
    rw [count_turns] at ht
    split_ifs at ht <;> omega

end Commands

/-! ## Changes aside -/

/-- A change that is not part of the turn of a task. -/
inductive Aside : Session → Session → Prop where
  | move {s s' : Session} (m : Move .close none s s') : Aside s s'
  | spawn (s : Session) (role : Role) (due : List Due) (hf : Task.Fits { role, due })
      (hl : role ≠ .load) (hc : role ≠ .cycle true) : Aside s (s.spawn role due).1
  | tell (s : Session) (t : TaskId) (role : Role) (hr : s.role? t = some role) (hl : role ≠ .load) :
      Aside s (s.tell t)
  | note (s : Session) (t : TaskId) (l : Log) (h : t < s.tasks.length) : Aside s (s.note (some t) l)
  | turns (s : Session) (waiting : List (TaskId × Wait)) (ready : List Job)
      (pending : List TaskId) : Aside s { s with waiting, ready, pending }

/-- Any number of changes aside. -/
abbrev Asides : Session → Session → Prop := Relation.ReflTransGen Aside

section Aside

variable {s s' : Session} {t : TaskId} {role : Role}

theorem Moves.asides (m : Moves .close none s s') : Asides s s' :=
  Relation.ReflTransGen.mono (fun _ _ m => Aside.move m) s s' m

theorem asides_wake : Asides s (s.wake t) := .single (.turns s _ _ s.pending)

theorem asides_cancelOne (hr : s.role? t = some role) (hl : role ≠ .load) :
    Asides s (s.cancelOne t) := by
  rcases cancelOne_cases s t with ⟨-, he⟩ | ⟨-, he | ⟨he, -⟩⟩
  · rw [he]
  · rw [he]
    exact .single (.tell s t role hr hl)
  · rw [he]
    exact (Relation.ReflTransGen.single (.tell s t role hr hl)).trans asides_wake

theorem asides_cancelAll {cs : List TaskId} (hcs : ∀ c ∈ cs, s.role? c = some (.cycle true)) :
    Asides s (cs.foldl Session.cancelOne s) := by
  induction cs generalizing s with
  | nil => exact .refl
  | cons c cs ih =>
    exact (asides_cancelOne (hcs c List.mem_cons_self) nofun).trans
      (ih fun d hd => role?_cancelOne (hcs d (List.mem_cons_of_mem _ hd)))

theorem asides_cancel (h : Tidy none s) (hr : s.role? t = some role) (hl : role ≠ .load) :
    Asides s (s.cancel t) := by
  unfold cancel
  split
  · next c hw => exact asides_cancelOne (h.owns t c (mem_waiting_of_wait? hw)) nofun
  · next cs hw =>
    exact (asides_cancelOne hr hl).trans (asides_cancelAll
      fun c hc => role?_cancelOne (h.alls t cs (mem_waiting_of_wait? hw) c hc))
  · exact asides_cancelOne hr hl

theorem asides_release (q : Question) : Asides s (s.release q) := by
  have hwakes : ∀ (ws : List (TaskId × Wait)) (s : Session),
      Asides s (ws.foldl (fun s w => s.wake w.1) s) := by
    intro ws
    induction ws with
    | nil => exact fun _ => .refl
    | cons w ws ih => exact fun s => asides_wake.trans (ih _)
  exact (Relation.ReflTransGen.single (.move (.host s _ (.refl _) (.inl rfl)))).trans (hwakes _ _)

theorem moves_reload (snippets : Value) : Moves .close none s (s.reload snippets).1 := by
  unfold reload
  split
  · exact .refl
  · next h => exact moves_reloadSource h rfl

theorem precedes_arrange (h : Host) (a : Arrangement) : h.bench.Precedes (h.arrange a).bench := by
  cases a <;> exact ⟨Nat.le_refl _, Nat.le_refl _⟩

/-- What the surroundings may create. -/
theorem fits_of_admits {due : List Due} (h : s.admits (.spawn role due)) :
    Task.Fits { role, due } ∧ role ≠ .load ∧ role ≠ .cycle true := by
  cases role with
  | load => cases h
  | cycle scheduled =>
    cases scheduled with
    | true => cases h
    | false =>
      have hd : due = [⟨.cycle, false⟩] := by simpa [admits] using h
      subst hd
      exact ⟨⟨by simp, by simp [Call.kind, Role.allows], by rintro c ⟨⟩; exact ⟨rfl, rfl⟩,
        fun _ => rfl⟩, by simp, by simp⟩
  | other =>
    have hd : ∀ d ∈ due, d.call.isOpen := by simpa [admits] using h
    exact ⟨⟨by simp, fun d hd' => (Call.isOpen_iff _).1 (hd d hd'), by simp [Role.call?],
      fun _ => rfl⟩, by simp, by simp⟩

theorem role?_of_admits (h : s.admits (.cancel t)) :
    ∃ role, s.role? t = some role ∧ role ≠ .load := by
  unfold admits at h
  unfold role?
  cases ht : s.tasks[t]? with
  | none => simp [ht] at h
  | some task => exact ⟨task.role, rfl, by simpa [ht] using h⟩

theorem asides_act (h : Tidy none s) {c : Command} (hc : s.admits c) : Asides s (s.act c).1 := by
  cases c with
  | spawn role due =>
    obtain ⟨hf, hl, hs⟩ := fits_of_admits hc
    exact .single (.spawn s role due hf hl hs)
  | cancel t =>
    obtain ⟨role, hr, hl⟩ := role?_of_admits hc
    exact asides_cancel h hr hl
  | stop => exact moves_stop.asides
  | reset => exact .single (.move (.reset s rfl))
  | emit => exact moves_notify.asides
  | reload snippets => exact (moves_reload snippets).asides
  | arrange a => exact .single (.move (.host s _ (precedes_arrange s.host a) (.inl rfl)))
  | mutate => exact (moves_onPage _).asides
  | hold q => exact .single (.move (.host s _ (.refl _) (.inl rfl)))
  | release q => exact asides_release q

theorem Tidy.act (h : Tidy none s) {c : Command} (hc : s.admits c) : Tidy none (s.act c).1 := by
  cases c with
  | spawn role due => exact h.spawn (fits_of_admits hc).1
  | cancel t =>
    obtain ⟨role, hr, hl⟩ := role?_of_admits hc
    exact h.cancel hr hl
  | stop => exact (moves_stop (k := .plain) (a := none)).tidy h
  | reset => exact h.reset none
  | emit => exact (moves_notify (k := .plain) (a := none)).tidy h
  | reload snippets => exact (moves_reload snippets).tidy h
  | arrange a => exact h.congr rfl rfl rfl rfl rfl
  | mutate => exact (moves_onPage (k := .plain) _).tidy h
  | hold q => exact h.congr rfl rfl rfl rfl rfl
  | release q => exact h.release q

theorem asides_perform {j : Job} (hj : j.resumes? = none) : Asides s (s.perform j) := by
  cases j with
  | resume t => cases hj
  | relay t =>
    show Asides s (s.relay t)
    unfold relay
    split
    · exact asides_wake
    · split_ifs
      · exact asides_wake
      · exact .refl
    · exact .refl
  | joined t ended =>
    show Asides s (s.joined t ended)
    unfold joined
    split
    · split_ifs
      · exact asides_wake
      · exact .single (.turns s _ s.ready s.pending)
    · exact .refl
  | settled t =>
    have herase : Asides s { s with pending := s.pending.erase t } :=
      .single (.turns s s.waiting s.ready _)
    show Asides s (s.settled t)
    unfold settled
    split
    · exact .refl
    · next ht =>
      have hlt := (List.getElem?_eq_some_iff.1 ht).1
      dsimp only
      split
      · exact .single (.note s t _ hlt)
      · exact herase
      · exact herase.trans (.single (.note _ t _ hlt))
      · exact .refl

end Aside

/-! ## Whole runs -/

/-- In every session that can come about every task has its one turn. -/
theorem tidy_of_reachable {s : Session} (h : Reachable s) : Tidy none s := by
  induction h with
  | new setup host event =>
    constructor <;> simp [Session.turns, isLive]
  | step _ step ih =>
    cases step with
    | act c hc => exact ih.act hc
    | perform before j after hr => exact ih.perform hr

/-- A step is a sequence of changes aside, or a job is taken and lets a task have its turn. -/
theorem Step.inv {s s' : Session} (htidy : Tidy none s) (step : Step s s') :
    Asides s s' ∨ ∃ ready t task, Turn { s with ready } t task ∧
      s' = ({ s with ready } : Session).resume t := by
  cases step with
  | act c hc => exact .inl (asides_act htidy hc)
  | perform before j after hr =>
    have hready : Asides s { s with ready := before ++ after } :=
      .single (.turns s s.waiting (before ++ after) s.pending)
    cases j with
    | resume t =>
      obtain ⟨task, hturn⟩ := htidy.turn hr
      exact .inr ⟨before ++ after, t, task, hturn, rfl⟩
    | relay t => exact .inl (hready.trans (asides_perform rfl))
    | joined t ended => exact .inl (hready.trans (asides_perform rfl))
    | settled t => exact .inl (hready.trans (asides_perform rfl))

/-- What every change aside and every turn of a task that has not ended keep, a step keeps. -/
theorem Step.keeps {P : Session → Prop} (aside : ∀ s s', Aside s s' → P s → P s')
    (turn : ∀ (s : Session) (t : TaskId) (task : Task), Turn s t task → P s → P (s.resume t))
    {s s' : Session} (htidy : Tidy none s) (step : Step s s') (h : P s) : P s' := by
  rcases step.inv htidy with m | ⟨ready, t, task, hturn, rfl⟩
  · clear step
    induction m with
    | refl => exact h
    | tail _ m ih => exact aside _ _ m ih
  · exact turn _ t task hturn (aside _ _ (.turns s s.waiting ready s.pending) h)

/-- Invariants of runs: what holds at first, and is kept by every change aside and by every turn of
a task that has not ended. -/
theorem Reachable.keeps {P : Session → Prop}
    (new : ∀ setup host event, P { setup, host, event })
    (aside : ∀ s s', Aside s s' → P s → P s')
    (turn : ∀ (s : Session) (t : TaskId) (task : Task), Turn s t task → P s → P (s.resume t))
    {s : Session} (h : Reachable s) : P s := by
  induction h with
  | new setup host event => exact new setup host event
  | step hreach step ih => exact step.keeps aside turn (tidy_of_reachable hreach) ih

/-! ## In the middle of a turn -/

/-- The sessions in the middle of the turn of `t` that begins in `s`: the turn has just begun, or a
call has ended and the next may begin. -/
inductive Amid (s : Session) (t : TaskId) : Session → Prop where
  | begins : Amid s t (s.heed t)
  | continues {u : Session} {task : Task} {p : Phase} {o : Outcome} (ht : s.tasks[t]? = some task)
      (hp : task.phase = some p) (hc : task.cancelRequested = false)
      (he : (s.heed t).continueCall t p = (u, .ends o)) : Amid s t u
  | abandons {u : Session} {task : Task} {p : Phase} {o : Outcome} (ht : s.tasks[t]? = some task)
      (hp : task.phase = some p) (hc : task.cancelRequested = true)
      (he : (s.heed t).abandonCall t p = (u, .ends o)) : Amid s t u
  | calls {u v : Session} {task : Task} {c : Call} {o : Outcome} (h : Amid s t u)
      (ht : s.tasks[t]? = some task) (hc : task.role.allows c.kind)
      (he : u.beginCall t c = (v, .ends o)) : Amid s t v

section Amid

variable {s u : Session} {t : TaskId} {task : Task} {P Q : Session → Prop}

/-- What every block of a task keeps holds all through its turn. -/
theorem Amid.keeps (h : Amid s t u) (ht : s.tasks[t]? = some task) (hheed : P (s.heed t))
    (hcontinue : ∀ p, task.phase = some p → task.cancelRequested = false →
      Leads t task.role P Q ((s.heed t).continueCall t p))
    (habandon : ∀ p, task.phase = some p → task.cancelRequested = true →
      Leads t task.role P Q ((s.heed t).abandonCall t p))
    (hbegin : ∀ s c, task.role.allows c.kind → P s → Leads t task.role P Q (s.beginCall t c)) :
    P u := by
  have hends : ∀ (r : Session × Progress) (v : Session) (o : Outcome), r = (v, .ends o) →
      Leads t task.role P Q r → P v := by
    rintro r v o rfl hl
    exact hl
  induction h with
  | begins => exact hheed
  | continues ht' hp hc he =>
    cases ht'.symm.trans ht
    exact hends _ _ _ he (hcontinue _ hp hc)
  | abandons ht' hp hc he =>
    cases ht'.symm.trans ht
    exact hends _ _ _ he (habandon _ hp hc)
  | calls _ ht' hc he ih =>
    cases ht'.symm.trans ht
    exact hends _ _ _ he (hbegin _ _ hc ih)

/-- What moves of the task's own kinds keep holds all through its turn. -/
theorem Amid.of_moves (h : Amid s t u) (turn : Turn s t task) (hheed : P (s.heed t))
    (hmoves : ∀ k s s', task.role.allows k → Moves k (some t) s s' → P s → P s') : P u := by
  have hblock : ∀ (s : Session) (r : Session × Progress) (k : Kind), task.role.allows k →
      Block k t s r → P s → Leads t task.role P (fun _ => True) r := by
    rintro s ⟨s', p⟩ k hk hb hs
    cases p with
    | ends o => exact hmoves k s s' hk hb.moves hs
    | waits p w => exact fun _ _ _ => trivial
  refine h.keeps (Q := fun _ => True) turn.known hheed ?_ ?_ ?_
  · exact fun p hp hc => hblock _ _ _ (turn.fits.phase p hp)
      (block_continueCall p fun load hl => turn.loaded_heed hp hl hc) hheed
  · exact fun p hp _ => hblock _ _ _ (turn.fits.phase p hp) (block_abandonCall p) hheed
  · exact fun s c hc hs => hblock _ _ _ hc (block_beginCall c) hs

end Amid

/-! ## A small run -/

/-- A session with a local handler for `a` and an external runner that can be fetched and compiled.
Its rules call `a` and `b`. -/
def sample : Session where
  setup :=
    { registry := { handlers := [(text "a", some 0)], frozen := true }
      url := text "http://runner" }
  host :=
    { source := RuleSource.new (some (.list [.text (text "a x; b")])) (.bool false)
      handlers := [.scripted 0 false none]
      replies := ⟨.body none (.text (text "source")), []⟩
      compiler := .hosted {} }

/-- The small session after two cycles have run side by side. -/
def sampleRun : Session :=
  ((sample.act (.spawn (.cycle false) [⟨.cycle, false⟩])).1.act
    (.spawn (.cycle false) [⟨.cycle, false⟩])).1.settle

theorem reachable_sampleRun : Reachable sampleRun := by
  refine Reachable.steps ?_ (steps_settle _)
  refine .step (.step (.new sample.setup sample.host {}) (.act _ _ ?_)) (.act _ _ ?_) <;> rfl

end Snippets.Session
