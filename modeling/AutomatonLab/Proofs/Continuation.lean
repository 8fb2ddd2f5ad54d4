import AutomatonLab.Proofs.Record

/-!
# An automatic run has exactly one continuation

With timers that can be cancelled, the timers of an engine are the one that is pending, or none if
none is (`Desk.Orderly`). An automatic run goes on because a step is in flight, or a timer is
pending, or the loop is active that makes all steps at once (`Desk.Covered`). Inside an event a run
may be without a continuation, since the call that tells the event still has to see to it; but no
call returns before it has, if all listeners return (`Control.Play.upholds`). So between calls no
automatic run has stopped for ever, and none goes on twice (`settled_of_play`).
-/

namespace AutomatonLab

namespace Desk

variable {σ : Type} {d d' : Desk σ}

/-! ## The timers of an engine -/

/-- The timers of an engine can be cancelled, and are the one that is pending, or none if none is.
It continues the present run. -/
structure Tracked (d : Desk σ) : Prop where
  jobs : d.jobs.map (fun j => (j.handle, j.task)) =
    d.engine.pending.toList.map fun h => (h, .resume d.engine.generation)
  cancels : ∀ g, d.agenda = some g → g.cancels = true

/-- Without timers there is none to keep track of. -/
theorem tracked_of_jobs_eq_nil (hjobs : d.jobs = []) (hp : d.engine.pending = none)
    (hcancels : ∀ g, d.agenda = some g → g.cancels = true) : d.Tracked where
  jobs := by simp [hjobs, hp]
  cancels := hcancels

namespace Tracked

/-- If the engine waits for no timer, there is none. -/
theorem jobs_eq_nil (h : d.Tracked) (hp : d.engine.pending = none) : d.jobs = [] := by
  simpa [hp] using h.jobs

/-- The only timer is the pending one. -/
theorem eq_of_mem_jobs (h : d.Tracked) {j : Job} (hj : j ∈ d.jobs) :
    d.jobs = [j] ∧ d.engine.pending = some j.handle ∧ j.task = .resume d.engine.generation := by
  have hjobs := h.jobs
  cases hp : d.engine.pending with
  | none => simp [h.jobs_eq_nil hp] at hj
  | some handle =>
    rw [hp] at hjobs
    obtain ⟨k, hk, hkj⟩ := List.map_eq_singleton_iff.1 hjobs
    obtain ⟨rfl, htask⟩ := Prod.mk.inj hkj
    rw [hk, List.mem_singleton] at hj
    subst hj
    exact ⟨hk, rfl, htask⟩

/-- The timers are the one that the engine waits for. -/
theorem map_handle_jobs (h : d.Tracked) : d.jobs.map Job.handle = d.engine.pending.toList := by
  have hjobs := congrArg (List.map Prod.fst) h.jobs
  rw [List.map_map, List.map_map] at hjobs
  exact hjobs.trans (List.map_id _)

/-- When the pending timer is cancelled, none is left. -/
theorem agenda_cancelPending (h : d.Tracked) :
    d.cancelPending.agenda = d.agenda.map fun g => { g with jobs := [] } := by
  cases hg : d.agenda with
  | none => cases hp : d.engine.pending <;> simp [cancelPending, hp, hg]
  | some g =>
    have hjobs : d.jobs = g.jobs := by simp [Desk.jobs, hg]
    cases hp : d.engine.pending with
    | none =>
      have hnil : g.jobs = [] := hjobs ▸ h.jobs_eq_nil hp
      simp [cancelPending, hp, hg, ← hnil]
    | some handle =>
      have hmem : ∀ j ∈ g.jobs, j.handle = handle := by
        intro j hj
        have := (h.eq_of_mem_jobs (hjobs ▸ hj)).2.1
        exact Option.some.inj (this.symm.trans hp)
      have hfilter : g.jobs.filter (fun j => j.handle != handle) = [] := by simpa using hmem
      simp [cancelPending, hp, hg, Agenda.cancel, h.cancels g hg, Agenda.remove, hfilter]

/-- When the timer is given up, none is left. -/
theorem jobs_cancelPending (h : d.Tracked) : d.cancelPending.jobs = [] := by
  rw [Desk.jobs, h.agenda_cancelPending]
  cases d.agenda <;> rfl

/-- Giving up a timer does not change how timers are given up. -/
theorem cancels_cancelPending (h : d.Tracked) :
    ∀ g, d.cancelPending.agenda = some g → g.cancels = true := by
  intro g hg
  rw [h.agenda_cancelPending] at hg
  obtain ⟨g₀, hg₀, rfl⟩ := Option.map_eq_some_iff.1 hg
  exact h.cancels g₀ hg₀

theorem cancelPending (h : d.Tracked) : d.cancelPending.Tracked :=
  tracked_of_jobs_eq_nil h.jobs_cancelPending rfl h.cancels_cancelPending

/-- When the pending timer is due, none is left. -/
theorem elapsed (h : d.Tracked) {j : Job} (hj : j ∈ d.jobs) : (d.elapsed j).woken.Tracked := by
  cases hg : d.agenda with
  | none => simp [Desk.jobs, hg] at hj
  | some g =>
    refine tracked_of_jobs_eq_nil ?_ rfl ?_
    · have hjobs : g.jobs = [j] := by simpa [Desk.jobs, hg] using (h.eq_of_mem_jobs hj).1
      simp [Desk.jobs, Desk.elapsed, woken, hg, Agenda.elapse, Agenda.remove, hjobs]
    · intro g' hg'
      obtain rfl : g.elapse j = g' := by simpa [Desk.elapsed, woken, hg] using hg'
      exact h.cancels g hg

/-- The timer that is asked for is the only one. -/
theorem askTimer (h : d.Tracked) {g : Agenda} (hg : d.agenda = some g)
    (hp : d.engine.pending = none) : (d.askTimer g).Tracked where
  jobs := by
    have hjobs : g.jobs = [] := by simpa [Desk.jobs, hg] using h.jobs_eq_nil hp
    simp [Desk.askTimer, Desk.jobs, Agenda.add, hjobs]
  cancels g' hg' := by
    obtain rfl : g.add _ _ _ = g' := Option.some.inj hg'
    exact h.cancels g hg

end Tracked

/-! ## What every call upholds -/

/-- What holds of the timers and of the state of a run, also inside an event. -/
structure Orderly (d : Desk σ) : Prop where
  jobs : d.jobs.map (fun j => (j.handle, j.task)) =
    d.engine.pending.toList.map fun h => (h, .resume d.engine.generation)
  cancels : ∀ g, d.agenda = some g → g.cancels = true ∧ d.engine.draining = false
  running : d.engine.running = true → d.engine.status = .running
  inFlight : d.engine.inFlight = true → d.engine.pending = none
  paused : d.engine.running = false → d.engine.status.isTerminal = false →
    d.engine.pending = none

/-- An automatic run, if one is going on, has something that continues it. -/
def Covered (d : Desk σ) : Prop :=
  d.engine.running = true →
    d.engine.inFlight = true ∨ d.engine.pending.isSome = true ∨ d.engine.draining = true

/-- What a call that returns makes of the desk `d`. -/
structure Upheld (d d' : Desk σ) : Prop where
  orderly : d'.Orderly
  covered : d.Covered → d'.Covered
  agenda : d'.agenda.isSome = d.agenda.isSome
  draining : d'.engine.draining = true → d.engine.draining = true

theorem Orderly.tracked (h : d.Orderly) : d.Tracked :=
  ⟨h.jobs, fun g hg => (h.cancels g hg).1⟩

theorem Orderly.jobs_eq_nil (h : d.Orderly) (hp : d.engine.pending = none) : d.jobs = [] :=
  h.tracked.jobs_eq_nil hp

/-- A desk without timers is orderly. -/
theorem orderly_of_jobs_eq_nil (hjobs : d.jobs = []) (hpending : d.engine.pending = none)
    (hcancels : ∀ g, d.agenda = some g → g.cancels = true ∧ d.engine.draining = false)
    (hrunning : d.engine.running = true → d.engine.status = .running) : d.Orderly where
  jobs := by simp [hjobs, hpending]
  cancels := hcancels
  running := hrunning
  inFlight _ := hpending
  paused _ _ := hpending

/-- Nothing is said of the log and of the part that belongs to the outside. -/
theorem Orderly.upheld_of_eq (h : d.Orderly) (hengine : d'.engine = d.engine)
    (hagenda : d'.agenda = d.agenda) : Upheld d d' := by
  have hjobs : d'.jobs = d.jobs := by rw [Desk.jobs, Desk.jobs, hagenda]
  refine ⟨⟨?_, ?_, ?_, ?_, ?_⟩, ?_, congrArg Option.isSome hagenda, ?_⟩
  · rw [hjobs, hengine]
    exact h.jobs
  · rw [hengine, hagenda]
    exact h.cancels
  · rw [hengine]
    exact h.running
  · rw [hengine]
    exact h.inFlight
  · rw [hengine]
    exact h.paused
  · unfold Covered
    rw [hengine]
    exact id
  · rw [hengine]
    exact id

theorem Orderly.upheld (h : d.Orderly) : Upheld d d :=
  h.upheld_of_eq rfl rfl

theorem Orderly.begun (h : d.Orderly) : d.begun.Orderly :=
  ⟨h.jobs, h.cancels, fun _ => rfl, h.inFlight, nofun⟩

theorem Orderly.confirmed (h : d.Orderly) : d.confirmed.Orderly :=
  ⟨h.jobs, h.cancels, h.running, nofun, h.paused⟩

/-- A call that begins with a change of the engine sees to the continuation itself. -/
theorem Upheld.covering {d₁ : Desk σ} (h : Upheld d₁ d') (hcovered : d'.Covered)
    (hagenda : d₁.agenda = d.agenda) (hdraining : d₁.engine.draining = d.engine.draining) :
    Upheld d d' where
  orderly := h.orderly
  covered _ := hcovered
  agenda := h.agenda.trans (congrArg Option.isSome hagenda)
  draining := hdraining ▸ h.draining

/-- What upholds the order twice upholds it. -/
theorem Upheld.trans {d'' : Desk σ} (h : Upheld d d') (h' : Upheld d' d'') : Upheld d d'' where
  orderly := h'.orderly
  covered := h'.covered ∘ h.covered
  agenda := h'.agenda.trans h.agenda
  draining := h.draining ∘ h'.draining

/-! ## The parts of a call -/

theorem cancels_cancelPending (h : d.Orderly) :
    ∀ g, d.cancelPending.agenda = some g → g.cancels = true ∧ d.engine.draining = false := by
  intro g hg
  have hsome : d.agenda.isSome = true := by rw [← isSome_agenda_cancelPending, hg]; rfl
  obtain ⟨g₀, hg₀⟩ := Option.isSome_iff_exists.1 hsome
  exact ⟨h.tracked.cancels_cancelPending g hg, (h.cancels g₀ hg₀).2⟩

/-- A pause ends the automatic run and takes its timer along. -/
theorem upheld_pause (h : d.Orderly) : Upheld d d.pause where
  orderly := by
    have hjobs : d.pause.jobs = d.cancelPending.jobs := rfl
    have hagenda : d.pause.agenda = d.cancelPending.agenda := rfl
    refine orderly_of_jobs_eq_nil (hjobs.trans h.tracked.jobs_cancelPending) rfl ?_ nofun
    rw [hagenda]
    exact cancels_cancelPending h
  covered _ := nofun
  agenda := isSome_agenda_cancelPending _
  draining := id

/-- A new run waits for no timer. -/
theorem upheld_reset (h : d.Orderly) (input : Option Text) : Upheld d (d.reset input) where
  orderly := orderly_of_jobs_eq_nil h.tracked.jobs_cancelPending rfl (cancels_cancelPending h) nofun
  covered _ := nofun
  agenda := isSome_agenda_cancelPending _
  draining := id

theorem upheld_load {a : Automaton} {input : Option Text} (h : d.Orderly)
    (hl : d.load a input = .ok d') : Upheld d d' := by
  obtain ⟨-, rfl⟩ := load_ok hl
  have h' : Orderly { d with engine := { d.engine with automaton := a } } :=
    ⟨h.jobs, h.cancels, h.running, h.inFlight, h.paused⟩
  exact (upheld_reset h' input).covering nofun rfl rfl

theorem upheld_observeLimit (h : d.Orderly) (hp : d.engine.pending = none) :
    Upheld d d.observeLimit := by
  unfold observeLimit
  split
  · exact ⟨orderly_of_jobs_eq_nil (h.jobs_eq_nil hp) hp h.cancels nofun, fun _ => nofun, rfl, id⟩
  · exact h.upheld

/-- A run that goes on with timers waits for one afterwards. -/
theorem upheld_scheduleNext (h : d.Orderly) (hf : d.engine.inFlight = false) :
    Upheld d d.scheduleNext ∧ (d.agenda.isSome = true → d.scheduleNext.Covered) := by
  unfold scheduleNext
  split
  case h_1 hg => exact ⟨h.upheld, by simp [hg]⟩
  case h_2 g hg =>
    split
    case isTrue hstop =>
      refine ⟨h.upheld, fun _ hrunning => ?_⟩
      simp only [hrunning, h.running hrunning, Status.isTerminal, Bool.not_true, Bool.or_false]
        at hstop
      exact Or.inr (Or.inl hstop)
    case isFalse hgo =>
      simp only [Bool.or_eq_true, not_or, Bool.not_eq_true, Option.isSome_eq_false_iff,
        Option.isNone_iff_eq_none] at hgo
      have hp : d.engine.pending = none := hgo.1.1
      split
      case isTrue hlimit =>
        refine ⟨upheld_observeLimit h hp, fun _ hrunning => ?_⟩
        simp [observeLimit, hlimit, note] at hrunning
      case isFalse =>
        have hasked := h.tracked.askTimer hg hp
        have hcovered : (d.askTimer g).Covered := fun _ => Or.inr (Or.inl rfl)
        refine ⟨⟨⟨hasked.jobs, ?_, h.running, ?_, ?_⟩, fun _ => hcovered,
          by simp [askTimer, hg], id⟩, fun _ => hcovered⟩
        · exact fun g' hg' => ⟨hasked.cancels g' hg', (h.cancels g hg).2⟩
        · intro hf'
          exact absurd hf' (by simp [askTimer, hf])
        · intro hrunning
          have hgoing : d.engine.running = true := by simpa using hgo.1.2
          exact absurd hrunning (by simp [askTimer, hgoing])

/-- After a step, the run has ended, is held, or waits for a timer. -/
theorem upheld_goOn (h : d.Orderly) :
    Upheld d d.goOn ∧ (d.agenda.isSome = true → d.goOn.Covered) := by
  unfold goOn
  split
  case isTrue hgo =>
    simp only [Bool.and_eq_true, Bool.not_eq_true'] at hgo
    exact upheld_scheduleNext h hgo.2
  case isFalse hstay =>
    refine ⟨h.upheld, fun _ hrunning => Or.inl ?_⟩
    simpa [hrunning] using hstay

/-- A step in flight holds the run. -/
theorem upheld_launch (h : d.Orderly) (hp : d.engine.pending = none) (ev : Event) :
    Upheld d (d.launch ev) := by
  unfold launch
  split
  · exact ⟨⟨h.jobs, h.cancels, h.running, fun _ => hp, h.paused⟩, fun _ _ => Or.inl rfl, rfl, id⟩
  · exact h.upheld

/-- A decision does not touch the timers. -/
theorem upheld_decide (h : d.Orderly) {ev : Event} (hx : d.decide = (.ok ev, d')) :
    Upheld d d' ∧ d'.engine.pending = d.engine.pending := by
  cases hd : d.engine.status.isTerminal with
  | true =>
    rw [decide_of_terminal hd] at hx
    obtain ⟨-, rfl⟩ := Prod.mk.inj hx
    exact ⟨h.upheld, rfl⟩
  | false =>
    obtain ⟨decision, log, hdecision, -, rfl⟩ := decide_ok hd hx
    refine ⟨⟨⟨h.jobs, h.cancels, ?_, h.inFlight, ?_⟩, ?_, rfl, id⟩, rfl⟩
    · intro hrunning
      simp only [Engine.moved, Bool.and_eq_true, Bool.not_eq_true'] at hrunning ⊢
      cases decision with
      | take t => rfl
      | halt status => exact absurd (isTerminal_of_halt hdecision) (Bool.eq_false_iff.1 hrunning.2)
    · intro hpaused hs'
      simp only [Engine.moved, Bool.and_eq_false_iff] at hpaused hs'
      have hpaused' : d.engine.running = false := by simpa [hs'] using hpaused
      exact h.paused hpaused' hd
    · intro hcovered hrunning
      simp only [Engine.moved, Bool.and_eq_true] at hrunning
      exact hcovered hrunning.1

/-- A timer that is due is the pending one, of the present run. -/
theorem orderly_woken_of_due (h : d.Orderly) {handle : Option Nat} {j : Job}
    (hj : (d.agenda.bind fun g => handle.elim g.oldest? g.job?) = some j) :
    (d.elapsed j).woken.Orderly ∧ j.task = .resume d.engine.generation ∧
      d.agenda.isSome = true := by
  obtain ⟨g, hg, hj⟩ := Option.bind_eq_some_iff.1 hj
  have hmem : j ∈ d.jobs := by
    simp only [Desk.jobs, hg, Option.map_some, Option.getD_some]
    cases handle with
    | none => exact List.mem_of_head? hj
    | some n => exact List.mem_of_find?_eq_some hj
  have htracked := h.tracked.elapsed hmem
  refine ⟨orderly_of_jobs_eq_nil (htracked.jobs_eq_nil rfl) rfl
    (fun g' hg' => ⟨htracked.cancels g' hg', (h.cancels g hg).2⟩) h.running,
    (h.tracked.eq_of_mem_jobs hmem).2.2, by rw [hg]; rfl⟩

end Desk

/-! ## Every call that returns -/

namespace Control

open Desk

variable {σ α β : Type} {d d' : Desk σ} {notify : Notify σ}

/-- If the computation returns, it has upheld what holds of the timers. -/
def Upholds (x : Control σ α) : Prop :=
  ∀ d, d.Orderly → ∀ r d', exec x d = (.ok r, d') → Upheld d d'

/-- A call that always answers upholds the order if its effect does. -/
theorem upholds_of_eq {x : Control σ α} {g : Desk σ → α} {f : Desk σ → Desk σ}
    (hx : ∀ d, exec x d = (.ok (g d), f d)) (hf : ∀ d, d.Orderly → Upheld d (f d)) :
    Upholds x := by
  intro d h r d' hr
  rw [hx] at hr
  obtain ⟨-, rfl⟩ := Prod.mk.inj hr
  exact hf d h

/-- Two calls in a row uphold the order if each does. -/
theorem upholds_bind {x : Control σ α} {f : α → Control σ β} (hx : Upholds x)
    (hf : ∀ a, Upholds (f a)) : Upholds (x >>= f) := by
  intro d h r d' hr
  obtain ⟨a, d₁, hfirst, hrest⟩ := exec_ok_of_bind hr
  have hupheld := hx d h a d₁ hfirst
  exact hupheld.trans (hf a d₁ hupheld.orderly r d' hrest)

/-- A step upholds the order if the listeners do. -/
theorem upheld_advance (hn : ∀ ev, Upholds (notify ev)) (h : d.Orderly)
    (hp : d.engine.pending = none) {ev : Event} (hx : exec (advance notify) d = (.ok ev, d')) :
    Upheld d d' ∧ (d.agenda.isSome = true → d'.Covered) := by
  obtain ⟨d₁, d₂, hdecide, htell, rfl⟩ := exec_ok_of_advance hx
  obtain ⟨hdecided, hp₁⟩ := upheld_decide h hdecide
  have hlaunched := upheld_launch hdecided.orderly (hp₁.trans hp) ev
  have htold := hn ev _ hlaunched.orderly _ _ htell
  have hsofar := (hdecided.trans hlaunched).trans htold
  obtain ⟨hgone, hcovered⟩ := upheld_goOn htold.orderly
  exact ⟨hsofar.trans hgone, fun hsome => hcovered (hsofar.agenda.trans hsome)⟩

/-- The loop that makes all steps at once ends when the run does, or waits for a confirmation. -/
theorem upheld_drainLoop (hn : ∀ ev, Upholds (notify ev)) :
    ∀ allowance (d : Desk σ), d.Orderly → d.agenda = none → ∀ r d',
      exec (drainLoop notify allowance) d = (.ok r, d') →
      d'.Orderly ∧ d'.agenda = none ∧
        (d'.engine.running = true → d'.engine.inFlight = true)
  | 0, _, _, _, _, _, hx => by simp [drainLoop] at hx
  | allowance + 1, d, h, hnone, r, d', hx => by
    have hp : d.engine.pending = none := by
      have hjobs := h.jobs
      simpa [Desk.jobs, hnone] using hjobs
    rw [exec_drainLoop_succ] at hx
    split at hx
    case isFalse hstop =>
      obtain ⟨-, rfl⟩ := Prod.mk.inj hx
      refine ⟨h, hnone, fun hrunning => ?_⟩
      simpa [hrunning, h.running hrunning, Status.isTerminal] using hstop
    case isTrue =>
      split at hx
      case isTrue hlimit =>
        obtain ⟨-, rfl⟩ := Prod.mk.inj hx
        have hobserved := upheld_observeLimit h hp
        refine ⟨hobserved.orderly, ?_, fun hrunning => ?_⟩
        · simpa [hnone] using hobserved.agenda
        · simp [observeLimit, hlimit, note] at hrunning
      case isFalse =>
        obtain ⟨ev, d₁, hadvance, hrest⟩ := exec_ok_of_bind hx
        obtain ⟨hmade, -⟩ := upheld_advance hn h hp hadvance
        have hnone₁ : d₁.agenda = none := by simpa [hnone] using hmade.agenda
        exact upheld_drainLoop hn allowance d₁ hmade.orderly hnone₁ r d' hrest

/-- A run without timers is over or held when its loop has ended. -/
theorem upheld_drain (hn : ∀ ev, Upholds (notify ev)) {allowance : Nat} (h : d.Orderly)
    (hnone : d.agenda = none) {r : Unit} (hx : exec (drain notify allowance) d = (.ok r, d')) :
    Upheld d d' ∧ d'.Covered := by
  rw [exec_drain] at hx
  obtain ⟨hloop, rfl⟩ := Prod.mk.inj hx
  have hbegin : (d.drains true).Orderly :=
    ⟨h.jobs, fun g hg => by simp [drains, hnone] at hg, h.running, h.inFlight, h.paused⟩
  obtain ⟨ho, ha, hflight⟩ :=
    upheld_drainLoop hn allowance (d.drains true) hbegin hnone r _ (Prod.ext hloop rfl)
  have hcovered : ((exec (drainLoop notify allowance) (d.drains true)).2.drains false).Covered :=
    fun hrunning => Or.inl (hflight hrunning)
  refine ⟨⟨⟨ho.jobs, fun g hg => ?_, ho.running, ho.inFlight, ho.paused⟩, fun _ => hcovered, ?_,
    nofun⟩, hcovered⟩
  · exact ⟨(ho.cancels g hg).1, rfl⟩
  · exact (congrArg Option.isSome ha).trans (congrArg Option.isSome hnone).symm

/-- A step by hand upholds the order. -/
theorem upholds_step (hn : ∀ ev, Upholds (notify ev)) : Upholds (step notify) := by
  intro d h r d' hx
  rw [exec_step] at hx
  split at hx
  · obtain ⟨-, rfl⟩ := Prod.mk.inj hx
    exact h.upheld_of_eq rfl rfl
  · split at hx
    · obtain ⟨-, rfl⟩ := Prod.mk.inj hx
      exact h.upheld
    · have hpaused := upheld_pause h
      obtain ⟨ev, hadvance⟩ := exec_ok_of_map hx
      exact hpaused.trans (upheld_advance hn hpaused.orderly rfl hadvance).1

/-- An automatic run upholds the order, whether it begins or not. -/
theorem upholds_run (hn : ∀ ev, Upholds (notify ev)) (allowance : Nat) :
    Upholds (run notify allowance) := by
  intro d h r d' hx
  rw [exec_run] at hx
  split at hx
  case isTrue =>
    obtain ⟨-, rfl⟩ := Prod.mk.inj hx
    exact h.upheld
  case isFalse hidle =>
    simp only [Bool.or_eq_true, not_or, Bool.not_eq_true] at hidle
    have hp : d.engine.pending = none := h.paused hidle.1.2 hidle.2
    split at hx
    · obtain ⟨-, rfl⟩ := Prod.mk.inj hx
      exact upheld_observeLimit h hp
    · split at hx
      case isTrue hnone =>
        obtain ⟨_, hdrain⟩ := exec_ok_of_map hx
        obtain ⟨hdrained, hcovered⟩ :=
          upheld_drain hn h.begun (Option.isNone_iff_eq_none.1 hnone) hdrain
        exact hdrained.covering hcovered rfl rfl
      case isFalse hsome =>
        obtain ⟨_, hadvance⟩ := exec_ok_of_map hx
        obtain ⟨hmade, hcovered⟩ := upheld_advance hn h.begun hp hadvance
        have hsome' : d.agenda.isSome = true := by simpa [Option.isSome_iff_ne_none] using hsome
        exact hmade.covering (hcovered hsome') rfl rfl

/-- A confirmation upholds the order, also one of an older run. -/
theorem upholds_acknowledge (hn : ∀ ev, Upholds (notify ev)) (allowance : Nat)
    (generation : Option Int) : Upholds (acknowledge notify allowance generation) := by
  intro d h r d' hx
  rw [exec_acknowledge] at hx
  split at hx
  case isTrue =>
    obtain ⟨-, rfl⟩ := Prod.mk.inj hx
    exact h.upheld
  case isFalse hflight =>
    simp only [Bool.not_eq_true', Bool.not_eq_false] at hflight
    have hp : d.engine.pending = none := h.inFlight hflight
    have hconfirmed := h.confirmed
    split at hx
    · obtain ⟨-, rfl⟩ := Prod.mk.inj hx
      exact h.upheld_of_eq rfl rfl
    · split at hx
      case isTrue hstay =>
        obtain ⟨-, rfl⟩ := Prod.mk.inj hx
        refine hconfirmed.upheld.covering (fun hrunning => Or.inr (Or.inr ?_)) rfl rfl
        have hrunning' : d.engine.running = true := hrunning
        have hdraining : d.engine.draining = true := by simpa [hrunning'] using hstay
        exact hdraining
      case isFalse =>
        split at hx
        case isTrue hnone =>
          obtain ⟨hdrained, hcovered⟩ :=
            upheld_drain hn hconfirmed (Option.isNone_iff_eq_none.1 hnone) hx
          exact hdrained.covering hcovered rfl rfl
        case isFalse hsome =>
          obtain ⟨-, rfl⟩ := Prod.mk.inj hx
          obtain ⟨hscheduled, hcovered⟩ := upheld_scheduleNext hconfirmed rfl
          have hsome' : d.agenda.isSome = true := by simpa [Option.isSome_iff_ne_none] using hsome
          exact hscheduled.covering (hcovered hsome') rfl rfl

/-- The timer that is due is the pending one, and of the present run. -/
theorem upheld_resume (hn : ∀ ev, Upholds (notify ev)) (h : d.woken.Orderly) {r : Unit}
    (hx : exec (resume notify d.engine.generation) d = (.ok r, d')) :
    Upheld d.woken d' ∧ (d.agenda.isSome = true → d'.Covered) := by
  rw [exec_resume] at hx
  split at hx
  case isTrue hstay =>
    obtain ⟨-, rfl⟩ := Prod.mk.inj hx
    refine ⟨h.upheld, fun _ hrunning => Or.inl ?_⟩
    have hrunning' : d.engine.running = true := hrunning
    have hflight : d.engine.inFlight = true := by simpa [hrunning'] using hstay
    exact hflight
  case isFalse =>
    obtain ⟨_, hadvance⟩ := exec_ok_of_map hx
    exact upheld_advance hn h rfl hadvance

/-- A timer that is due upholds the order. -/
theorem upholds_fire (hn : ∀ ev, Upholds (notify ev)) (handle : Option Nat) :
    Upholds (fire notify handle) := by
  intro d h r d' hx
  rw [exec_fire] at hx
  split at hx
  case h_1 =>
    obtain ⟨-, rfl⟩ := Prod.mk.inj hx
    exact h.upheld
  case h_2 j hj =>
    obtain ⟨hwoken, htask, hsome⟩ := orderly_woken_of_due h hj
    obtain ⟨_, hdue⟩ := exec_ok_of_map hx
    rw [exec_due, htask] at hdue
    obtain ⟨hresumed, hcovered⟩ := upheld_resume hn hwoken hdue
    have hagenda : (d.elapsed j).agenda.isSome = d.agenda.isSome := by simp [elapsed]
    exact ⟨hresumed.orderly, fun _ => hcovered (hagenda.trans hsome),
      hresumed.agenda.trans hagenda, hresumed.draining⟩

/-- A refused automaton upholds the order if what answers it does. -/
theorem upholds_tryLoad {a : Automaton} (input : Option Text) {handle : Fault → Control σ Unit}
    (hh : ∀ fault, Upholds (handle fault)) : Upholds (tryCatch (load a input) handle) := by
  intro d h r d' hx
  rw [exec_tryCatch, exec_load] at hx
  rcases hl : d.load a input with fault | d₁
  · rw [hl] at hx
    exact hh fault d h r d' hx
  · rw [hl] at hx
    obtain ⟨-, rfl⟩ := Prod.mk.inj hx
    exact upheld_load h hl

/-- If no listener raises a fault, every call of a play upholds what holds of the timers. -/
theorem Play.upholds {x : Control σ α} (h : Play false x) : Upholds x := by
  induction h with
  | ret a => exact upholds_of_eq (exec_pure a) fun d h => h.upheld
  | bind _ _ ihx ihf => exact upholds_bind ihx ihf
  | fail _ hraising => exact absurd hraising (by decide)
  | attempt hraising => exact absurd hraising (by decide)
  | look => exact upholds_of_eq exec_get fun d h => h.upheld
  | keep f => exact upholds_of_eq (exec_update _) fun d h => h.upheld_of_eq rfl rfl
  | log entries => exact upholds_of_eq (exec_update _) fun d h => h.upheld_of_eq rfl rfl
  | decide => exact fun d h r d' hx => (upheld_decide h hx).1
  | step _ ih => exact upholds_step ih
  | run allowance _ ih => exact upholds_run ih (allowance + 1)
  | pause => exact upholds_of_eq exec_pause fun d h => upheld_pause h
  | reset input => exact upholds_of_eq (exec_reset input) fun d h => upheld_reset h input
  | acknowledge allowance generation _ ih => exact upholds_acknowledge ih allowance generation
  | load _ hraising => exact absurd hraising (by decide)
  | tryLoad input _ _ ih => exact upholds_tryLoad input ih
  | fire handle _ ih => exact upholds_fire ih handle

end Control

/-! ## Between two calls -/

namespace Desk

variable {σ : Type} {d : Desk σ}

/-- What holds between two calls of the timers and of the state of a run. -/
structure Settled (d : Desk σ) : Prop where
  jobs : d.jobs.map Job.handle = d.engine.pending.toList
  running : d.engine.running = true →
    d.engine.status = .running ∧ (d.engine.inFlight = true ↔ d.jobs = [])
  inFlight : d.engine.inFlight = true → d.jobs = []
  paused : d.engine.running = false → d.engine.status.isTerminal = false → d.jobs = []
  untimed : d.agenda = none → d.engine.running = true → d.engine.inFlight = true

/-- Between two calls, a run that goes on is held or waits for its timer. -/
theorem Orderly.settled (h : d.Orderly) (hcovered : d.Covered)
    (hdraining : d.engine.draining = false) : d.Settled := by
  have hhandles := h.tracked.map_handle_jobs
  have hidle : d.engine.running = true → d.jobs = [] → d.engine.inFlight = true := by
    intro hrunning hjobs
    rcases hcovered hrunning with hflight | hpending | hdrain
    · exact hflight
    · obtain ⟨handle, hp⟩ := Option.isSome_iff_exists.1 hpending
      simp [hjobs, hp] at hhandles
    · exact absurd hdrain (by simp [hdraining])
  refine ⟨hhandles, ?_, ?_, ?_, ?_⟩
  · intro hrunning
    exact ⟨h.running hrunning, fun hflight => h.jobs_eq_nil (h.inFlight hflight), hidle hrunning⟩
  · exact fun hflight => h.jobs_eq_nil (h.inFlight hflight)
  · exact fun hpaused hstatus => h.jobs_eq_nil (h.paused hpaused hstatus)
  · intro hnone hrunning
    exact hidle hrunning (by simp [Desk.jobs, hnone])

/-- A new engine is in order. -/
theorem orderly_start {a : Automaton} {w : Text} {delay : Int} {manualAck : Bool}
    {maxSteps : Option Int} {agenda : Option Agenda} {owner : Nat} {outside : σ}
    (hcancels : ∀ g, agenda = some g → g.cancels = true ∧ g.jobs = [])
    (hd : Desk.start a w delay manualAck maxSteps agenda owner outside = .ok d) :
    d.Orderly ∧ d.Covered ∧ d.engine.draining = false := by
  obtain ⟨-, rfl⟩ := Desk.start_ok hd
  refine ⟨orderly_of_jobs_eq_nil ?_ rfl ?_ nofun, nofun, rfl⟩
  · cases agenda with
    | none => rfl
    | some g => exact (hcancels g rfl).2
  · exact fun g hg => ⟨(hcancels g hg).1, rfl⟩

end Desk

open Control in
/-- If no listener raises a fault, a sequence of calls returns, unless the loop of an engine without
timers never ends, and leaves an automatic run with one continuation and a run that is not automatic
with none. -/
theorem settled_of_play {σ α : Type} {a : Automaton} {w : Text} {delay : Int} {manualAck : Bool}
    {maxSteps : Option Int} {agenda : Option Agenda} {owner : Nat} {outside : σ} {d : Desk σ}
    {call : Control σ α} (ha : a.Typed)
    (hcancels : ∀ g, agenda = some g → g.cancels = true ∧ g.jobs = [])
    (hd : Desk.start a w delay manualAck maxSteps agenda owner outside = .ok d)
    (hplay : Play false call) :
    (∃ r, (exec call d).1 = .ok r) ∧ (exec call d).2.Settled ∨
      agenda = none ∧ (exec call d).1 = .error .exhausted := by
  obtain ⟨horderly, hcovered, hdraining⟩ := Desk.orderly_start hcancels hd
  have hsound := hplay.keeps d (Desk.recorded_start ha hd)
  rcases hx : exec call d with ⟨fault | r, d'⟩
  · rw [hx] at hsound
    rcases hsound.fault fault rfl with hraising | ⟨rfl, hnone⟩
    · exact absurd hraising (by decide)
    · exact Or.inr ⟨by simpa using hnone, rfl⟩
  · have hupheld := hplay.upholds d horderly r d' hx
    have hdraining' : d'.engine.draining = false :=
      Bool.eq_false_iff.2 (mt hupheld.draining (Bool.eq_false_iff.1 hdraining))
    exact Or.inl ⟨⟨r, rfl⟩, hupheld.orderly.settled (hupheld.covered hcovered) hdraining'⟩

open Control in
/-- The listener gives up the automatic run and begins it again inside the first event, and the
timer asked for then is due. -/
theorem settled_of_play_evenA :
    let quiet : Notify Unit := fun _ => pure ()
    let again : Notify Unit := fun ev => do
      if ev.snapshot.cursor = 1 then
        pause
        let _ ← run quiet 1
    let call : Control Unit (Option Nat) := do
      let _ ← run again 1
      fire again none
    Catalog.evenA.automaton.Typed ∧ Play false call ∧
      ∃ d, Desk.start Catalog.evenA.automaton "aabb" 200 false none (some (.empty true)) 0 () =
        .ok d ∧ (exec call d).2.engine.history.size = 3 ∧
          (exec call d).2.engine.pending = some 2 ∧ (exec call d).2.Settled := by
  intro quiet again call
  have hquiet : ∀ ev, Play false (quiet ev) := fun _ => .ret ()
  have hagain : ∀ ev, Play false (again ev) := by
    intro ev
    show Play false (if ev.snapshot.cursor = 1 then _ else _)
    split
    · exact .bind .pause fun _ => .bind (.run 0 hquiet) fun _ => .ret ()
    · exact .ret ()
  have ha : Catalog.evenA.automaton.Typed := by decide
  have hplay : Play false call := .bind (.run 0 hagain) fun _ => .fire none hagain
  refine ⟨ha, hplay, _, rfl, rfl, rfl, ?_⟩
  have hcancels : ∀ g, some (Agenda.empty true) = some g → g.cancels = true ∧ g.jobs = [] := by
    intro g hg
    obtain rfl := Option.some.inj hg
    exact ⟨rfl, rfl⟩
  rcases settled_of_play ha hcancels rfl hplay with ⟨-, hsettled⟩ | ⟨hnone, -⟩
  · exact hsettled
  · cases hnone

end AutomatonLab
