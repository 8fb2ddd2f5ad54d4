import AutomatonLab.Proofs.WindowSession
import AutomatonLab.Window.Desktop

/-!
# No timer is left behind

Of every timer that is asked for, the window or its engine keeps the handle until it is due or
cancelled (`Desk.Tended`). No fault changes this : a command that breaks off has changed the timers
only as far as it came. What is needed for it is that a step is made only while no other one is on
display, since the handle of the timer that ends a display would be lost with the next one
(`Desk.Idle`). Windows share their agenda, but none of them touches what another one asked for. So
the timers of a whole desktop are tended, whatever happens (`Desktop.tended_of_happenings`).
-/

namespace AutomatonLab

open Control

namespace Desk

variable {d d' : Desk Window} {k : Nat} {others : List Job}

/-! ## Handles that are kept -/

/-- The window or its engine keeps the handle of the timer. -/
def Knows (d : Desk Window) (j : Job) : Prop :=
  match j.task with
  | .settle _ => d.outside.settle = some j.handle
  | .resume _ => d.engine.pending = some j.handle

/-- A timer is known as before if its handle stays where it was kept. -/
theorem Knows.imp {j : Job} (h : d.Knows j)
    (hsettle : d.outside.settle = some j.handle → d'.outside.settle = some j.handle)
    (hpending : d.engine.pending = some j.handle → d'.engine.pending = some j.handle) :
    d'.Knows j := by
  unfold Knows at h ⊢
  split at h
  · exact hsettle h
  · exact hpending h

/-- The timers of window number `k` are known to it or to its engine. Those of other windows are
among `others`. -/
structure Tended (k : Nat) (others : List Job) (d : Desk Window) : Prop where
  owner : d.owner = k
  manualAck : d.engine.manualAck = true
  cancels : ∃ g, d.agenda = some g ∧ g.cancels = true
  known : ∀ j ∈ d.jobs, j.owner = k → d.Knows j
  confined : ∀ j ∈ d.jobs, j.owner ≠ k → j ∈ others
  displayed : d.outside.settle.isSome = true → d.engine.inFlight = true

/-- In addition, no step is on display. -/
structure Idle (k : Nat) (others : List Job) (d : Desk Window) : Prop
    extends Tended k others d where
  settle : d.outside.settle = none

/-- The two desks have the same timers and the same handles of them. -/
structure SameTimers (d d' : Desk Window) : Prop where
  owner : d'.owner = d.owner
  agenda : d'.agenda = d.agenda
  settle : d'.outside.settle = d.outside.settle
  manualAck : d'.engine.manualAck = d.engine.manualAck
  pending : d'.engine.pending = d.engine.pending
  inFlight : d'.engine.inFlight = d.engine.inFlight

/-- A desk stays tended if its timers are old ones, known as before. -/
theorem Tended.of_jobs (h : d.Tended k others) (howner : d'.owner = d.owner)
    (hmanual : d'.engine.manualAck = d.engine.manualAck)
    (hcancels : ∃ g, d'.agenda = some g ∧ g.cancels = true)
    (hjobs : ∀ j ∈ d'.jobs, j ∈ d.jobs ∧ (d.Knows j → d'.Knows j))
    (hdisplayed : d'.outside.settle.isSome = true → d'.engine.inFlight = true) :
    d'.Tended k others where
  owner := howner.trans h.owner
  manualAck := hmanual.trans h.manualAck
  cancels := hcancels
  known j hj hown := (hjobs j hj).2 (h.known j (hjobs j hj).1 hown)
  confined j hj := h.confined j (hjobs j hj).1
  displayed := hdisplayed

/-- A desk stays tended if its timers stay the same. -/
theorem Tended.sameTimers (h : d.Tended k others) (hd : SameTimers d d') :
    d'.Tended k others := by
  refine h.of_jobs hd.owner hd.manualAck (hd.agenda ▸ h.cancels) (fun j hj => ?_) ?_
  · have hjobs : d'.jobs = d.jobs := by rw [jobs, jobs, hd.agenda]
    exact ⟨hjobs ▸ hj, fun hknows => hknows.imp hd.settle.trans hd.pending.trans⟩
  · rw [hd.settle, hd.inFlight]
    exact h.displayed

theorem Idle.sameTimers (h : d.Idle k others) (hd : SameTimers d d') : d'.Idle k others :=
  ⟨h.toTended.sameTimers hd, hd.settle.trans h.settle⟩

/-- Without a step in flight there is none on display. -/
theorem Tended.idle (h : d.Tended k others) (hflight : d.engine.inFlight = false) :
    d.Idle k others := by
  refine ⟨h, ?_⟩
  rw [← Option.not_isSome_iff_eq_none]
  intro hsome
  simp [h.displayed hsome] at hflight

/-! ## Timers that are cancelled, due and asked for -/

/-- A timer that is given up is the only one that goes. -/
theorem mem_jobs_cancel {g : Agenda} {handle : Nat} {j : Job} (hcancels : g.cancels = true)
    (hd' : d'.agenda = some (g.cancel handle)) :
    j ∈ d'.jobs ↔ j ∈ g.jobs ∧ j.handle ≠ handle := by
  simp [jobs, hd', Agenda.cancel, hcancels, Agenda.remove]

/-- A tended desk whose display is taken back has no step on display, and its other timers are
known. -/
theorem Tended.undisplayed (h : d.Tended k others) : d.undisplayed.Idle k others := by
  obtain ⟨g, hg, hcancels⟩ := h.cancels
  refine ⟨?_, rfl⟩
  cases hs : d.outside.settle with
  | none =>
    have hagenda : d.undisplayed.agenda = d.agenda := by simp [Desk.undisplayed, hs]
    exact h.sameTimers ⟨rfl, hagenda, hs.symm, rfl, rfl, rfl⟩
  | some handle =>
    have hagenda : d.undisplayed.agenda = some (g.cancel handle) := by
      simp [Desk.undisplayed, hs, hg]
    refine h.of_jobs rfl rfl ⟨_, hagenda, by simp [Agenda.cancel, hcancels, Agenda.remove]⟩
      (fun j hj => ?_) fun hshown => by simp [Desk.undisplayed] at hshown
    obtain ⟨hmem, hne⟩ := (mem_jobs_cancel hcancels hagenda).1 hj
    exact ⟨by simpa [jobs, hg] using hmem, fun hknows => hknows.imp
      (fun hsome => absurd (Option.some.inj (hs.symm.trans hsome)).symm hne) fun hsome => hsome⟩

/-- The timer of the engine is taken away when it is given up. -/
theorem Tended.cancelPending (h : d.Tended k others) : d.cancelPending.Tended k others := by
  obtain ⟨g, hg, hcancels⟩ := h.cancels
  cases hp : d.engine.pending with
  | none =>
    have hagenda : d.cancelPending.agenda = d.agenda := by simp [Desk.cancelPending, hp]
    exact h.sameTimers ⟨rfl, hagenda, rfl, rfl, hp.symm, rfl⟩
  | some handle =>
    have hagenda : d.cancelPending.agenda = some (g.cancel handle) := by
      simp [Desk.cancelPending, hp, hg]
    refine h.of_jobs rfl rfl ⟨_, hagenda, by simp [Agenda.cancel, hcancels, Agenda.remove]⟩
      (fun j hj => ?_) h.displayed
    obtain ⟨hmem, hne⟩ := (mem_jobs_cancel hcancels hagenda).1 hj
    exact ⟨by simpa [jobs, hg] using hmem, fun hknows => hknows.imp (fun hsome => hsome)
      fun hsome => absurd (Option.some.inj (hp.symm.trans hsome)).symm hne⟩

/-- What the engine has in flight does not matter while no step is on display. -/
theorem Idle.congr (h : d.Idle k others) (howner : d'.owner = d.owner)
    (hagenda : d'.agenda = d.agenda) (hsettle : d'.outside.settle = d.outside.settle)
    (hmanual : d'.engine.manualAck = d.engine.manualAck)
    (hpending : d'.engine.pending = d.engine.pending) : d'.Idle k others := by
  have hnone : d'.outside.settle = none := hsettle.trans h.settle
  refine ⟨h.of_jobs howner hmanual (hagenda ▸ h.cancels) (fun j hj => ?_) ?_, hnone⟩
  · have hjobs : d'.jobs = d.jobs := by rw [jobs, jobs, hagenda]
    exact ⟨hjobs ▸ hj, fun hknows => hknows.imp hsettle.trans hpending.trans⟩
  · simp [hnone]

theorem Idle.cancelPending (h : d.Idle k others) : d.cancelPending.Idle k others :=
  ⟨h.toTended.cancelPending, h.settle⟩

/-- A new run leaves no step on display. -/
theorem Idle.reset (h : d.Idle k others) (input : Option Text) : (d.reset input).Idle k others :=
  h.cancelPending.congr rfl rfl rfl rfl rfl

/-- A new run of the window leaves no step on display. -/
theorem Tended.renewed (h : d.Tended k others) (input : Text) :
    (d.renewed input).Idle k others :=
  (h.undisplayed.reset (some input)).congr rfl rfl rfl rfl rfl

/-- A pause takes the timer of the engine away. -/
theorem Tended.pause (h : d.Tended k others) : d.pause.Tended k others :=
  have hstopped : ({ d with engine := { d.engine with running := false } } :
      Desk Window).Tended k others := h.sameTimers ⟨rfl, rfl, rfl, rfl, rfl, rfl⟩
  hstopped.cancelPending

/-- When the time of a display has come, no step is on display. -/
theorem Tended.elapsed_settled (h : d.Tended k others) {j : Job} (hj : j ∈ d.jobs)
    (hown : j.owner = k) {generation : Nat} (htask : j.task = .settle generation) :
    (d.elapsed j).settled.Idle k others := by
  obtain ⟨g, hg, hcancels⟩ := h.cancels
  have hsettle : d.outside.settle = some j.handle := by
    have hknows := h.known j hj hown
    rwa [Knows, htask] at hknows
  refine ⟨h.of_jobs rfl rfl ⟨g.elapse j, by simp [settled, elapsed, hg], hcancels⟩
    (fun i hi => ?_) nofun, rfl⟩
  obtain ⟨hmem, hne⟩ := List.mem_filter.1 (jobs_elapsed d j ▸ hi : i ∈ d.jobs.filter _)
  refine ⟨hmem, fun hknows => hknows.imp (fun hsome => ?_) fun hsome => hsome⟩
  rw [Option.some.inj (hsettle.symm.trans hsome)] at hne
  simp at hne

/-- When the time of a continuation has come, it is not waited for any more. -/
theorem Tended.elapsed_woken (h : d.Tended k others) {j : Job} (hj : j ∈ d.jobs)
    (hown : j.owner = k) {generation : Nat} (htask : j.task = .resume generation) :
    (d.elapsed j).woken.Tended k others := by
  obtain ⟨g, hg, hcancels⟩ := h.cancels
  have hpending : d.engine.pending = some j.handle := by
    have hknows := h.known j hj hown
    rwa [Knows, htask] at hknows
  refine h.of_jobs rfl rfl ⟨g.elapse j, by simp [woken, elapsed, hg], hcancels⟩
    (fun i hi => ?_) h.displayed
  obtain ⟨hmem, hne⟩ := List.mem_filter.1 (jobs_elapsed d j ▸ hi : i ∈ d.jobs.filter _)
  refine ⟨hmem, fun hknows => hknows.imp (fun hsome => hsome) fun hsome => ?_⟩
  rw [Option.some.inj (hpending.symm.trans hsome)] at hne
  simp at hne

/-- One more timer, of which the handle is kept in a place where no other one was. -/
theorem Tended.of_append (h : d.Tended k others) (howner : d'.owner = d.owner)
    (hmanual : d'.engine.manualAck = d.engine.manualAck) {j : Job} {g g' : Agenda}
    (hg : d.agenda = some g) (hg' : d'.agenda = some g') (hcancels : g'.cancels = g.cancels)
    (hjobs : g'.jobs = g.jobs ++ [j]) (hown : j.owner = d.owner) (hknows : d'.Knows j)
    (hkept : ∀ i, d.Knows i → d'.Knows i)
    (hdisplayed : d'.outside.settle.isSome = true → d'.engine.inFlight = true) :
    d'.Tended k others := by
  have hmem (i) (hi : i ∈ d'.jobs) : i ∈ d.jobs ∨ i = j := by
    simpa [jobs, hg, hg', hjobs] using hi
  refine ⟨howner.trans h.owner, hmanual.trans h.manualAck, ⟨g', hg', ?_⟩, fun i hi hiown => ?_,
    fun i hi hiown => ?_, hdisplayed⟩
  · obtain ⟨g₀, hg₀, hcancels₀⟩ := h.cancels
    rw [hcancels, Option.some.inj (hg.symm.trans hg₀), hcancels₀]
  · rcases hmem i hi with hi | rfl
    · exact hkept i (h.known i hi hiown)
    · exact hknows
  · rcases hmem i hi with hi | rfl
    · exact h.confined i hi hiown
    · exact absurd (hown.trans h.owner) hiown

/-- The timer that is asked for is the one that the engine waits for. -/
theorem Tended.askTimer (h : d.Tended k others) {g : Agenda} (hg : d.agenda = some g)
    (hpending : d.engine.pending = none) : (d.askTimer g).Tended k others := by
  refine h.of_append rfl rfl hg rfl rfl rfl rfl rfl (fun i hknows => ?_) h.displayed
  exact hknows.imp (fun hsome => hsome) fun hsome => absurd (hpending.symm.trans hsome) nofun

/-- The timer of a display is the one that the window waits for. -/
theorem Idle.settling (h : d.Idle k others) {g : Agenda} (hg : d.agenda = some g)
    (hflight : d.engine.inFlight = true) (generation : Nat) :
    (d.settling g generation).Tended k others := by
  refine h.of_append rfl rfl hg rfl rfl rfl rfl rfl (fun i hknows => ?_) fun _ => hflight
  exact hknows.imp (fun hsome => absurd (h.settle.symm.trans hsome) nofun) fun hsome => hsome

/-! ## How a run goes on -/

theorem sameTimers_observeLimit (d : Desk Window) : SameTimers d d.observeLimit := by
  unfold observeLimit
  split <;> exact ⟨rfl, rfl, rfl, rfl, rfl, rfl⟩

theorem sameTimers_decide (d : Desk Window) : SameTimers d d.decide.2 := by
  rw [decide]
  split
  · exact ⟨rfl, rfl, rfl, rfl, rfl, rfl⟩
  · split
    · exact ⟨rfl, rfl, rfl, rfl, rfl, rfl⟩
    case h_2 decision _ => cases decision <;> exact ⟨rfl, rfl, rfl, rfl, rfl, rfl⟩

/-- The next step gets a timer only if the engine waits for none. -/
theorem Tended.scheduleNext (h : d.Tended k others) : d.scheduleNext.Tended k others := by
  obtain ⟨g, hg, -⟩ := h.cancels
  rw [Desk.scheduleNext, hg]
  simp only
  split
  · exact h
  case isFalse hgo =>
    simp only [Bool.or_eq_true, not_or, Option.not_isSome_iff_eq_none] at hgo
    split
    · exact h.sameTimers d.sameTimers_observeLimit
    · exact h.askTimer hg hgo.1.1

theorem Idle.scheduleNext (h : d.Idle k others) : d.scheduleNext.Idle k others :=
  ⟨h.toTended.scheduleNext, by rw [d.outside_scheduleNext]; exact h.settle⟩

/-- Going on asks for one timer at most. -/
theorem Tended.goOn (h : d.Tended k others) : d.goOn.Tended k others := by
  unfold Desk.goOn
  split
  · exact h.scheduleNext
  · exact h

/-- An event asks for no timer, and a transition is in flight after it. -/
theorem Idle.launch (h : d.Idle k others) (ev : Event) :
    (d.launch ev).Idle k others ∧
      (ev.transition.isSome = true → (d.launch ev).engine.inFlight = true) := by
  unfold Desk.launch
  split
  case isTrue => exact ⟨h.congr rfl rfl rfl rfl rfl, fun _ => rfl⟩
  case isFalse hstay =>
    refine ⟨h, fun hsome => ?_⟩
    simp [hsome, h.manualAck] at hstay

end Desk

/-! ## Computations that tend the timers -/

namespace WindowControl

open Desk

variable {α β : Type} {P Q R : Desk Window → Prop} {x y : WindowControl α} {f : α → WindowControl β}
  {d : Desk Window} {k : Nat} {others : List Job}

/-- A call that begins with the first leaves the second, however it ends. -/
def Leaves (P Q : Desk Window → Prop) (x : WindowControl α) : Prop :=
  ∀ d, P d → Q (exec x d).2

/-- A property of the timers and their handles alone. -/
def AboutTimers (P : Desk Window → Prop) : Prop :=
  ∀ d d', SameTimers d d' → P d → P d'

theorem aboutTimers_tended : AboutTimers (Tended k others) := fun _ _ hd h => h.sameTimers hd

theorem aboutTimers_idle : AboutTimers (Idle k others) := fun _ _ hd h => h.sameTimers hd

/-- What the first part leaves has to do if the call breaks off there. -/
theorem Leaves.bind (hx : Leaves P Q x) (hQR : ∀ d, Q d → R d) (hf : ∀ a, Leaves Q R (f a)) :
    Leaves P R (x >>= f) := by
  intro d h
  have hleft := hx d h
  rw [exec_bind]
  rcases hr : exec x d with ⟨fault | a, d'⟩
  · rw [hr] at hleft
    exact hQR d' hleft
  · rw [hr] at hleft
    exact hf a d' hleft

theorem Leaves.andThen (hx : Leaves P Q x) (hf : ∀ a, Leaves Q Q (f a)) : Leaves P Q (x >>= f) :=
  hx.bind (fun _ h => h) hf

theorem Leaves.mono (hx : Leaves P Q x) (hQR : ∀ d, Q d → R d) : Leaves P R x :=
  fun d h => hQR _ (hx d h)

theorem tended_of_idle (d : Desk Window) (h : d.Idle k others) : d.Tended k others := h.toTended

theorem Leaves.of_idle (hx : Leaves (Tended k others) Q x) : Leaves (Idle k others) Q x :=
  fun d h => hx d h.toTended

theorem leaves_pure (a : α) : Leaves P P (pure a) := fun _ h => h

theorem leaves_throw (fault : Fault) : Leaves P P (throw fault : WindowControl α) := fun _ h => h

theorem leaves_window : Leaves P P window := fun _ h => h

theorem leaves_engine : Leaves P P engine := fun _ h => h

theorem leaves_ite {c : Prop} [Decidable c] (hx : Leaves P Q x) (hy : Leaves P Q y) :
    Leaves P Q (if c then x else y) := by
  split
  · exact hx
  · exact hy

namespace AboutTimers

theorem of_sameTimers (hP : AboutTimers P) (hx : ∀ d, SameTimers d (exec x d).2) : Leaves P P x :=
  fun d h => hP d _ (hx d) h

theorem updateWindow (hP : AboutTimers P) {f : Window → Window}
    (hf : ∀ w, (f w).settle = w.settle) : Leaves P P (updateWindow f) :=
  hP.of_sameTimers fun d => ⟨rfl, rfl, hf d.outside, rfl, rfl, rfl⟩

theorem redraw (hP : AboutTimers P) : Leaves P P redraw := by
  refine hP.of_sameTimers fun d => ?_
  have hpage := d.outside.samePage_redraw d.engine
  unfold Window.SamePage at hpage
  exact ⟨rfl, rfl, (congrArg Window.settle hpage :), rfl, rfl, rfl⟩

theorem logRow (hP : AboutTimers P) (text : Text) (colour : Option Text) :
    Leaves P P (logRow text colour) :=
  hP.of_sameTimers fun _ => ⟨rfl, rfl, rfl, rfl, rfl, rfl⟩

theorem clearRows (hP : AboutTimers P) : Leaves P P clearRows := hP.updateWindow fun _ => rfl

theorem say (hP : AboutTimers P) (text : Text) : Leaves P P (say text) :=
  hP.updateWindow fun _ => rfl

theorem showError (hP : AboutTimers P) (title text : Text) : Leaves P P (showError title text) :=
  hP.updateWindow fun _ => rfl

theorem ofOutcome (hP : AboutTimers P) (o : Outcome α) :
    Leaves P P (ofOutcome o : WindowControl α) := by
  have hnote : Leaves P P (Control.update fun d => d.note o.log) :=
    hP.of_sameTimers fun _ => ⟨rfl, rfl, rfl, rfl, rfl, rfl⟩
  refine hnote.andThen fun _ => ?_
  cases o.result with
  | ok a => exact leaves_pure a
  | error fault => exact leaves_throw fault

end AboutTimers

/-! ## Steps and timers -/

/-- The handle of the timer that ends the display of a step takes the place of no other one. -/
theorem tended_onStep (h : d.Idle k others) {ev : Event}
    (hflight : ev.transition.isSome = true → d.engine.inFlight = true) :
    (exec (onStep ev) d).2.Tended k others := by
  rw [onStep]
  cases hev : ev.transition with
  | none =>
    exact ((aboutTimers_tended.logRow _ _).andThen fun _ => aboutTimers_tended.redraw) d h.toTended
  | some t =>
    have hP : AboutTimers fun d => d.Idle k others ∧ d.engine.inFlight = true :=
      fun _ _ hd hidle => ⟨hidle.1.sameTimers hd, hd.inFlight.trans hidle.2⟩
    have hask : Leaves (fun d => d.Idle k others ∧ d.engine.inFlight = true) (Tended k others)
        (askSettle ev.generation) := by
      rintro d₁ ⟨hidle, hflight₁⟩
      obtain ⟨g, hg, -⟩ := hidle.cancels
      rw [exec_askSettle hg]
      exact hidle.settling hg hflight₁ ev.generation
    have hweaken (d₁ : Desk Window) (hd₁ : d₁.Idle k others ∧ d₁.engine.inFlight = true) :
        d₁.Tended k others := hd₁.1.toTended
    have hlight : Leaves _ _ (updateWindow fun w =>
        { w with highlight := some (t.source, t.target) }) := hP.updateWindow fun _ => rfl
    exact (hlight.bind hweaken fun _ => (hP.logRow _ _).bind hweaken fun _ =>
      hP.redraw.bind hweaken fun _ => hask) d ⟨h, hflight (Option.isSome_of_eq_some hev)⟩

/-- A step is put on display with a timer that is known. -/
theorem leaves_advance : Leaves (Idle k others) (Tended k others) (advance onStep) := by
  intro d h
  refine holds_advance (fun fault d₁ hdecide => ?_) (fun ev d₁ hdecide => ?_) fun _ h => h.goOn
  · have hsame := d.sameTimers_decide
    rw [hdecide] at hsame
    exact h.toTended.sameTimers hsame
  · have hsame := d.sameTimers_decide
    rw [hdecide] at hsame
    obtain ⟨hidle, hflight⟩ := (h.sameTimers hsame).launch ev
    exact tended_onStep hidle hflight

theorem leaves_engine_run (allowance : Nat) :
    Leaves (Idle k others) (Tended k others) (Control.run onStep allowance) := by
  intro d h
  obtain ⟨g, hg, -⟩ := h.cancels
  rw [exec_run, if_neg (c := d.agenda.isNone = true) (by simp [hg])]
  split
  · exact h.toTended
  · split
    · exact h.toTended.sameTimers d.sameTimers_observeLimit
    · exact leaves_advance d.begun (h.congr rfl rfl rfl rfl rfl)

theorem leaves_engine_step : Leaves (Tended k others) (Tended k others) (Control.step onStep) := by
  intro d h
  rw [exec_step]
  split
  · exact h.sameTimers ⟨rfl, rfl, rfl, rfl, rfl, rfl⟩
  case isFalse hflight =>
    have hflight' : d.pause.engine.inFlight = false := Bool.not_eq_true _ ▸ hflight
    split
    · exact h
    · exact leaves_advance d.pause (h.pause.idle hflight')

/-- A confirmation puts no step on display. -/
theorem leaves_acknowledge (allowance : Nat) (generation : Option Int) :
    Leaves (Idle k others) (Idle k others) (acknowledge onStep allowance generation) := by
  intro d h
  obtain ⟨g, hg, -⟩ := h.cancels
  have hconfirmed : d.confirmed.Idle k others := h.congr rfl rfl rfl rfl rfl
  rw [exec_acknowledge, if_neg (c := d.agenda.isNone = true) (by simp [hg])]
  split
  · exact h
  · split
    · exact h.sameTimers ⟨rfl, rfl, rfl, rfl, rfl, rfl⟩
    · split
      · exact hconfirmed
      · exact hconfirmed.scheduleNext

/-- A continuation leaves a tended desk, a stale one too. -/
theorem tended_resume (h : d.woken.Tended k others) (generation : Nat) :
    (exec (resume onStep generation) d).2.Tended k others := by
  rw [exec_resume]
  split
  · exact h
  case isFalse hgo =>
    simp only [Bool.or_eq_true, not_or, Bool.not_eq_true] at hgo
    exact leaves_advance d.woken (h.idle hgo.2)

/-- The end of a display leaves a tended desk. -/
theorem tended_settle (h : d.settled.Idle k others) (generation : Nat) :
    (exec (settle generation) d).2.Tended k others := by
  rw [settle, exec_bind_of_ok (exec_updateWindow _ d)]
  exact ((leaves_acknowledge 0 (some (generation : Int))).mono tended_of_idle).andThen
    (fun _ => aboutTimers_tended.redraw) d.settled h

/-- A timer of the window that is due has its handle given up. -/
theorem tended_due (h : d.Tended k others) {j : Job} (hj : j ∈ d.jobs) (hown : j.owner = k) :
    (exec (perform j.task) (d.elapsed j)).2.Tended k others := by
  cases htask : j.task with
  | resume generation => exact tended_resume (h.elapsed_woken hj hown htask) generation
  | settle generation => exact tended_settle (h.elapsed_settled hj hown htask) generation

/-! ## Commands -/

/-- Starting again takes the step on display away. -/
theorem leaves_restart (input : Text) : Leaves (Tended k others) (Idle k others) (restart input) :=
  fun _ h => h.renewed input

theorem leaves_run : Leaves (Tended k others) (Tended k others) WindowControl.run :=
  leaves_window.andThen fun w => (leaves_restart w.entry).bind tended_of_idle fun _ =>
    leaves_engine.bind tended_of_idle fun _ =>
      (aboutTimers_idle.logRow _ _).bind tended_of_idle fun _ =>
        (leaves_engine_run 0).andThen fun _ => aboutTimers_tended.redraw

theorem leaves_step : Leaves (Tended k others) (Tended k others) WindowControl.step := by
  have hgo : Leaves (Tended k others) (Tended k others) (do
      logRow ("Passo manual " ++ toString ((← engine).steps + 1) ++ ".") none
      let _ ← Control.step onStep
      redraw) :=
    leaves_engine.andThen fun _ => (aboutTimers_tended.logRow _ _).andThen fun _ =>
      leaves_engine_step.andThen fun _ => aboutTimers_tended.redraw
  refine leaves_engine.andThen fun _ => leaves_ite (leaves_pure ()) ?_
  refine leaves_engine.andThen fun _ => leaves_window.andThen fun _ => leaves_ite ?_ hgo
  exact leaves_window.andThen fun w => (leaves_restart w.entry).bind tended_of_idle fun _ =>
    hgo.of_idle

theorem leaves_pause : Leaves (Tended k others) (Tended k others) WindowControl.pause :=
  leaves_engine.andThen fun _ => leaves_ite
    (Leaves.andThen (fun _ h => h.pause) fun _ => aboutTimers_tended.say _) (leaves_pure ())

theorem leaves_restartFromEntry : Leaves (Tended k others) (Tended k others) restartFromEntry :=
  leaves_window.andThen fun w => ((leaves_restart w.entry).mono tended_of_idle).andThen fun _ =>
    aboutTimers_tended.clearRows.andThen fun _ =>
      (leaves_engine.andThen fun _ => leaves_pure _).andThen fun _ =>
        (aboutTimers_tended.logRow _ _).andThen fun _ =>
          (aboutTimers_tended.say _).andThen fun _ => aboutTimers_tended.redraw

theorem leaves_present (a : Automaton) (entry : Text) :
    Leaves (Tended k others) (Tended k others) (present a entry) := by
  refine Leaves.andThen ?_ fun _ => aboutTimers_tended.clearRows.andThen fun _ =>
    (aboutTimers_tended.logRow _ _).andThen fun _ => aboutTimers_tended.redraw
  exact aboutTimers_tended.updateWindow fun _ => rfl

theorem leaves_reset (input : Option Text) : Leaves (Idle k others) (Idle k others) (reset input) :=
  fun _ h => h.reset input

theorem leaves_load (a : Automaton) (input : Option Text) :
    Leaves (Idle k others) (Idle k others) (load a input) := by
  intro d h
  rw [exec_load]
  rcases hload : d.load a input with fault | d'
  · exact h
  · obtain ⟨-, rfl⟩ := Desk.load_ok hload
    have hchanged : ({ d with engine := { d.engine with automaton := a } } :
        Desk Window).Idle k others := h.congr rfl rfl rfl rfl rfl
    exact hchanged.reset input

/-- Whatever was changed of a run before its input was looked at, the timers of the old one are
cancelled. -/
theorem leaves_loadForeign (a : Automaton) (v : Json) :
    Leaves (Idle k others) (Idle k others) (loadForeign a v) := by
  have hforeign (foreign : Option ForeignInput) : Leaves (Idle k others) (Idle k others)
      (updateWindow fun w => { w with foreign := foreign }) :=
    aboutTimers_idle.updateWindow fun _ => rfl
  have hengine (g : Engine → Engine) (hmanual : ∀ e, (g e).manualAck = e.manualAck)
      (hpending : ∀ e, (g e).pending = e.pending) :
      Leaves (Idle k others) (Idle k others) (updateEngine g) :=
    fun d h => h.congr rfl rfl rfl (hmanual d.engine) (hpending d.engine)
  rw [loadForeign]
  refine Leaves.andThen (hengine _ (fun _ => rfl) fun _ => rfl) fun _ => ?_
  split
  · split
    · exact (leaves_reset _).andThen fun _ => hforeign _
    · refine Leaves.andThen (fun _ h => h.cancelPending) fun _ => ?_
      refine Leaves.andThen (hengine _ (fun _ => rfl) fun _ => rfl) fun _ => ?_
      exact Leaves.andThen (aboutTimers_idle.updateWindow fun _ => rfl) fun _ => leaves_throw _
  · exact (leaves_reset _).andThen fun _ => hforeign _

/-- Loading an input puts no step on display, whether it raises or not. -/
theorem leaves_loadInput (a : Automaton) (input : Json) :
    Leaves (Idle k others) (Idle k others) (loadInput a input) := by
  cases input with
  | str input =>
    exact (leaves_load _ _).andThen fun _ => aboutTimers_idle.updateWindow fun _ => rfl
  | null =>
    refine leaves_window.andThen fun w => ?_
    cases w.foreign with
    | none => exact leaves_load a none
    | some old => exact leaves_loadForeign a old.value
  | _ => exact leaves_loadForeign a _

/-- Entering a value that is no text leaves a tended desk, whether it can be shown or not. -/
theorem leaves_enterForeign (a : Automaton) (v : Json) :
    Leaves (Tended k others) (Tended k others) (enterForeign a v) := by
  refine Leaves.andThen (aboutTimers_tended.updateWindow fun _ => rfl) fun _ =>
    leaves_window.andThen fun w => ?_
  cases w.room.entries.enter v with
  | error fault => exact leaves_throw fault
  | ok shown => exact (leaves_present a shown).andThen fun _ => leaves_pure true

/-- Installing an automaton leaves a tended desk, whether it is refused, broken off or completed. -/
theorem leaves_install (a : Automaton) (input : Json) :
    Leaves (Tended k others) (Tended k others) (install a input) := by
  refine Leaves.bind (fun _ h => h.undisplayed) tended_of_idle fun _ => ?_
  cases a.validate with
  | error defect =>
    exact ((aboutTimers_tended.showError _ _).andThen fun _ => leaves_pure false).of_idle
  | ok =>
    refine ((leaves_loadInput a input).mono tended_of_idle).andThen fun _ => ?_
    cases input with
    | str entry => exact (leaves_present a entry).andThen fun _ => leaves_pure true
    | _ => exact leaves_enterForeign a _

theorem leaves_openExample (x : Example) :
    Leaves (Tended k others) (Tended k others) (openExample x) :=
  (leaves_install _ _).andThen fun _ => leaves_ite (aboutTimers_tended.say _) (leaves_pure ())

/-- A file that is opened leaves a tended desk, whatever is in it. -/
theorem leaves_openFile (path : String) :
    Leaves (Tended k others) (Tended k others) (openFile path) := by
  refine leaves_ite (leaves_pure ()) ?_
  refine leaves_window.andThen fun w => (aboutTimers_tended.ofOutcome _).andThen fun read => ?_
  rcases read with text | ⟨data, a⟩
  · exact aboutTimers_tended.showError _ _
  · refine (leaves_install _ _).andThen fun _ => leaves_ite ?_ (leaves_pure ())
    exact Leaves.andThen (aboutTimers_tended.updateWindow fun _ => rfl) fun _ =>
      aboutTimers_tended.say _

theorem leaves_saveFile (path : String) :
    Leaves (Tended k others) (Tended k others) (saveFile path) := by
  refine leaves_ite (leaves_pure ()) ?_
  refine leaves_window.andThen fun w => leaves_engine.andThen fun e => ?_
  simp only
  split
  · exact leaves_throw _
  · exact aboutTimers_tended.showError _ _
  · refine Leaves.andThen (aboutTimers_tended.updateWindow fun _ => rfl) fun _ => leaves_ite ?_ ?_
    · exact leaves_throw _
    · exact Leaves.andThen (aboutTimers_tended.updateWindow fun _ => rfl) fun _ =>
        aboutTimers_tended.say _

theorem leaves_hover (i : Nat) (x y : Int) :
    Leaves (Tended k others) (Tended k others) (hover i x y) := by
  refine aboutTimers_tended.updateWindow fun w => ?_
  cases w.buttons[i]? with
  | none => rfl
  | some b =>
    simp only
    split <;> rfl

theorem leaves_leave (i : Nat) : Leaves (Tended k others) (Tended k others) (leave i) := by
  refine aboutTimers_tended.updateWindow fun w => ?_
  cases w.buttons[i]? <;> rfl

/-- Every command of a window leaves a tended desk. -/
theorem leaves_command (command : WindowCommand) :
    Leaves (Tended k others) (Tended k others) command.perform := by
  cases command with
  | enterText text =>
    exact Leaves.andThen (aboutTimers_tended.updateWindow fun _ => rfl) fun _ => leaves_pure _
  | click button =>
    unfold WindowCommand.perform
    split
    any_goals contradiction
    · exact leaves_run.andThen fun _ => leaves_pure _
    · exact leaves_step.andThen fun _ => leaves_pure _
    · exact leaves_pause.andThen fun _ => leaves_pure _
    · exact leaves_restartFromEntry.andThen fun _ => leaves_pure _
    · exact leaves_pure _
  | openExample number =>
    simp only [WindowCommand.perform]
    split
    · exact (leaves_openExample _).andThen fun _ => leaves_pure _
    · exact leaves_pure _
  | openFile path => exact (leaves_openFile path).andThen fun _ => leaves_pure _
  | saveFile path =>
    exact (leaves_saveFile path).andThen fun _ => leaves_window.andThen fun _ => leaves_pure _
  | install source input =>
    exact (aboutTimers_tended.ofOutcome _).andThen fun a =>
      (leaves_install a input).andThen fun _ => leaves_pure _
  | resize size =>
    exact Leaves.andThen (aboutTimers_tended.updateWindow fun _ => rfl) fun _ =>
      aboutTimers_tended.redraw.andThen fun _ => leaves_pure _
  | hover i x y => exact (leaves_hover i x y).andThen fun _ => leaves_pure _
  | leave i => exact (leaves_leave i).andThen fun _ => leaves_pure _
  | vanish i =>
    exact Leaves.andThen (aboutTimers_tended.updateWindow fun _ => rfl) fun _ => leaves_pure _

end WindowControl

/-! ## Desktops -/

/-- What happens at a desktop : a window is opened or closed, a command is given while a window is
looked at, the tooltips get stuck, or a timer is due, whichever it is. -/
inductive Happening where
  | openWindow (formalism : Formalism)
  | closeWindow (k : Nat)
  | command (k : Nat) (command : WindowCommand)
  | jam
  | timer (handle : Nat)

namespace Desktop

/-- The desktop after something has happened, however it ended. -/
def next (t : Desktop) : Happening → Desktop
  | .openWindow formalism => (t.openWindow formalism).2
  | .closeWindow k => t.closeWindow k
  | .command k command => (t.onWindow k command.perform).2
  | .jam => t.jam
  | .timer handle =>
    match t.agenda.job? handle with
    | some j => (t.due j).2
    | none => t

/-- The desktop after a sequence of happenings. -/
def nextAll (t : Desktop) (hs : List Happening) : Desktop := hs.foldl next t

variable {t : Desktop} {d d' : Desk Window} {k : Nat}

/-- Every timer belongs to a window that was opened, and is known to it or to its engine. -/
structure Tended (t : Desktop) : Prop where
  cancels : t.agenda.cancels = true
  owners : ∀ j ∈ t.agenda.jobs, j.owner < t.windows.length
  windows : ∀ k d, t.windows[k]? = some d → (t.lend d).Tended k t.agenda.jobs

/-- A desktop without windows is tended. -/
theorem tended_empty (files : FileStore) (canvasSize : Option (Int × Int))
    (entries : EntryRule) : (empty files canvasSize entries).Tended :=
  ⟨rfl, nofun, fun k d hd => by simp [empty] at hd⟩

/-- A window to which nobody gives new timers knows those that are left. -/
theorem tended_lend {others : List Job} (h : d.Tended k others)
    (hcancels : t.agenda.cancels = true)
    (hjobs : ∀ j ∈ t.agenda.jobs, j.owner = k → j ∈ d.jobs) :
    (t.lend d).Tended k t.agenda.jobs where
  owner := h.owner
  manualAck := h.manualAck
  cancels := ⟨_, rfl, hcancels⟩
  known j hj hown := h.known j (hjobs j hj hown) hown
  confined _ hj _ := hj
  displayed := h.displayed

/-- A window stays tended on a desktop that has no new timer of it. -/
theorem tended_relend {t' : Desktop} (h : (t.lend d).Tended k t.agenda.jobs)
    (hcancels : t'.agenda.cancels = true)
    (hjobs : ∀ j ∈ t'.agenda.jobs, j.owner = k → j ∈ t.agenda.jobs) :
    (t'.lend d).Tended k t'.agenda.jobs := by
  have hlent : (t'.lend (t.lend d)).Tended k t'.agenda.jobs := tended_lend h hcancels hjobs
  exact hlent

/-- A window gives back what it has tended, and the other windows know their timers as before. -/
theorem Tended.restore (h : t.Tended) (hd : t.windows[k]? = some d)
    (hd' : d'.Tended k t.agenda.jobs) : (t.restore k d').Tended := by
  obtain ⟨g, hg, hcancels⟩ := hd'.cancels
  have hagenda : (t.restore k d').agenda = g := by simp [Desktop.restore, hg]
  have hk : k < t.windows.length := (List.getElem?_eq_some_iff.1 hd).1
  have hjobs (j) (hj : j ∈ (t.restore k d').agenda.jobs) : j ∈ d'.jobs := by
    rw [hagenda] at hj
    simpa [Desk.jobs, hg] using hj
  refine ⟨hagenda ▸ hcancels, fun j hj => ?_, fun i e he => ?_⟩
  · have hlength : (t.restore k d').windows.length = t.windows.length := List.length_set
    rw [hlength]
    by_cases hown : j.owner = k
    · rwa [hown]
    · exact h.owners j (hd'.confined j (hjobs j hj) hown)
  · by_cases hi : i = k
    · subst hi
      obtain rfl : d' = e := by
        have hset : (t.windows.set i d')[i]? = some e := he
        rw [List.getElem?_set_self hk] at hset
        exact Option.some.inj hset
      exact tended_lend hd' (hagenda ▸ hcancels) fun j hj _ => hjobs j hj
    · have hold : t.windows[i]? = some e := by
        have hset : (t.windows.set k d')[i]? = some e := he
        rwa [List.getElem?_set_ne (Ne.symm hi)] at hset
      refine tended_relend (h.windows i e hold) (hagenda ▸ hcancels) fun j hj hown => ?_
      exact hd'.confined j (hjobs j hj) fun hown' => hi (hown.symm.trans hown')

/-- A call on a window leaves a tended desktop if it does so for the desk of the window. -/
theorem Tended.onWindow {α : Type} (h : t.Tended) (k : Nat) {x : WindowControl α}
    (hx : ∀ others, WindowControl.Leaves (Desk.Tended k others) (Desk.Tended k others) x) :
    (t.onWindow k x).2.Tended := by
  rw [Desktop.onWindow]
  cases hd : t.windows[k]? with
  | none => exact h
  | some d => exact h.restore hd (hx _ _ (h.windows k d hd))

/-- A timer that is due leaves a tended desktop. -/
theorem Tended.due (h : t.Tended) {j : Job} (hj : j ∈ t.agenda.jobs) : (t.due j).2.Tended := by
  obtain ⟨d, hd⟩ : ∃ d, t.windows[j.owner]? = some d :=
    ⟨_, List.getElem?_eq_getElem (h.owners j hj)⟩
  have hd' := WindowControl.tended_due (h.windows j.owner d hd) hj rfl
  obtain ⟨g, hg, -⟩ := hd'.cancels
  have hdue : (t.due j).2 = t.restore j.owner
      (exec (WindowControl.perform j.task) ((t.lend d).elapsed j)).2 := by
    have hlent : ({ t with agenda := t.agenda.elapse j } : Desktop).lend d =
      (t.lend d).elapsed j := rfl
    simp only [Desktop.due, Desktop.onWindow, hd, hlent, Desktop.restore, hg, Option.getD_some]
  rw [hdue]
  exact h.restore hd hd'

/-- A new window has no timers. -/
theorem Tended.opened (h : t.Tended) {a : Automaton} {input : Text}
    (hd : t.newDesk a input = .ok d) :
    ({ t with windows := t.windows ++ [d], room := d.outside.room, log := d.log ++ t.log } :
      Desktop).Tended := by
  obtain ⟨-, rfl⟩ := Desk.start_ok hd
  refine ⟨h.cancels, fun j hj => ?_, fun i e he => ?_⟩
  · exact Nat.lt_of_lt_of_le (h.owners j hj) (by simp)
  · rcases Nat.lt_trichotomy i t.windows.length with hlt | rfl | hgt
    · have hold : t.windows[i]? = some e := by rwa [List.getElem?_append_left hlt] at he
      exact tended_relend (h.windows i e hold) h.cancels fun j hj _ => hj
    · obtain rfl : _ = e := Option.some.inj (by simpa using he)
      refine ⟨rfl, rfl, ⟨_, rfl, h.cancels⟩, fun j hj hown => ?_, fun j hj _ => hj, nofun⟩
      exact absurd hown (Nat.ne_of_lt (h.owners j hj))
    · rw [List.getElem?_eq_none (by simp; omega)] at he
      cases he

/-- Whether or not there is an example to show, a new window leaves a tended desktop. -/
theorem Tended.openWindow (h : t.Tended) (formalism : Formalism) :
    (t.openWindow formalism).2.Tended := by
  unfold Desktop.openWindow
  split
  · exact h
  · simp only
    split
    · exact h
    case h_2 d hd => exact (h.opened hd).onWindow _ fun _ => WindowControl.leaves_present _ _

/-- The timers of a window that is closed go with it, and the others stay known. -/
theorem Tended.closeWindow (h : t.Tended) (k : Nat) : (t.closeWindow k).Tended := by
  have hfewer (j) (hj : j ∈ (t.closeWindow k).agenda.jobs) : j ∈ t.agenda.jobs :=
    List.mem_of_mem_filter hj
  exact ⟨h.cancels, fun j hj => h.owners j (hfewer j hj), fun i e he =>
    tended_relend (h.windows i e he) h.cancels fun j hj _ => hfewer j hj⟩

theorem Tended.jam (h : t.Tended) : t.jam.Tended := by
  refine ⟨h.cancels, fun j hj => ?_, fun i e he => ?_⟩
  · have hlength : t.jam.windows.length = t.windows.length := List.length_map _
    rw [hlength]
    exact h.owners j hj
  · obtain ⟨d, hd, rfl⟩ := Option.map_eq_some_iff.1 ((List.getElem?_map ..).symm.trans he)
    exact (h.windows i d hd).sameTimers ⟨rfl, rfl, rfl, rfl, rfl, rfl⟩

/-- Every happening leaves a tended desktop. -/
theorem Tended.next (h : t.Tended) (happening : Happening) : (t.next happening).Tended := by
  cases happening with
  | openWindow formalism => exact h.openWindow formalism
  | closeWindow k => exact h.closeWindow k
  | command k command => exact h.onWindow k fun _ => WindowControl.leaves_command command
  | jam => exact h.jam
  | timer handle =>
    rw [Desktop.next]
    cases hjob : t.agenda.job? handle with
    | none => exact h
    | some j => exact h.due (List.mem_of_find?_eq_some hjob)

/-- Every sequence of happenings leaves a tended desktop. -/
theorem Tended.nextAll (h : t.Tended) (hs : List Happening) : (t.nextAll hs).Tended := by
  induction hs generalizing t with
  | nil => exact h
  | cons happening hs ih => exact ih (h.next happening)

/-- Whatever has happened at a desktop, no timer is left that its window or the engine of its window
does not know. -/
theorem tended_of_happenings (files : FileStore) (canvasSize : Option (Int × Int))
    (entries : EntryRule) (hs : List Happening) :
    ((empty files canvasSize entries).nextAll hs).Tended :=
  (tended_empty files canvasSize entries).nextAll hs

end Desktop

end AutomatonLab
