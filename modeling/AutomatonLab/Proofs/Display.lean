import AutomatonLab.Proofs.AutomaticRun
import AutomatonLab.Proofs.Drawing
import AutomatonLab.Proofs.Requests
import AutomatonLab.Proofs.Verdict
import AutomatonLab.Window.Commands

/-!
# A window and the timers of its engine

A window and its engine ask the same agenda for timers : the engine for the one that continues an
automatic run, the window for the one that ends the display of a step and confirms it. At most one of
the two is there (`Desk.Stands`), and an automatic run always waits for one (`Desk.Steady`).
-/

namespace AutomatonLab

/-- The ends of the transition that was made last, if the last event is a transition. -/
def Engine.lastEnds (e : Engine) : Option (Text × Text) :=
  (e.history.back?.bind Event.transition).map fun t => (t.source, t.target)

namespace Desk

/-- The timers with their handles. -/
def timers {σ : Type} (d : Desk σ) : List (Nat × Task) :=
  d.jobs.map fun j => (j.handle, j.task)

/-- The timers of an engine depend on the agenda only. -/
theorem timers_congr {σ : Type} {d d' : Desk σ} (h : d'.agenda = d.agenda) :
    d'.timers = d.timers := by
  rw [timers, timers, jobs, jobs, h]

variable {d d' : Desk Window} {s : Status} {shown waiting : Option Nat}

/-- The engine has the record of a computation with the status `s`, and the window can show it. The
timers are the one that ends the display of the last step, `shown`, and the one that continues the
automatic run, `waiting`, but not both. -/
structure Stands (s : Status) (shown waiting : Option Nat) (d : Desk Window) : Prop where
  records : d.engine.Records s
  fits : d.outside.Fits d.engine
  manualAck : d.engine.manualAck = true
  draining : d.engine.draining = false
  cancels : ∃ g, d.agenda = some g ∧ g.cancels = true
  settle : d.outside.settle = shown
  pending : d.engine.pending = waiting
  apart : shown = none ∨ waiting = none
  timers : d.timers = (shown.toList.map fun h => (h, .settle d.engine.generation)) ++
    waiting.toList.map fun h => (h, .resume d.engine.generation)
  highlight : d.outside.highlight = shown.bind fun _ => d.engine.lastEnds

/-- What holds between two commands or timers. -/
structure Steady (d : Desk Window) : Prop where
  stands : d.Stands d.engine.status d.outside.settle d.engine.pending
  stopped : d.Stopped
  shown : d.outside.settle.isSome = true →
    d.engine.inFlight = true ∧ d.engine.lastEnds.isSome = true
  inFlight : d.engine.inFlight = true → d.engine.pending = none
  continued : d.engine.running = true → d.engine.inFlight = true ∨ d.engine.pending.isSome = true

/-- A step in flight is on display, and will be confirmed. -/
def Shown (d : Desk Window) : Prop :=
  d.engine.inFlight = true → d.outside.settle.isSome = true

/-! ## What does not matter for the timers -/

/-- The two desks differ at most in the log and in texts and pictures of the window. -/
structure SameView (d d' : Desk Window) : Prop where
  engine : d'.engine = d.engine
  agenda : d'.agenda = d.agenda
  settle : d'.outside.settle = d.outside.settle
  highlight : d'.outside.highlight = d.outside.highlight
  places : d'.outside.places = d.outside.places
  foreign : d'.outside.foreign = d.outside.foreign
  room : d'.outside.room = d.outside.room

theorem SameView.trans {d'' : Desk Window} (h : SameView d d') (h' : SameView d' d'') :
    SameView d d'' where
  engine := h'.engine.trans h.engine
  agenda := h'.agenda.trans h.agenda
  settle := h'.settle.trans h.settle
  highlight := h'.highlight.trans h.highlight
  places := h'.places.trans h.places
  foreign := h'.foreign.trans h.foreign
  room := h'.room.trans h.room

/-- A window that looks the same can show the engine as well. -/
theorem SameView.fits (h : SameView d d') (hf : d.outside.Fits d.engine) :
    d'.outside.Fits d'.engine := by
  rw [h.engine]
  exact hf.congr rfl hf.cursor h.places h.foreign h.room

/-- How the engine waits does not depend on the panels. -/
theorem Stands.sameView (h : d.Stands s shown waiting) (hd : SameView d d') :
    d'.Stands s shown waiting where
  records := hd.engine ▸ h.records
  fits := hd.fits h.fits
  manualAck := hd.engine ▸ h.manualAck
  draining := hd.engine ▸ h.draining
  cancels := hd.agenda ▸ h.cancels
  settle := hd.settle.trans h.settle
  pending := hd.engine ▸ h.pending
  apart := h.apart
  timers := by
    rw [timers_congr hd.agenda, hd.engine]
    exact h.timers
  highlight := by
    rw [hd.highlight, hd.engine]
    exact h.highlight

theorem Steady.sameView (h : d.Steady) (hd : SameView d d') : d'.Steady where
  stands := by
    rw [hd.engine, hd.settle]
    exact h.stands.sameView hd
  stopped := by
    unfold Stopped
    rw [hd.engine]
    exact h.stopped
  shown := by
    rw [hd.settle, hd.engine]
    exact h.shown
  inFlight := by
    rw [hd.engine]
    exact h.inFlight
  continued := by
    rw [hd.engine]
    exact h.continued

theorem Shown.sameView (h : d.Shown) (hd : SameView d d') : d'.Shown := by
  unfold Shown
  rw [hd.engine, hd.settle]
  exact h

/-- The desk with a new row in the log of the window. -/
def logged (d : Desk Window) (text : Text) (colour : Option Text) : Desk Window :=
  { d.note [Decision.debug text] with outside := d.outside.addRow text colour }

/-- The desk when everything has been drawn again. -/
def redrawn (d : Desk Window) : Desk Window :=
  { d with outside := (d.outside.redraw d.engine).2 }

theorem sameView_logged (d : Desk Window) (text : Text) (colour : Option Text) :
    SameView d (d.logged text colour) :=
  ⟨rfl, rfl, rfl, rfl, rfl, rfl, rfl⟩

theorem sameView_redrawn (h : d.outside.Fits d.engine) : SameView d d.redrawn := by
  obtain ⟨w, hw, hpage⟩ := h.exists_redraw
  have hredrawn : d.redrawn = { d with outside := w } := by rw [redrawn, hw]
  unfold Window.SamePage at hpage
  rw [hredrawn]
  exact ⟨rfl, rfl, (congrArg Window.settle hpage :), (congrArg Window.highlight hpage :),
    (congrArg Window.places hpage :), (congrArg Window.foreign hpage :),
    (congrArg Window.room hpage :)⟩

/-! ## What changes the timers -/

/-- The desk when the display of a step has ended without a confirmation. -/
def undisplayed (d : Desk Window) : Desk Window :=
  { d with
    agenda := match d.outside.settle with
      | some handle => d.agenda.map fun g => g.cancel handle
      | none => d.agenda
    outside := { d.outside with settle := none, highlight := none } }

/-- A timer that is cancelled is the only one that goes. -/
theorem timers_cancel {g : Agenda} (hg : d.agenda = some g) (hcancels : g.cancels = true)
    (handle : Nat) (hd' : d'.agenda = some (g.cancel handle)) :
    d'.timers = d.timers.filter fun t => t.1 != handle := by
  have hjobs : d'.jobs = d.jobs.filter fun j => j.handle != handle := by
    simp [jobs, hg, hd', Agenda.cancel, hcancels, Agenda.remove]
  rw [timers, hjobs, timers, List.filter_map]
  rfl

/-- A timer that is due is the only one that goes. -/
theorem timers_elapsed (d : Desk Window) (j : Job) :
    (d.elapsed j).timers = d.timers.filter fun t => t.1 != j.handle := by
  rw [timers, jobs_elapsed, timers, List.filter_map]
  rfl

/-- The window and its engine wait for no timer. -/
theorem stands_of_timers_eq_nil (hrecords : d.engine.Records s) (hfits : d.outside.Fits d.engine)
    (hmanual : d.engine.manualAck = true) (hdraining : d.engine.draining = false)
    (hcancels : ∃ g, d.agenda = some g ∧ g.cancels = true) (hsettle : d.outside.settle = none)
    (hpending : d.engine.pending = none) (htimers : d.timers = [])
    (hhighlight : d.outside.highlight = none) : d.Stands s none none :=
  ⟨hrecords, hfits, hmanual, hdraining, hcancels, hsettle, hpending, Or.inl rfl, htimers,
    hhighlight⟩

namespace Stands

/-- The end of a display takes its timer along. -/
theorem undisplayed (h : d.Stands s shown waiting) : d.undisplayed.Stands s none waiting := by
  obtain ⟨g, hg, hcancels⟩ := h.cancels
  have hfits : d.undisplayed.outside.Fits d.undisplayed.engine :=
    h.fits.congr rfl h.fits.cursor rfl rfl rfl
  cases hs : d.outside.settle with
  | none =>
    obtain rfl : shown = none := h.settle.symm.trans hs
    have hagenda : d.undisplayed.agenda = d.agenda := by simp [Desk.undisplayed, hs]
    refine ⟨h.records, hfits, h.manualAck, h.draining, hagenda ▸ h.cancels, rfl, h.pending,
      Or.inl rfl, (timers_congr hagenda).trans h.timers, rfl⟩
  | some handle =>
    obtain rfl : shown = some handle := h.settle.symm.trans hs
    obtain rfl : waiting = none := h.apart.resolve_left nofun
    have hagenda : d.undisplayed.agenda = some (g.cancel handle) := by
      simp [Desk.undisplayed, hs, hg]
    have htimers : d.undisplayed.timers = [] := by
      rw [timers_cancel hg hcancels handle hagenda, h.timers]
      simp
    refine stands_of_timers_eq_nil h.records hfits h.manualAck h.draining
      ⟨_, hagenda, ?_⟩ rfl h.pending htimers rfl
    simp [Agenda.cancel, hcancels, Agenda.remove]

/-- The timer of the engine is given up, and that of the display stays. -/
theorem cancelPending (h : d.Stands s shown waiting) : d.cancelPending.Stands s shown none := by
  obtain ⟨g, hg, hcancels⟩ := h.cancels
  have hrecords : d.cancelPending.engine.Records s := h.records.sameRun rfl
  have hfits : d.cancelPending.outside.Fits d.cancelPending.engine :=
    h.fits.congr rfl h.fits.cursor rfl rfl rfl
  cases hp : d.engine.pending with
  | none =>
    obtain rfl : waiting = none := h.pending.symm.trans hp
    have hagenda : d.cancelPending.agenda = d.agenda := by simp [Desk.cancelPending, hp]
    refine ⟨hrecords, hfits, h.manualAck, h.draining, hagenda ▸ h.cancels, h.settle, rfl,
      Or.inr rfl, (timers_congr hagenda).trans h.timers, h.highlight⟩
  | some handle =>
    obtain rfl : waiting = some handle := h.pending.symm.trans hp
    obtain rfl : shown = none := h.apart.resolve_right nofun
    have hagenda : d.cancelPending.agenda = some (g.cancel handle) := by
      simp [Desk.cancelPending, hp, hg]
    have htimers : d.cancelPending.timers = [] := by
      rw [timers_cancel hg hcancels handle hagenda, h.timers]
      simp
    refine stands_of_timers_eq_nil hrecords hfits h.manualAck h.draining
      ⟨_, hagenda, ?_⟩ h.settle rfl htimers h.highlight
    simp [Agenda.cancel, hcancels, Agenda.remove]

/-- The engine goes on where no timer is waited for, and asks for none. -/
theorem goingOn (h : d.Stands s none none) {e : Engine} {s' : Status} (hrecords : e.Records s')
    (hautomaton : e.automaton = d.engine.automaton) (hmanual : e.manualAck = d.engine.manualAck)
    (hdraining : e.draining = d.engine.draining) (hpending : e.pending = none)
    (log : List LogEntry) :
    ({ d with engine := e, log := log } : Desk Window).Stands s' none none :=
  stands_of_timers_eq_nil hrecords
    (h.fits.congr hautomaton hrecords.computation.cursor_nonneg rfl rfl rfl)
    (hmanual.trans h.manualAck) (hdraining.trans h.draining) h.cancels h.settle hpending h.timers
    h.highlight

/-- Another run begins, if no step is on display. -/
theorem loaded (h : d.Stands s none waiting) {a : Automaton} (ha : a.Typed)
    (hv : a.validate = .ok ()) (input : Option Text) {w : Window}
    (hplaces : w.places = Diagram.circle a.states) (hforeign : w.foreign = none)
    (hsettle : w.settle = none) (hhighlight : w.highlight = none)
    (hroom : w.room = d.outside.room) :
    ({ d.loaded a input with outside := w } : Desk Window).Stands .ready none none := by
  have hcancelled := h.cancelPending
  refine stands_of_timers_eq_nil (Engine.records_start ha rfl rfl rfl rfl)
    ⟨ha, Automaton.validate_eq_ok_iff.1 hv, Int.le_refl 0, hplaces, hforeign, ?_⟩ h.manualAck
    h.draining hcancelled.cancels hsettle rfl hcancelled.timers hhighlight
  rw [hroom]
  exact h.fits.size

/-- A timer that is there is one of the two. -/
theorem elapsed (h : d.Stands s shown waiting) {j : Job} (hj : j ∈ d.jobs) :
    (d.elapsed j).timers = [] ∧
      (shown = some j.handle ∧ waiting = none ∧ j.task = .settle d.engine.generation ∨
        shown = none ∧ waiting = some j.handle ∧ j.task = .resume d.engine.generation) := by
  have hmem : (j.handle, j.task) ∈ d.timers := List.mem_map_of_mem hj
  rw [timers_elapsed, h.timers]
  rw [h.timers] at hmem
  rcases h.apart with rfl | rfl
  · cases waiting with
    | none => simp at hmem
    | some handle =>
      obtain ⟨rfl, htask⟩ : j.handle = handle ∧ j.task = .resume d.engine.generation := by
        simpa using hmem
      exact ⟨by simp, Or.inr ⟨rfl, rfl, htask⟩⟩
  · cases shown with
    | none => simp at hmem
    | some handle =>
      obtain ⟨rfl, htask⟩ : j.handle = handle ∧ j.task = .settle d.engine.generation := by
        simpa using hmem
      exact ⟨by simp, Or.inl ⟨rfl, rfl, htask⟩⟩

end Stands

/-- The desk when a timer has been asked for that ends the display of a step. -/
def settling (d : Desk Window) (g : Agenda) (generation : Nat) : Desk Window :=
  { d with
    agenda := some (g.add WindowControl.displayTime d.owner (.settle generation))
    outside := { d.outside with settle := some (g.issued + 1) } }

/-- The desk when the transition from `source` to `target` is highlighted. -/
def lit (d : Desk Window) (source target : Text) : Desk Window :=
  { d with outside := { d.outside with highlight := some (source, target) } }

/-- The transition that was made last is put on display. -/
theorem Stands.settling (h : d.Stands s none none) {g : Agenda} (hg : d.agenda = some g)
    {source target : Text} (hends : d.engine.lastEnds = some (source, target))
    (hd : SameView (d.lit source target) d') :
    (d'.settling g d.engine.generation).Stands s (some (g.issued + 1)) none := by
  have hengine : d'.engine = d.engine := hd.engine
  have hfits : (d.lit source target).outside.Fits d.engine :=
    h.fits.congr rfl h.fits.cursor rfl rfl rfl
  have hfits' : d'.outside.Fits d'.engine := hd.fits hfits
  refine ⟨hengine ▸ h.records, hfits'.congr rfl hfits'.cursor rfl rfl rfl, hengine ▸ h.manualAck,
    hengine ▸ h.draining, ?_, rfl, hengine ▸ h.pending, Or.inr rfl, ?_, ?_⟩
  · obtain ⟨g', hg', hcancels⟩ := h.cancels
    obtain rfl := Option.some.inj (hg.symm.trans hg')
    exact ⟨_, rfl, hcancels⟩
  · have hnone : g.jobs = [] := by simpa [Desk.timers, jobs, hg] using h.timers
    simp [Desk.timers, jobs, Desk.settling, Agenda.add, hnone, hengine]
  · show d'.outside.highlight = d'.engine.lastEnds
    rw [hd.highlight, hengine, hends]
    rfl

/-- Without a step on display and an automatic run, nothing is waited for. -/
theorem steady_of_idle (h : d.Stands d.engine.status none none)
    (hflight : d.engine.inFlight = false) (hrunning : d.engine.running = false) :
    d.Steady ∧ d.Shown := by
  refine ⟨⟨?_, fun _ => hrunning, fun hs => ?_, fun _ => h.pending, fun hr => ?_⟩, fun hf => ?_⟩
  · rw [h.settle, h.pending]
    exact h
  · simp [h.settle] at hs
  · simp [hrunning] at hr
  · simp [hflight] at hf

/-- A step on display waits for the timer that ends it. -/
theorem steady_of_displayed {handle : Nat} (h : d.Stands d.engine.status (some handle) none)
    (hs : d.engine.status.isTerminal = false) (hflight : d.engine.inFlight = true)
    (hends : d.engine.lastEnds.isSome = true) : d.Steady ∧ d.Shown := by
  refine ⟨⟨?_, fun hs' => ?_, fun _ => ⟨hflight, hends⟩, fun _ => h.pending,
    fun _ => Or.inl hflight⟩, fun _ => ?_⟩
  · rw [h.settle, h.pending]
    exact h
  · simp [hs] at hs'
  · rw [h.settle]
    rfl

end Desk

/-! ## What the window does -/

namespace WindowControl

open Control Desk

variable {d : Desk Window} {s : Status} {shown waiting : Option Nat} {ev : Event}

@[simp] theorem exec_window (d : Desk Window) : exec window d = (.ok d.outside, d) :=
  rfl

@[simp] theorem exec_updateWindow (f : Window → Window) (d : Desk Window) :
    exec (updateWindow f) d = (.ok (), { d with outside := f d.outside }) :=
  rfl

@[simp] theorem exec_cancelSettle (d : Desk Window) :
    exec cancelSettle d = (.ok (), d.undisplayed) :=
  rfl

@[simp] theorem exec_logRow (text : Text) (colour : Option Text) (d : Desk Window) :
    exec (logRow text colour) d = (.ok (), d.logged text colour) :=
  rfl

theorem exec_redraw (h : d.outside.Fits d.engine) : exec redraw d = (.ok (), d.redrawn) := by
  obtain ⟨w, hw, -⟩ := h.exists_redraw
  show ((d.outside.redraw d.engine).1, d.redrawn) = _
  rw [hw]

/-- The end of a run is shown. -/
theorem exists_onStep_halt (h : d.outside.Fits d.engine) (hev : ev.transition = none) :
    ∃ d', exec (onStep ev) d = (.ok (), d') ∧ SameView d d' := by
  have hlogged := d.sameView_logged
    (Window.statusText ev.status ++ " em " ++ ev.snapshot.state.getD "None" ++ ".")
    (some (endColour ev.status))
  have hfits := hlogged.fits h
  refine ⟨_, ?_, hlogged.trans (sameView_redrawn hfits)⟩
  rw [onStep, hev]
  exact (exec_bind_of_ok (exec_logRow _ _ d) _).trans (exec_redraw hfits)

/-- The timer that ends a display is asked for with the handle that the window keeps. -/
theorem exec_askSettle {g : Agenda} (hg : d.agenda = some g) (generation : Nat) :
    exec (askSettle generation) d = (.ok (), d.settling g generation) := by
  obtain ⟨e, agenda, owner, log, w⟩ := d
  obtain rfl : agenda = some g := hg
  rfl

/-- A step in flight is put on display. -/
theorem exists_onStep_transition (h : d.Stands s none none) {t : Transition}
    (hev : ev.transition = some t) (hown : ev.generation = d.engine.generation)
    (hends : d.engine.lastEnds = some (t.source, t.target)) :
    ∃ handle d', exec (onStep ev) d = (.ok (), d') ∧ d'.engine = d.engine ∧
      d'.Stands s (some handle) none := by
  obtain ⟨g, hg, -⟩ := h.cancels
  have hlit : (d.lit t.source t.target).outside.Fits (d.lit t.source t.target).engine :=
    h.fits.congr rfl h.fits.cursor rfl rfl rfl
  have hlogged := (d.lit t.source t.target).sameView_logged
    (t.source ++ " → " ++ t.target ++ " usando " ++ t.label.text ++ ".") none
  have hview := hlogged.trans (sameView_redrawn (hlogged.fits hlit))
  have hlight : exec (updateWindow fun w => { w with highlight := some (t.source, t.target) }) d =
      (.ok (), d.lit t.source t.target) := rfl
  have hask := exec_askSettle (hview.agenda.trans hg) d.engine.generation
  refine ⟨_, _, ?_, ?_, h.settling hg hends hview⟩
  · rw [onStep, hev, hown]
    simp only [exec_bind, hlight, exec_logRow, exec_redraw (hlogged.fits hlit), hask]
  · exact hview.engine

/-- What the listeners of a step leave, before the run goes on. -/
structure Told (d d' : Desk Window) : Prop where
  steady : d'.Steady
  shown : d'.Shown
  history : d'.engine.history = d.engine.history
  goOn : d'.goOn = d'

/-- A transition is in flight until its display ends. -/
theorem exists_told_transition (h : d.Stands .running none none)
    (hstatus : d.engine.status = .running) {t : Transition} (hev : ev.transition = some t)
    (hown : ev.generation = d.engine.generation)
    (hends : d.engine.lastEnds = some (t.source, t.target)) :
    ∃ d', exec (onStep ev) (d.launch ev) = (.ok (), d') ∧ Told d d' := by
  have hlaunched : ({ d with engine := { d.engine with inFlight := true } } :
      Desk Window).Stands .running none none :=
    h.goingOn (e := { d.engine with inFlight := true }) (h.records.sameRun rfl) rfl rfl rfl
      h.pending d.log
  obtain ⟨handle, d', htell, hengine, hd'⟩ := exists_onStep_transition hlaunched hev hown hends
  have hflight : d'.engine.inFlight = true := by rw [hengine]
  have hstatus' : d'.engine.status = .running := by rw [hengine, ← hstatus]
  have hends' : d'.engine.lastEnds.isSome = true := by
    rw [hengine]
    exact Option.isSome_of_eq_some hends
  obtain ⟨hsteady, hshown⟩ :=
    steady_of_displayed (hstatus' ▸ hd') (hstatus' ▸ rfl) hflight hends'
  rw [launch_of_transition h.manualAck (Option.isSome_of_eq_some hev)]
  exact ⟨d', htell, hsteady, hshown, by rw [hengine], by simp [goOn, hflight]⟩

/-- The end of a run is told without a timer. -/
theorem exists_told_halt (h : d.Stands d.engine.status none none)
    (hflight : d.engine.inFlight = false) (hrunning : d.engine.running = false)
    (hev : ev.transition = none) :
    ∃ d', exec (onStep ev) (d.launch ev) = (.ok (), d') ∧ Told d d' := by
  obtain ⟨d', htell, hview⟩ := exists_onStep_halt h.fits hev
  obtain ⟨hsteady, hshown⟩ := steady_of_idle h hflight hrunning
  have hrunning' : d'.engine.running = false := by rw [hview.engine, hrunning]
  rw [launch_of_halt hev]
  exact ⟨d', htell, hsteady.sameView hview, hshown.sameView hview, by rw [hview.engine],
    by simp [goOn, hrunning']⟩

/-- A step is made where no timer is waited for : it is on display then, or the run has ended. -/
theorem exists_advance (h : d.Stands s none none) (hflight : d.engine.inFlight = false)
    (hs : s.isTerminal = false) (hs' : d.engine.status.isTerminal = false) :
    ∃ ev d', exec (advance onStep) d = (.ok ev, d') ∧ d'.Steady ∧ d'.Shown ∧
      d'.engine.history = d.engine.history.push ev := by
  obtain ⟨t, c', s', log, hstep, hdecide⟩ := exists_decide h.records hs'
  have hmoved := h.goingOn (h.records.moved hs hstep) rfl rfl rfl h.pending log
  have htold : ∃ d', exec (onStep ⟨t, c'.snapshot, s', d.engine.generation⟩)
      (({ d with engine := d.engine.moved t c' s', log := log } : Desk Window).launch
        ⟨t, c'.snapshot, s', d.engine.generation⟩) = (.ok (), d') ∧
      Told { d with engine := d.engine.moved t c' s', log := log } d' := by
    rcases hstep.status_cases with ⟨⟨u, rfl⟩, rfl⟩ | ⟨rfl, hterminal, -⟩
    · exact exists_told_transition hmoved rfl rfl rfl (by simp [Engine.lastEnds, Engine.moved])
    · exact exists_told_halt hmoved hflight (by simp [Engine.moved, hterminal]) rfl
  obtain ⟨d', htell, hd'⟩ := htold
  refine ⟨_, d', ?_, hd'.steady, hd'.shown, hd'.history⟩
  rw [exec_advance, hdecide]
  simp only [htell, hd'.goOn]

end WindowControl

end AutomatonLab
