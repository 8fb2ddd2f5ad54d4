import AutomatonLab.Catalog
import AutomatonLab.Proofs.Display

/-!
# Commands and timers of a window

A `Turn` is what happens at the desk of a window : the entry is edited, a button is pressed, an
automaton is installed, or a timer is due. No turn fails as long as the input of the engine is a text,
and each leaves the timers as `Desk.Steady` says (`Turn.exists_next`). So window and engine never lose
a timer of each other, whatever happens in whatever order (`Desk.Coupled`, `coupled_of_turns`).
-/

namespace AutomatonLab

open Control

namespace Desk

variable {d d' : Desk Window} {s : Status} {shown waiting : Option Nat}

/-- A run has just begun, and no timer is waited for. -/
structure Ready (d : Desk Window) : Prop where
  stands : d.Stands .ready none none
  status : d.engine.status = .ready
  inFlight : d.engine.inFlight = false
  running : d.engine.running = false
  history : d.engine.history = #[]

theorem Ready.sameView (h : d.Ready) (hd : SameView d d') : d'.Ready where
  stands := h.stands.sameView hd
  status := hd.engine ▸ h.status
  inFlight := hd.engine ▸ h.inFlight
  running := hd.engine ▸ h.running
  history := hd.engine ▸ h.history

/-- A window that is ready is steady, and shows what it should. -/
theorem Ready.steady (h : d.Ready) : d.Steady ∧ d.Shown :=
  steady_of_idle (h.status ▸ h.stands) h.inFlight h.running

/-- The desk when the input is a text. -/
def textual (d : Desk Window) : Desk Window :=
  { d with outside := { d.outside with foreign := none } }

/-- The desk when a new run has begun on a text. -/
def renewed (d : Desk Window) (input : Text) : Desk Window :=
  (d.undisplayed.reset (some input)).textual

/-- A new run makes the window ready. -/
theorem Stands.renewed (h : d.Stands s shown waiting) (input : Text) : (d.renewed input).Ready :=
  ⟨h.undisplayed.loaded h.records.typed (Automaton.validate_eq_ok_iff.2 h.fits.wellFormed)
    (some input) h.fits.places rfl rfl rfl rfl, rfl, rfl, rfl, rfl⟩

/-- A pause leaves no continuation waiting. -/
theorem Stands.pause (h : d.Stands s shown waiting) : d.pause.Stands s shown none :=
  have hstopped : ({ d with engine := { d.engine with running := false } } :
      Desk Window).Stands s shown waiting :=
    ⟨h.records.sameRun rfl, h.fits.congr rfl h.fits.cursor rfl rfl rfl, h.manualAck, h.draining,
      h.cancels, h.settle, h.pending, h.apart, h.timers, h.highlight⟩
  hstopped.cancelPending

/-- The desk with one row in the log of the window. -/
def relogged (d : Desk Window) (text : Text) : Desk Window :=
  ({ d with outside := { d.outside with rows := [] } } : Desk Window).logged text none

/-- The desk with another text in the status bar of the window. -/
def saying (d : Desk Window) (text : Text) : Desk Window :=
  { d with outside := { d.outside with status := text } }

/-- The desk when the window has the states of an automaton in their places. -/
def placed (d : Desk Window) (a : Automaton) (entry : Text) : Desk Window :=
  { d with
    outside := { d.outside with
      title := Window.titleFor a.formalism
      entry := entry
      places := Diagram.circle a.states } }

/-- The desk when the window displays no step any more. -/
def settled (d : Desk Window) : Desk Window :=
  { d with outside := { d.outside with settle := none, highlight := none } }

theorem sameView_relogged (d : Desk Window) (text : Text) : SameView d (d.relogged text) :=
  ⟨rfl, rfl, rfl, rfl, rfl, rfl, rfl⟩

theorem sameView_saying (d : Desk Window) (text : Text) : SameView d (d.saying text) :=
  ⟨rfl, rfl, rfl, rfl, rfl, rfl, rfl⟩

/-- Without a step in flight there is no step on display. -/
theorem Steady.settle_eq_none (h : d.Steady) (hflight : d.engine.inFlight = false) :
    d.outside.settle = none := by
  rw [← Option.not_isSome_iff_eq_none]
  intro hsome
  simp [(h.shown hsome).1] at hflight

theorem inFlight_scheduleNext (d : Desk Window) :
    d.scheduleNext.engine.inFlight = d.engine.inFlight := by
  unfold scheduleNext
  split
  · rfl
  · split
    · rfl
    · split
      · unfold observeLimit
        split <;> rfl
      · rfl

theorem outside_scheduleNext (d : Desk Window) : d.scheduleNext.outside = d.outside := by
  unfold scheduleNext observeLimit
  repeat' split
  all_goals rfl

theorem outside_goOn (d : Desk Window) : d.goOn.outside = d.outside := by
  unfold goOn
  split
  · exact d.outside_scheduleNext
  · rfl

/-- A window whose run has stopped at its limit is steady, and shows what it should. -/
theorem steady_observeLimit (h : d.Stands d.engine.status none none)
    (hflight : d.engine.inFlight = false) (hlimit : d.engine.atLimit = true) :
    d.observeLimit.Steady ∧ d.observeLimit.Shown := by
  rw [observeLimit, if_pos hlimit]
  have hstands := h.goingOn (e := { d.engine with running := false }) (h.records.sameRun rfl) rfl
    rfl rfl h.pending ((d.engine.maxSteps.toList.map limitNote).reverse ++ d.log)
  exact steady_of_idle hstands hflight rfl

end Desk

namespace WindowControl

open Desk

variable {d : Desk Window} {s : Status} {shown waiting : Option Nat}

/-- Starting again never fails. -/
theorem exec_restart (input : Text) (d : Desk Window) :
    exec (restart input) d = (.ok (), d.renewed input) :=
  rfl

/-- A window that is ready can be drawn again. -/
theorem exists_redraw_ready (h : d.Ready) : ∃ d', exec redraw d = (.ok (), d') ∧ d'.Ready :=
  ⟨d.redrawn, exec_redraw h.stands.fits, h.sameView (sameView_redrawn h.stands.fits)⟩

/-! ## Calls on the engine -/

/-- An automatic run goes to its first display. -/
theorem exists_engine_run (h : d.Ready) :
    ∃ r d', exec (Control.run onStep 0) d = (.ok r, d') ∧ d'.Steady ∧ d'.Shown := by
  rw [exec_run, h.inFlight, h.running, h.status]
  simp only [Status.isTerminal, Bool.or_self, Bool.false_eq_true, if_false]
  split
  case isTrue hlimit =>
    exact ⟨false, _, rfl, steady_observeLimit (h.status ▸ h.stands) h.inFlight hlimit⟩
  case isFalse =>
    obtain ⟨g, hg, -⟩ := h.stands.cancels
    have hbegun : d.begun.Stands .ready none none :=
      h.stands.goingOn (e := { d.engine with running := true, status := .running })
        (h.stands.records.sameRun rfl) rfl rfl rfl h.stands.pending _
    obtain ⟨ev, d', hadvance, hsteady, hshown, -⟩ := exists_advance hbegun h.inFlight rfl rfl
    rw [if_neg (by simp [hg]), hadvance]
    exact ⟨true, d', rfl, hsteady, hshown⟩

/-- A step by hand without a verdict gives an event and its display. -/
theorem exists_engine_step (h : d.Stands d.engine.status none waiting)
    (hflight : d.engine.inFlight = false) (hs : d.engine.status.isTerminal = false) :
    ∃ ev d', exec (Control.step onStep) d = (.ok (some ev), d') ∧ d'.Steady ∧ d'.Shown ∧
      d'.engine.history = d.engine.history.push ev := by
  obtain ⟨ev, d', hadvance, hd'⟩ := exists_advance h.pause hflight hs hs
  refine ⟨ev, d', ?_, hd'⟩
  rw [exec_step, hflight, hs, hadvance]
  rfl

/-- A run that has been confirmed asks for its timer, unless it has ended or reached its limit. -/
theorem steady_scheduleNext (h : d.Stands d.engine.status none none)
    (hflight : d.engine.inFlight = false) (hstopped : d.Stopped) :
    d.scheduleNext.Steady ∧ d.scheduleNext.Shown := by
  obtain ⟨g, hg, hcancels⟩ := h.cancels
  rw [scheduleNext, hg]
  simp only [h.pending, Option.isSome_none, Bool.false_or]
  split
  case isTrue hstop =>
    have hrunning : d.engine.running = false := by
      rcases Bool.or_eq_true_iff.1 hstop with hidle | hs
      · simpa using hidle
      · exact hstopped hs
    exact steady_of_idle h hflight hrunning
  case isFalse hgo =>
    simp only [Bool.or_eq_true, not_or, Bool.not_eq_true, Bool.not_eq_false'] at hgo
    split
    case isTrue hlimit => exact steady_observeLimit h hflight hlimit
    case isFalse =>
      have hasked : (d.askTimer g).Stands d.engine.status none (some (g.issued + 1)) := by
        have hnone : g.jobs = [] := by simpa [Desk.timers, jobs, hg] using h.timers
        refine ⟨h.records.sameRun rfl, h.fits.congr rfl h.fits.cursor rfl rfl rfl, h.manualAck,
          h.draining, ⟨_, rfl, hcancels⟩, h.settle, rfl, Or.inl rfl, ?_, h.highlight⟩
        simp [Desk.timers, jobs, askTimer, Agenda.add, hnone]
      have hsettle : (d.askTimer g).outside.settle = none := h.settle
      refine ⟨⟨?_, fun hs => ?_, fun hs => ?_, fun hf => ?_, fun _ => Or.inr rfl⟩, fun hf => ?_⟩
      · rw [hsettle]
        exact hasked
      · exact absurd hs (by simp [askTimer, hgo.2])
      · simp [hsettle] at hs
      · exact absurd hf (by simp [askTimer, hflight])
      · exact absurd hf (by simp [askTimer, hflight])

/-! ## Commands -/

/-- The run button leaves a steady window. -/
theorem exists_run (h : d.Steady) :
    ∃ d', exec WindowControl.run d = (.ok (), d') ∧ d'.Steady ∧ d'.Shown := by
  have hready := h.stands.renewed d.outside.entry
  obtain ⟨r, d₁, hrun, hsteady, hshown⟩ := exists_engine_run (hready.sameView (sameView_logged _
    ("Execução iniciada com entrada \"" ++ (d.renewed d.outside.entry).engine.input ++ "\".") none))
  have hview := sameView_redrawn hsteady.stands.fits
  refine ⟨d₁.redrawn, ?_, hsteady.sameView hview, hshown.sameView hview⟩
  simp only [WindowControl.run, exec_bind, exec_window, exec_restart, exec_engine, exec_logRow,
    hrun, exec_redraw hsteady.stands.fits]

/-- While a step is in flight, nothing happens. -/
theorem exec_step_inFlight (hflight : d.engine.inFlight = true) :
    exec WindowControl.step d = (.ok (), d) := by
  rw [WindowControl.step, exec_bind, exec_engine]
  simp only [hflight, if_true]
  rfl

/-- A step by hand with its row in the log, from a run that has not ended. -/
theorem exists_logged_step (h : d.Stands d.engine.status none waiting)
    (hflight : d.engine.inFlight = false) (hs : d.engine.status.isTerminal = false) (text : Text) :
    ∃ ev d' d'', exec (Control.step onStep) (d.logged text none) = (.ok (some ev), d') ∧
      exec redraw d' = (.ok (), d'') ∧ d''.Steady ∧ d''.Shown ∧
      d''.engine.history = d.engine.history.push ev := by
  have hlogged : (d.logged text none).Stands (d.logged text none).engine.status none waiting :=
    h.sameView (d.sameView_logged text none)
  obtain ⟨ev, d', hstep, hsteady, hshown, hhistory⟩ := exists_engine_step hlogged hflight hs
  have hview := sameView_redrawn hsteady.stands.fits
  exact ⟨ev, d', _, hstep, exec_redraw hsteady.stands.fits, hsteady.sameView hview,
    hshown.sameView hview, hview.engine ▸ hhistory⟩

/-- Otherwise a step is made, in a new run if the old one has ended or had another input. -/
theorem exists_step (h : d.Steady) (hflight : d.engine.inFlight = false) :
    ∃ ev d', exec WindowControl.step d = (.ok (), d') ∧ d'.Steady ∧ d'.Shown ∧
      d'.engine.history =
        (if needsRestart d.engine d.outside then #[] else d.engine.history).push ev := by
  have hsettle := h.settle_eq_none hflight
  rw [WindowControl.step]
  simp only [exec_bind, exec_window, exec_engine, hflight, Bool.false_eq_true, if_false]
  cases hrestart : needsRestart d.engine d.outside with
  | true =>
    have hready := h.stands.renewed d.outside.entry
    obtain ⟨ev, d₁, d₂, hstep, hdraw, hd₂⟩ := exists_logged_step
      (hready.status ▸ hready.stands) hready.inFlight (hready.status ▸ rfl)
      ("Passo manual " ++ toString ((d.renewed d.outside.entry).engine.steps + 1) ++ ".")
    refine ⟨ev, d₂, ?_, hd₂⟩
    simp only [if_true, exec_bind, exec_window, exec_restart, exec_engine, exec_logRow, hstep, hdraw]
  | false =>
    have hs : d.engine.status.isTerminal = false := by
      simp only [needsRestart, Bool.or_eq_false_iff] at hrestart
      exact hrestart.1.1
    obtain ⟨ev, d₁, d₂, hstep, hdraw, hd₂⟩ := exists_logged_step (hsettle ▸ h.stands) hflight hs
      ("Passo manual " ++ toString (d.engine.steps + 1) ++ ".")
    refine ⟨ev, d₂, ?_, hd₂⟩
    simp only [Bool.false_eq_true, if_false, exec_bind, exec_engine, exec_logRow, hstep, hdraw]

/-- The pause button leaves a steady window. -/
theorem exists_pause (h : d.Steady) :
    ∃ d', exec WindowControl.pause d = (.ok (), d') ∧ d'.Steady ∧ (d.Shown → d'.Shown) := by
  rw [WindowControl.pause]
  simp only [exec_bind, exec_engine]
  split
  case isFalse => exact ⟨d, rfl, h, id⟩
  case isTrue =>
    refine ⟨{ d.pause with outside := { d.pause.outside with status := "Pausado." } }, rfl, ?_, id⟩
    have hpaused : d.pause.Steady :=
      ⟨h.stands.pause, fun _ => rfl, h.shown, fun _ => rfl, nofun⟩
    exact hpaused.sameView ⟨rfl, rfl, rfl, rfl, rfl, rfl, rfl⟩

/-- Starting again from the entry leaves a steady window. -/
theorem exists_restartFromEntry (h : d.Steady) :
    ∃ d', exec restartFromEntry d = (.ok (), d') ∧ d'.Steady ∧ d'.Shown := by
  have hready := h.stands.renewed d.outside.entry
  have hview : SameView (d.renewed d.outside.entry) (((d.renewed d.outside.entry).relogged
      ("Pronto no modo " ++ Text.upperCase d.engine.automaton.formalism.code ++ ".")).saying
        "Simulação reiniciada.") :=
    (sameView_relogged _ _).trans (sameView_saying _ _)
  obtain ⟨d', hdraw, hready'⟩ := exists_redraw_ready (hready.sameView hview)
  exact ⟨d', hdraw, hready'.steady⟩

/-! ## Installing an automaton -/

/-- The window shows a run that has just begun on an automaton. -/
theorem exists_present {a : Automaton} {entry : Text} (h : (d.placed a entry).Ready) :
    ∃ d', exec (present a entry) d = (.ok (), d') ∧ d'.Ready :=
  exists_redraw_ready (h.sameView (sameView_relogged _
    ("Pronto no modo " ++ Text.upperCase a.formalism.code ++ " a partir de "
      ++ a.start?.getD "None" ++ ".")))

/-- A valid automaton is loaded with the text of its input. -/
theorem exec_loadInput {a : Automaton} (hv : a.validate = .ok ()) (entry : Text)
    (d : Desk Window) :
    exec (loadInput a (.str entry)) d = (.ok (), (d.loaded a (some entry)).textual) := by
  rw [loadInput, exec_bind_of_ok (exec_load_of_valid hv (some entry) d)]
  rfl

/-- A valid automaton is installed without a fault, and the window is ready. -/
theorem exists_install {a : Automaton} (h : d.Stands s shown waiting) (ha : a.Typed)
    (hv : a.validate = .ok ()) (entry : Text) :
    ∃ d', exec (install a (.str entry)) d = (.ok true, d') ∧ d'.Ready := by
  have hready : ((d.undisplayed.loaded a (some entry)).textual.placed a entry).Ready :=
    ⟨h.undisplayed.loaded ha hv (some entry) rfl rfl rfl rfl rfl, rfl, rfl, rfl, rfl⟩
  obtain ⟨d', hpresent, hd'⟩ := exists_present hready
  refine ⟨d', ?_, hd'⟩
  rw [install, exec_bind_of_ok (exec_cancelSettle d), hv]
  simp only [exec_bind, exec_loadInput hv, hpresent, exec_pure]

/-- All examples are valid. -/
theorem valid_of_mem_examples {x : Example} (h : x ∈ Catalog.examples) :
    x.automaton.Typed ∧ x.automaton.validate = .ok () := by
  revert x
  decide

/-- Opening an example leaves a steady window. -/
theorem exists_openExample {x : Example} (h : d.Steady) (hx : x ∈ Catalog.examples) :
    ∃ d', exec (openExample x) d = (.ok (), d') ∧ d'.Steady ∧ d'.Shown := by
  obtain ⟨hx, hv⟩ := valid_of_mem_examples hx
  obtain ⟨d', hinstall, hd'⟩ := exists_install h.stands hx hv x.input
  refine ⟨d'.saying ("Exemplo '" ++ x.title ++ "' carregado."), ?_,
    (hd'.sameView (sameView_saying _ _)).steady⟩
  rw [openExample, exec_bind_of_ok hinstall]
  rfl

/-! ## Timers -/

/-- A step in flight is confirmed, and all else about the run stays. -/
theorem exists_acknowledge (h : d.Stands d.engine.status none none)
    (hflight : d.engine.inFlight = true) (hstopped : d.Stopped) :
    ∃ d', exec (acknowledge onStep 0 (some (d.engine.generation : Int))) d = (.ok (), d') ∧
      d'.Steady ∧ d'.Shown ∧ d.SameRun d' ∧ d'.engine.inFlight = false := by
  obtain ⟨g, hg, -⟩ := h.cancels
  have hconfirmed : d.confirmed.Stands d.confirmed.engine.status none none :=
    h.goingOn (e := d.confirmed.engine) (h.records.sameRun rfl) rfl rfl rfl h.pending d.log
  have hown : (some (d.engine.generation : Int)).filter (· ≠ (d.engine.generation : Int)) = none := by
    simp
  rw [exec_acknowledge, hflight, hown, h.draining, hg]
  cases hrunning : d.engine.running with
  | false =>
    obtain ⟨hsteady, hshown⟩ := steady_of_idle hconfirmed rfl hrunning
    exact ⟨d.confirmed, rfl, hsteady, hshown, d.sameRun_confirmed, rfl⟩
  | true =>
    obtain ⟨hsteady, hshown⟩ := steady_scheduleNext hconfirmed rfl hstopped
    have hrun := d.confirmed.sameRun_scheduleNext
    exact ⟨d.confirmed.scheduleNext, rfl, hsteady, hshown, ⟨hrun.engine, hrun.status, hrun.agenda⟩,
      d.confirmed.inFlight_scheduleNext⟩

/-- The display of a step ends : the step is confirmed, and all else about the run stays. -/
theorem exists_settle (h : d.Steady) {j : Job} (hj : j ∈ d.jobs)
    (hs : d.outside.settle = some j.handle) :
    ∃ d', exec (perform j.task) (d.elapsed j) = (.ok (), d') ∧ d'.Steady ∧ d'.Shown ∧
      d.engine.SameRun d'.engine ∧ d'.engine.inFlight = false := by
  obtain ⟨htimers, ⟨-, hpending, htask⟩ | ⟨hnone, -⟩⟩ := h.stands.elapsed hj
  case inr => exact absurd (hs.symm.trans hnone) nofun
  obtain ⟨g, hg, hcancels⟩ := h.stands.cancels
  obtain ⟨hflight, -⟩ := h.shown (Option.isSome_of_eq_some hs)
  have hsettled : (d.elapsed j).settled.Stands (d.elapsed j).settled.engine.status none none :=
    stands_of_timers_eq_nil h.stands.records
      (h.stands.fits.congr rfl h.stands.fits.cursor rfl rfl rfl) h.stands.manualAck
      h.stands.draining ⟨g.elapse j, by simp [settled, elapsed, hg], hcancels⟩ rfl hpending
      htimers rfl
  obtain ⟨d', hack, hsteady, hshown, hrun, hflight'⟩ :=
    exists_acknowledge hsettled hflight h.stopped
  have hview := sameView_redrawn hsteady.stands.fits
  refine ⟨d'.redrawn, ?_, hsteady.sameView hview, hshown.sameView hview,
    hview.engine ▸ hrun.engine, hview.engine ▸ hflight'⟩
  rw [htask, perform, settle, exec_bind_of_ok (exec_updateWindow _ _)]
  exact (exec_bind_of_ok hack _).trans (exec_redraw hsteady.stands.fits)

/-- The automatic run goes on with one step, unless it was paused. -/
theorem exists_resume (h : d.Steady) {j : Job} (hj : j ∈ d.jobs)
    (hp : d.engine.pending = some j.handle) :
    ∃ d', exec (perform j.task) (d.elapsed j) = (.ok (), d') ∧ d'.Steady ∧ d'.Shown := by
  obtain ⟨htimers, ⟨-, hnone, -⟩ | ⟨hsettle, -, htask⟩⟩ := h.stands.elapsed hj
  case inl => exact absurd (hp.symm.trans hnone) nofun
  obtain ⟨g, hg, hcancels⟩ := h.stands.cancels
  have hflight : d.engine.inFlight = false := by
    cases hf : d.engine.inFlight with
    | false => rfl
    | true => exact absurd (hp.symm.trans (h.inFlight hf)) nofun
  have hwoken : (d.elapsed j).woken.Stands (d.elapsed j).woken.engine.status none none :=
    stands_of_timers_eq_nil (h.stands.records.sameRun rfl)
      (h.stands.fits.congr rfl h.stands.fits.cursor rfl rfl rfl) h.stands.manualAck
      h.stands.draining ⟨g.elapse j, by simp [woken, elapsed, hg], hcancels⟩ hsettle rfl
      htimers (h.stands.highlight.trans (by rw [hsettle]; rfl))
  have hflight' : (d.elapsed j).engine.inFlight = false := hflight
  rw [htask, perform, exec_resume, hflight']
  cases hrunning : d.engine.running with
  | false =>
    obtain ⟨hsteady, hshown⟩ := steady_of_idle hwoken hflight hrunning
    refine ⟨(d.elapsed j).woken, ?_, hsteady, hshown⟩
    simp [elapsed, hrunning]
  | true =>
    have hs : d.engine.status.isTerminal = false := by
      cases hs : d.engine.status.isTerminal with
      | false => rfl
      | true => exact absurd (hrunning.symm.trans (h.stopped hs)) nofun
    obtain ⟨ev, d', hadvance, hsteady, hshown, -⟩ := exists_advance hwoken hflight hs hs
    refine ⟨d', ?_, hsteady, hshown⟩
    rw [hadvance]
    simp [elapsed, hrunning, Except.map]

/-- A timer that is due does its work, whichever of the two it is. -/
theorem exists_due (h : d.Steady) {j : Job} (hj : j ∈ d.jobs) :
    ∃ d', exec (perform j.task) (d.elapsed j) = (.ok (), d') ∧ d'.Steady ∧ d'.Shown := by
  obtain ⟨-, ⟨hs, -⟩ | ⟨-, hp, -⟩⟩ := h.stands.elapsed hj
  · obtain ⟨d', hdue, hsteady, hshown, -⟩ := exists_settle h hj hs
    exact ⟨d', hdue, hsteady, hshown⟩
  · exact exists_resume h hj hp

end WindowControl

/-! ## Whole sessions -/

/-- What happens at the desk of a window : the entry is edited, a button is pressed, an automaton is
installed, or a timer is due. -/
inductive Turn where
  | enterText (text : Text)
  | run
  | step
  | pause
  | restart
  | openExample (x : Example)
  | install (a : Automaton) (input : Json)
  | timer (handle : Nat)

namespace Turn

/-- What the window does at a turn. -/
def perform : Turn → WindowControl Unit
  | enterText text => WindowControl.updateWindow fun w => { w with entry := text }
  | run => WindowControl.run
  | step => WindowControl.step
  | pause => WindowControl.pause
  | restart => WindowControl.restartFromEntry
  | openExample x => WindowControl.openExample x
  | install a input => do let _ ← WindowControl.install a input
  | timer handle => do
    if let some j := (← get).agenda.bind fun g => g.job? handle then
      update fun d => d.elapsed j
      WindowControl.perform j.task

/-- The desk after a turn, however it ends. -/
def next (d : Desk Window) (t : Turn) : Desk Window := (exec t.perform d).2

/-- The desk after several turns, one after the other. -/
def nextAll (d : Desk Window) (ts : List Turn) : Desk Window := ts.foldl next d

/-- The turn gives the engine only a well-formed automaton with a text as its input. -/
def Sound : Turn → Prop
  | openExample x => x ∈ Catalog.examples
  | install a input => a.Typed ∧ a.validate = .ok () ∧ ∃ entry, input = .str entry
  | _ => True

variable {d d' : Desk Window}

theorem mem_jobs {g : Agenda} {handle : Nat} {j : Job} (hg : d.agenda = some g)
    (hj : g.job? handle = some j) : j ∈ d.jobs ∧ j.handle = handle := by
  have hhandle := List.find?_some hj
  refine ⟨?_, by simpa using hhandle⟩
  simp only [Desk.jobs, hg, Option.map_some, Option.getD_some]
  exact List.mem_of_find?_eq_some hj

/-- A timer does its task if it is still there, and nothing otherwise. -/
theorem exec_timer (handle : Nat) (d : Desk Window) :
    exec (timer handle).perform d = match d.agenda.bind fun g => g.job? handle with
      | some j => exec (WindowControl.perform j.task) (d.elapsed j)
      | none => (.ok (), d) := by
  rw [perform, exec_bind, exec_get]
  simp only
  cases d.agenda.bind fun g => g.job? handle <;> rfl

/-- A turn comes to its end, and the timers of window and engine are in order again. -/
theorem exists_next {t : Turn} (ht : t.Sound) (h : d.Steady) :
    ∃ d', exec t.perform d = (.ok (), d') ∧ d'.Steady ∧ (d.Shown → d'.Shown) := by
  cases t with
  | enterText text =>
    have hview : Desk.SameView d { d with outside := { d.outside with entry := text } } :=
      ⟨rfl, rfl, rfl, rfl, rfl, rfl, rfl⟩
    exact ⟨_, rfl, h.sameView hview, fun hs => hs.sameView hview⟩
  | run =>
    obtain ⟨d', hrun, hsteady, hshown⟩ := WindowControl.exists_run h
    exact ⟨d', hrun, hsteady, fun _ => hshown⟩
  | step =>
    cases hflight : d.engine.inFlight with
    | true => exact ⟨d, WindowControl.exec_step_inFlight hflight, h, id⟩
    | false =>
      obtain ⟨-, d', hstep, hsteady, hshown, -⟩ := WindowControl.exists_step h hflight
      exact ⟨d', hstep, hsteady, fun _ => hshown⟩
  | pause => exact WindowControl.exists_pause h
  | restart =>
    obtain ⟨d', hrestart, hsteady, hshown⟩ := WindowControl.exists_restartFromEntry h
    exact ⟨d', hrestart, hsteady, fun _ => hshown⟩
  | openExample x =>
    obtain ⟨d', hopen, hsteady, hshown⟩ := WindowControl.exists_openExample h ht
    exact ⟨d', hopen, hsteady, fun _ => hshown⟩
  | install a input =>
    obtain ⟨ha, hv, entry, rfl⟩ := ht
    obtain ⟨d', hinstall, hready⟩ := WindowControl.exists_install h.stands ha hv entry
    exact ⟨d', (exec_bind_of_ok hinstall _ :), hready.steady.1, fun _ => hready.steady.2⟩
  | timer handle =>
    rw [exec_timer]
    cases hjob : d.agenda.bind fun g => g.job? handle with
    | none => exact ⟨d, rfl, h, id⟩
    | some j =>
      obtain ⟨g, hg, hj⟩ := Option.bind_eq_some_iff.1 hjob
      obtain ⟨d', hdue, hsteady, hshown⟩ := WindowControl.exists_due h (mem_jobs hg hj).1
      exact ⟨d', hdue, hsteady, fun _ => hshown⟩

/-- What every turn of a session keeps holds after the session. -/
theorem nextAll_keeps {P : Desk Window → Prop} {ts : List Turn}
    (hstep : ∀ t ∈ ts, ∀ d, P d → P (t.next d)) (h : P d) : P (nextAll d ts) := by
  induction ts generalizing d with
  | nil => exact h
  | cons t ts ih =>
    obtain ⟨hfirst, hrest⟩ := List.forall_mem_cons.1 hstep
    exact ih hrest (hfirst d h)

/-- Every sound turn leaves a steady window that shows what it should. -/
theorem steady_next {t : Turn} (ht : t.Sound) (h : d.Steady ∧ d.Shown) :
    (t.next d).Steady ∧ (t.next d).Shown := by
  obtain ⟨d', hnext, hsteady, hshown⟩ := exists_next ht h.1
  have hd' : t.next d = d' := congrArg Prod.snd hnext
  rw [hd']
  exact ⟨hsteady, hshown h.2⟩

end Turn

namespace Desk

variable {d : Desk Window}

/-- Window and engine agree about their timers. -/
structure Coupled (d : Desk Window) : Prop where
  settle : d.engine.inFlight = true ↔ d.outside.settle.isSome = true
  highlight : d.engine.inFlight = true ↔ d.outside.highlight.isSome = true
  timers : d.timers =
    (d.outside.settle.toList.map fun handle => (handle, .settle d.engine.generation)) ++
      d.engine.pending.toList.map fun handle => (handle, .resume d.engine.generation)
  apart : d.outside.settle = none ∨ d.engine.pending = none
  lastEnds : d.outside.settle.isSome = true → d.outside.highlight = d.engine.lastEnds
  running : d.engine.running = true →
    d.outside.settle.isSome = true ∨ d.engine.pending.isSome = true
  step : d.engine.inFlight = false → ∃ ev, (Turn.step.next d).engine.history =
    (if WindowControl.needsRestart d.engine d.outside then #[] else d.engine.history).push ev
  /-- The command for a step by hand has no effect only if a timer will confirm the step in
  flight. -/
  ignored : d.engine.inFlight = true → Turn.step.next d = d ∧
    ∃ handle, d.outside.settle = some handle ∧
      d.engine.SameRun ((Turn.timer handle).next d).engine ∧
      ((Turn.timer handle).next d).engine.inFlight = false
  returns : ∀ t : Turn, t.Sound → (exec t.perform d).1 = .ok ()

/-- A timer with the handle of one that is there can be found. -/
theorem exists_job {handle : Nat} {task : Task} (h : (handle, task) ∈ d.timers) :
    ∃ j ∈ d.jobs, j.handle = handle ∧ (d.agenda.bind fun g => g.job? handle) = some j := by
  obtain ⟨k, hk, hkeys⟩ := List.mem_map.1 h
  obtain ⟨rfl, -⟩ := Prod.mk.inj hkeys
  cases hg : d.agenda with
  | none => simp [jobs, hg] at hk
  | some g =>
    have hsome : (g.job? k.handle).isSome = true := by
      rw [Agenda.job?, List.find?_isSome]
      exact ⟨k, by simpa [jobs, hg] using hk, by simp⟩
    obtain ⟨j, hj⟩ := Option.isSome_iff_exists.1 hsome
    obtain ⟨hmem, hhandle⟩ := Turn.mem_jobs hg hj
    exact ⟨j, hmem, hhandle, hj⟩

/-- The timer that ends the display of a step confirms the step. -/
theorem Steady.timer_settle (h : d.Steady) {handle : Nat} (hs : d.outside.settle = some handle) :
    d.engine.SameRun ((Turn.timer handle).next d).engine ∧
      ((Turn.timer handle).next d).engine.inFlight = false := by
  have hmem : (handle, .settle d.engine.generation) ∈ d.timers := by
    rw [h.stands.timers, hs]
    exact List.mem_append_left _ List.mem_cons_self
  obtain ⟨j, hj, rfl, hfound⟩ := exists_job hmem
  obtain ⟨d', hsettle, -, -, hrun, hflight⟩ := WindowControl.exists_settle h hj hs
  have hnext : (Turn.timer j.handle).next d = d' := by
    rw [Turn.next, Turn.exec_timer, hfound]
    exact congrArg Prod.snd hsettle
  rw [hnext]
  exact ⟨hrun, hflight⟩

/-- In a steady window the timers of window and engine go together. -/
theorem Steady.coupled (h : d.Steady) (hshown : d.Shown) : d.Coupled where
  settle := ⟨hshown, fun hs => (h.shown hs).1⟩
  highlight := by
    rw [h.stands.highlight]
    cases hs : d.outside.settle with
    | none => simpa [hs] using mt hshown
    | some handle =>
      obtain ⟨hflight, hends⟩ := h.shown (Option.isSome_of_eq_some hs)
      exact ⟨fun _ => hends, fun _ => hflight⟩
  timers := h.stands.timers
  apart := h.stands.apart
  lastEnds hs := by
    obtain ⟨handle, hhandle⟩ := Option.isSome_iff_exists.1 hs
    rw [h.stands.highlight, hhandle]
    rfl
  running hrunning := (h.continued hrunning).imp_left hshown
  step hflight := by
    obtain ⟨ev, d', hstep, -, -, hhistory⟩ := WindowControl.exists_step h hflight
    exact ⟨ev, (congrArg (fun p => p.2.engine.history) hstep).trans hhistory⟩
  ignored hflight := by
    obtain ⟨handle, hs⟩ := Option.isSome_iff_exists.1 (hshown hflight)
    exact ⟨congrArg Prod.snd (WindowControl.exec_step_inFlight hflight), handle, hs,
      h.timer_settle hs⟩
  returns t ht := by
    obtain ⟨d', hnext, -⟩ := Turn.exists_next ht h
    exact congrArg Prod.fst hnext

end Desk

/-- The desk of a window that has just been opened. -/
theorem Desk.exists_present_new {a : Automaton} {w : Text} {delay : Int} {maxSteps : Option Int}
    {owner : Nat} {name : Text} {room : Room} (ha : a.Typed)
    (hroom : ∀ size, room.canvasSize = some size → Window.Drawable size) {d : Desk Window}
    (hd : Desk.start a w delay true maxSteps (some (.empty true)) owner (Window.blank name room) =
      .ok d) :
    ∃ d', exec (WindowControl.present a w) d = (.ok (), d') ∧ d'.Ready := by
  obtain ⟨hv, rfl⟩ := Desk.start_ok hd
  refine WindowControl.exists_present ⟨?_, rfl, rfl, rfl, rfl⟩
  exact stands_of_timers_eq_nil (Engine.records_start ha rfl rfl rfl rfl)
    ⟨ha, Automaton.validate_eq_ok_iff.1 hv, Int.le_refl 0, rfl, rfl, hroom⟩ rfl rfl
    ⟨_, rfl, rfl⟩ rfl rfl rfl rfl

/-- Whatever happens at the desk of a window, and in whatever order timers are due : window and
engine do not lose each other's timers. -/
theorem coupled_of_turns {a : Automaton} {w : Text} {delay : Int} {maxSteps : Option Int}
    {owner : Nat} {name : Text} {room : Room} {d : Desk Window} {ts : List Turn} (ha : a.Typed)
    (hroom : ∀ size, room.canvasSize = some size → Window.Drawable size)
    (hd : Desk.start a w delay true maxSteps (some (.empty true)) owner (Window.blank name room) =
      .ok d)
    (hts : ∀ t ∈ ts, t.Sound) :
    ((exec (WindowControl.present a w) d).1 = .ok ()) ∧
      (Turn.nextAll (exec (WindowControl.present a w) d).2 ts).Coupled := by
  obtain ⟨d', hpresent, hready⟩ := Desk.exists_present_new ha hroom hd
  obtain ⟨hsteady, hshown⟩ := Turn.nextAll_keeps (P := fun d => d.Steady ∧ d.Shown)
    (fun t ht _ => Turn.steady_next (hts t ht)) hready.steady
  rw [hpresent]
  exact ⟨rfl, hsteady.coupled hshown⟩

/-- A paused run, an installed automaton and a new run : a step is on display at the end, and its
timer is the only one. -/
theorem coupled_of_turns_evenA :
    let a := Catalog.evenA.automaton
    let room : Room := ⟨⟨[]⟩, none, 0, .textsOnly⟩
    let ts : List Turn := [.step, .enterText "ab", .timer 1, .run, .pause, .timer 2,
      .install a (.str "ab"), .run]
    a.Typed ∧ (∀ size, room.canvasSize = some size → Window.Drawable size) ∧
      (∀ t ∈ ts, t.Sound) ∧
      ∃ d, Desk.start a "aa" 200 true none (some (.empty true)) 0 (Window.blank "w" room) = .ok d ∧
        (Turn.nextAll (exec (WindowControl.present a "aa") d).2 ts).Coupled ∧
        (Turn.nextAll (exec (WindowControl.present a "aa") d).2 ts).timers = [(3, .settle 4)] := by
  intro a room ts
  have ha : a.Typed := by decide
  have hroom : ∀ size, room.canvasSize = some size → Window.Drawable size := nofun
  have hts : ∀ t ∈ ts, t.Sound := by
    have hv : a.validate = .ok () := by decide
    simp [ts, Turn.Sound, ha, hv]
  refine ⟨ha, hroom, hts, _, rfl, (coupled_of_turns ha hroom rfl hts).2, ?_⟩
  decide +kernel

end AutomatonLab
