import AutomatonLab.Proofs.Outside
import AutomatonLab.Proofs.WindowSession

/-!
# A refused automaton

An automaton that is not well-formed is refused with an error box, but only after the window has
ended the display of the last step (`WindowControl.exec_install_of_invalid`). Between two steps that
is all the same : nobody looks at the error boxes, so whatever happens later happens as it would have
happened (`Turn.nextAll_after`, by the commutation of every command with the boxes). But while a step
is on display its timer is lost, and no other timer confirms the step (`Desk.Stranded`,
`refused_install_of_turns`).
-/

namespace AutomatonLab

open Control

/-! ## Error boxes are not looked at -/

namespace Window

/-- The window when error boxes were shown before its own. -/
def after (boxes : List (Text × Text)) (w : Window) : Window :=
  { w with dialogs := boxes ++ w.dialogs }

variable {boxes : List (Text × Text)}

/-- A part of a drawing does not look at the error boxes. -/
def Unboxed (boxes : List (Text × Text)) (part : Window → Except Fault Unit × Window) : Prop :=
  ∀ w, part (w.after boxes) = ((part w).1, (part w).2.after boxes)

/-- Two changes of the window that do not look at the boxes do not do so together. -/
theorem unboxed_andThen {first second : Window → Except Fault Unit × Window}
    (h : Unboxed boxes first) (h' : Unboxed boxes second) : Unboxed boxes (andThen first second) := by
  intro w
  rw [andThen, andThen, h w]
  rcases first w with ⟨fault | _, w'⟩
  · rfl
  · exact h' w'

theorem unboxed_fillPanels (e : Engine) : Unboxed boxes (fillPanels e) := by
  intro w
  simp only [fillPanels, after]
  cases metricsText w.foreign e with
  | error fault => rfl
  | ok metrics =>
    cases availableText w.foreign e with
    | error fault => rfl
    | ok available => rfl

theorem unboxed_redraw (e : Engine) : Unboxed boxes (redraw e) :=
  unboxed_andThen (fun _ => rfl) (unboxed_andThen (fun _ => rfl) (unboxed_fillPanels e))

end Window

namespace WindowControl

open Desk

variable {α : Type} {boxes : List (Text × Text)}

/-- The call does the same after error boxes. -/
abbrev Unboxed (boxes : List (Text × Text)) (x : WindowControl α) : Prop :=
  Equivariant (Window.after boxes) x

/-- What is done with the window may read all of it but the boxes. -/
theorem unboxed_window {f : Window → WindowControl α} (hf : ∀ w, Unboxed boxes (f w))
    (hsame : ∀ w, f (w.after boxes) = f w) : Unboxed boxes (window >>= f) := by
  intro d
  rw [exec_bind, exec_bind, exec_window, exec_window]
  simp only [mapOutside, hsame]
  exact hf d.outside d

/-- A change of the window does not look at the boxes if it passes them on. -/
theorem unboxed_updateWindow {f : Window → Window}
    (hf : ∀ w, f (w.after boxes) = (f w).after boxes) : Unboxed boxes (updateWindow f) := by
  intro d
  simp only [exec_updateWindow, mapOutside, hf]

theorem unboxed_redraw : Unboxed boxes redraw := by
  intro d
  have hredraw : (d.outside.after boxes).redraw d.engine =
      ((d.outside.redraw d.engine).1, (d.outside.redraw d.engine).2.after boxes) :=
    Window.unboxed_redraw d.engine d.outside
  show (((d.outside.after boxes).redraw d.engine).1, { d with
    outside := ((d.outside.after boxes).redraw d.engine).2 }) = _
  rw [hredraw]
  rfl

theorem unboxed_logRow (text : Text) (colour : Option Text) :
    Unboxed boxes (logRow text colour) :=
  equivariant_bind (equivariant_update fun _ => rfl) fun _ => unboxed_updateWindow fun _ => rfl

theorem unboxed_clearRows : Unboxed boxes clearRows :=
  unboxed_updateWindow fun _ => rfl

theorem unboxed_say (text : Text) : Unboxed boxes (say text) :=
  unboxed_updateWindow fun _ => rfl

theorem unboxed_showError (title text : Text) : Unboxed boxes (showError title text) :=
  unboxed_updateWindow fun w => by simp [Window.after]

theorem unboxed_cancelSettle : Unboxed boxes cancelSettle :=
  fun _ => rfl

theorem unboxed_askSettle (generation : Nat) : Unboxed boxes (askSettle generation) := by
  rintro ⟨e, _ | g, owner, log, w⟩ <;> rfl

/-- No step looks at the boxes that are shown. -/
theorem unboxed_onStep (ev : Event) : Unboxed boxes (onStep ev) := by
  unfold onStep
  cases ev.transition with
  | none => exact equivariant_bind (unboxed_logRow _ _) fun _ => unboxed_redraw
  | some t =>
    exact equivariant_bind (unboxed_updateWindow fun _ => rfl) fun _ =>
      equivariant_bind (unboxed_logRow _ _) fun _ =>
        equivariant_bind unboxed_redraw fun _ => unboxed_askSettle ev.generation

theorem unboxed_settle (generation : Nat) : Unboxed boxes (settle generation) :=
  equivariant_bind (unboxed_updateWindow fun _ => rfl) fun _ =>
    equivariant_bind (equivariant_acknowledge unboxed_onStep 0 _) fun _ => unboxed_redraw

/-- No turn of the user looks at the boxes. -/
theorem unboxed_perform : ∀ task, Unboxed boxes (perform task)
  | .resume generation => equivariant_resume unboxed_onStep generation
  | .settle generation => unboxed_settle generation

/-- A new run does not look at the boxes. -/
theorem unboxed_restart (input : Text) : Unboxed boxes (restart input) :=
  equivariant_bind unboxed_cancelSettle fun _ =>
    equivariant_bind (equivariant_reset _ _) fun _ => unboxed_updateWindow fun _ => rfl

theorem unboxed_run : Unboxed boxes WindowControl.run :=
  unboxed_window
    (fun w => equivariant_bind (unboxed_restart w.entry) fun _ =>
      equivariant_bind (equivariant_engine _) fun _ =>
        equivariant_bind (unboxed_logRow _ _) fun _ =>
          equivariant_bind (equivariant_run unboxed_onStep 0) fun _ => unboxed_redraw)
    fun _ => rfl

theorem unboxed_step : Unboxed boxes WindowControl.step := by
  refine equivariant_bind (equivariant_engine _) fun _ =>
    equivariant_ite (equivariant_pure _ ()) ?_
  refine equivariant_bind (equivariant_engine _) fun e => unboxed_window (fun w => ?_) fun _ => rfl
  have hgo : Unboxed boxes (do
      logRow ("Passo manual " ++ toString ((← engine).steps + 1) ++ ".") none
      let _ ← Control.step onStep
      redraw) :=
    equivariant_bind (equivariant_engine _) fun _ =>
      equivariant_bind (unboxed_logRow _ _) fun _ =>
        equivariant_bind (equivariant_step unboxed_onStep) fun _ => unboxed_redraw
  exact equivariant_ite
    (unboxed_window (fun w => equivariant_bind (unboxed_restart w.entry) fun _ => hgo) fun _ => rfl)
    hgo

theorem unboxed_pause : Unboxed boxes WindowControl.pause :=
  equivariant_bind (equivariant_engine _) fun _ =>
    equivariant_ite (equivariant_bind (equivariant_pause _) fun _ => unboxed_say _)
      (equivariant_pure _ ())

theorem unboxed_restartFromEntry : Unboxed boxes restartFromEntry :=
  unboxed_window
    (fun w => equivariant_bind (unboxed_restart w.entry) fun _ =>
      equivariant_bind unboxed_clearRows fun _ =>
        equivariant_bind (equivariant_bind (equivariant_engine _) fun _ => equivariant_pure _ _)
          fun _ => equivariant_bind (unboxed_logRow _ _) fun _ =>
            equivariant_bind (unboxed_say _) fun _ => unboxed_redraw)
    fun _ => rfl

theorem unboxed_present (a : Automaton) (entry : Text) : Unboxed boxes (present a entry) :=
  equivariant_bind (unboxed_updateWindow fun _ => rfl) fun _ =>
    equivariant_bind unboxed_clearRows fun _ =>
      equivariant_bind (unboxed_logRow _ _) fun _ => unboxed_redraw

theorem unboxed_loadForeign (a : Automaton) (v : Json) : Unboxed boxes (loadForeign a v) := by
  refine equivariant_bind (equivariant_updateEngine _ _) fun _ => equivariant_ite ?_ ?_
  · cases v.elements? with
    | some cells =>
      exact equivariant_bind (equivariant_reset _ _) fun _ => unboxed_updateWindow fun _ => rfl
    | none =>
      exact equivariant_bind (equivariant_update fun _ => rfl) fun _ =>
        equivariant_bind (equivariant_updateEngine _ _) fun _ =>
          equivariant_bind (unboxed_updateWindow fun _ => rfl) fun _ => equivariant_throw _ _
  · exact equivariant_bind (equivariant_reset _ _) fun _ => unboxed_updateWindow fun _ => rfl

/-- An input does not look at the boxes, whatever its value. -/
theorem unboxed_loadInput (a : Automaton) (input : Json) : Unboxed boxes (loadInput a input) := by
  unfold loadInput
  split
  · exact equivariant_bind (equivariant_load _ _ _) fun _ => unboxed_updateWindow fun _ => rfl
  · refine unboxed_window (fun w => ?_) fun _ => rfl
    cases w.foreign with
    | none => exact equivariant_load _ _ _
    | some old => exact unboxed_loadForeign a old.value
  · exact unboxed_loadForeign a _

/-- Entering a value that is no text does not look at the boxes. -/
theorem unboxed_enterForeign (a : Automaton) (v : Json) : Unboxed boxes (enterForeign a v) := by
  refine equivariant_bind (unboxed_updateWindow fun _ => rfl) fun _ =>
    unboxed_window (fun w => ?_) fun _ => rfl
  cases w.room.entries.enter v with
  | error fault => exact equivariant_throw _ fault
  | ok shown => exact equivariant_bind (unboxed_present a shown) fun _ => equivariant_pure _ true

/-- Installing does not look at the boxes, refused or not. -/
theorem unboxed_install (a : Automaton) (input : Json) : Unboxed boxes (install a input) := by
  refine equivariant_bind unboxed_cancelSettle fun _ => ?_
  cases a.validate with
  | error defect =>
    exact equivariant_bind (unboxed_showError _ _) fun _ => equivariant_pure _ false
  | ok =>
    refine equivariant_bind (unboxed_loadInput a input) fun _ => ?_
    split
    · exact equivariant_bind (unboxed_present _ _) fun _ => equivariant_pure _ true
    · exact unboxed_enterForeign a _

theorem unboxed_openExample (x : Example) : Unboxed boxes (openExample x) :=
  equivariant_bind (unboxed_install _ _) fun _ =>
    equivariant_ite (unboxed_say _) (equivariant_pure _ ())

end WindowControl

namespace Turn

open WindowControl

variable {boxes : List (Text × Text)}

theorem unboxed_perform : ∀ t : Turn, Unboxed boxes t.perform
  | enterText text => unboxed_updateWindow (f := fun w => { w with entry := text }) fun _ => rfl
  | run => unboxed_run
  | step => unboxed_step
  | pause => unboxed_pause
  | restart => unboxed_restartFromEntry
  | openExample x => unboxed_openExample x
  | install a input => equivariant_bind (unboxed_install a input) fun _ => equivariant_pure _ ()
  | timer handle => by
    refine equivariant_get (fun d => ?_) fun _ => rfl
    split
    · exact equivariant_bind (equivariant_update fun _ => rfl) fun _ =>
        WindowControl.unboxed_perform _
    · exact equivariant_pure _ ()

/-- Whatever happens, it happens in the same way after error boxes. -/
theorem nextAll_after (ts : List Turn) (d : Desk Window) :
    nextAll (d.mapOutside (Window.after boxes)) ts =
      (nextAll d ts).mapOutside (Window.after boxes) := by
  induction ts generalizing d with
  | nil => rfl
  | cons t ts ih =>
    have hnext : (t.next (d.mapOutside (Window.after boxes))) =
        (t.next d).mapOutside (Window.after boxes) := congrArg Prod.snd (t.unboxed_perform d)
    show nextAll (t.next (d.mapOutside (Window.after boxes))) ts = _
    rw [hnext, ih]
    rfl

end Turn

/-! ## Refusal -/

namespace Desk

variable {d : Desk Window}

/-- The desk when the window has shown one more error box. -/
def told (d : Desk Window) (box : Text × Text) : Desk Window :=
  d.mapOutside fun w => { w with dialogs := w.dialogs ++ [box] }

/-- The desk without the error boxes. -/
def boxless (d : Desk Window) : Desk Window :=
  d.mapOutside fun w => { w with dialogs := [] }

theorem sameView_told (d : Desk Window) (box : Text × Text) : SameView d (d.told box) :=
  ⟨rfl, rfl, rfl, rfl, rfl, rfl, rfl⟩

/-- The error boxes of a desk do not change what happens. -/
theorem boxless_nextAll (ts : List Turn) (d : Desk Window) :
    (Turn.nextAll d ts).boxless = (Turn.nextAll d.boxless ts).boxless := by
  have hd : d = d.boxless.mapOutside (Window.after d.outside.dialogs) := by
    simp [boxless, Window.after, mapOutside]
  conv => lhs; rw [hd, Turn.nextAll_after]
  rfl

/-- A message box shown before makes no difference for the turns after it. -/
theorem boxless_nextAll_told (ts : List Turn) (d : Desk Window) (box : Text × Text) :
    (Turn.nextAll (d.told box) ts).boxless = (Turn.nextAll d ts).boxless := by
  rw [boxless_nextAll, boxless_nextAll ts d]
  rfl

/-- Without a step on display there is nothing to take from it. -/
theorem undisplayed_of_settle_eq_none (hsettle : d.outside.settle = none)
    (hhighlight : d.outside.highlight = none) : d.undisplayed = d := by
  rcases d with ⟨e, g, owner, log, w⟩
  rcases w
  simp only at hsettle hhighlight
  subst hsettle hhighlight
  rfl

/-- A steady window stays so when its display is taken back. -/
theorem Steady.undisplayed (h : d.Steady) : d.undisplayed.Steady :=
  ⟨h.stands.undisplayed, h.stopped, nofun, h.inFlight, h.continued⟩

/-- A step is in flight, and no timer is there that would confirm it. -/
structure Stranded (d : Desk Window) : Prop where
  inFlight : d.engine.inFlight = true
  timers : d.timers = []

/-- No timer moves a stranded window. -/
theorem Stranded.next_timer (h : d.Stranded) (handle : Nat) : (Turn.timer handle).next d = d := by
  have hnone : (d.agenda.bind fun g => g.job? handle) = none := by
    cases hg : d.agenda with
    | none => rfl
    | some g =>
      have hjobs : g.jobs = [] := by simpa [Desk.timers, jobs, hg] using h.timers
      simp [Agenda.job?, hjobs]
  rw [Turn.next, Turn.exec_timer, hnone]

/-- Neither a step by hand nor any timer moves a stranded run. -/
theorem Stranded.nextAll_eq (h : d.Stranded) {ts : List Turn}
    (hts : ∀ t ∈ ts, t = .step ∨ ∃ handle, t = .timer handle) : Turn.nextAll d ts = d := by
  refine Turn.nextAll_keeps (P := fun d' => d' = d) ?_ rfl
  rintro t ht d' rfl
  rcases hts t ht with rfl | ⟨handle, rfl⟩
  · exact congrArg Prod.snd (WindowControl.exec_step_inFlight h.inFlight)
  · exact h.next_timer handle

/-- A step whose display ends without a confirmation is stranded. -/
theorem Steady.stranded (h : d.Steady) (hs : d.outside.settle.isSome = true) (box : Text × Text) :
    (d.undisplayed.told box).Stranded where
  inFlight := (h.shown hs).1
  timers := by
    have htimers := h.stands.undisplayed.timers
    rw [h.inFlight (h.shown hs).1] at htimers
    exact htimers

end Desk

/-- The error box about an automaton that is not well-formed. -/
def Defect.box (defect : Defect) : Text × Text := ("Autômato inválido", defect.message)

/-- An automaton that is not well-formed is refused, after the display of the last step has ended. -/
theorem WindowControl.exec_install_of_invalid {a : Automaton} {defect : Defect}
    (hv : a.validate = .error defect) (input : Json) (d : Desk Window) :
    exec (install a input) d = (.ok false, d.undisplayed.told defect.box) := by
  unfold install
  rw [exec_bind_of_ok (exec_cancelSettle d), hv]
  rfl

namespace Turn

/-- An automaton that is not well-formed is to be installed. -/
def Refused : Turn → Prop
  | install a _ => a.validate ≠ .ok ()
  | _ => False

variable {d : Desk Window}

/-- Refused installs are among the turns that leave a window steady. -/
theorem steady_next_of_refused {t : Turn} (ht : t.Sound ∨ t.Refused) (h : d.Steady) : (t.next d).Steady := by
  rcases ht with ht | ht
  · obtain ⟨d', hnext, hsteady, -⟩ := exists_next ht h
    have hd' : t.next d = d' := congrArg Prod.snd hnext
    rwa [hd']
  · cases t with
    | install a input =>
      rcases hv : a.validate with defect | ⟨⟩
      · have hnext : (install a input).next d = d.undisplayed.told defect.box :=
          congrArg Prod.snd
            (exec_bind_of_ok (WindowControl.exec_install_of_invalid hv input d) _)
        rw [hnext]
        exact h.undisplayed.sameView (d.undisplayed.sameView_told _)
      · exact absurd hv ht
    | _ => exact ht.elim

end Turn

/-- Whatever has happened at the desk of a window : an automaton that is not well-formed is refused
with an error box, and the engine and its timer are left alone. If no step was on display, nothing
else has changed, and all that happens later is the same but for the error boxes. If a step was on
display, its timer is gone : the timer would have confirmed the step, and now no timer does. -/
theorem refused_install_of_turns {a b : Automaton} {w : Text} {delay : Int}
    {maxSteps : Option Int} {owner : Nat} {name : Text} {room : Room} {d : Desk Window}
    {ts : List Turn} {defect : Defect} (ha : a.Typed)
    (hroom : ∀ size, room.canvasSize = some size → Window.Drawable size)
    (hd : Desk.start a w delay true maxSteps (some (.empty true)) owner (Window.blank name room) =
      .ok d)
    (hts : ∀ t ∈ ts, t.Sound ∨ t.Refused) (hb : b.validate = .error defect) (input : Json) :
    let before := Turn.nextAll (exec (WindowControl.present a w) d).2 ts
    let after := before.undisplayed.told defect.box
    exec (WindowControl.install b input) before = (.ok false, after) ∧
      (before.outside.settle = none → after = before.told defect.box ∧
        ∀ us, (Turn.nextAll after us).boxless = (Turn.nextAll before us).boxless) ∧
      ∀ handle, before.outside.settle = some handle →
        ((Turn.timer handle).next before).engine.inFlight = false ∧ after.Stranded ∧
        ∀ us : List Turn, (∀ u ∈ us, u = .step ∨ ∃ handle, u = .timer handle) →
          Turn.nextAll after us = after := by
  intro before after
  obtain ⟨d', hpresent, hready⟩ := Desk.exists_present_new ha hroom hd
  have hbefore : before = Turn.nextAll d' ts := by
    show Turn.nextAll (exec (WindowControl.present a w) d).2 ts = _
    rw [hpresent]
  have hsteady : before.Steady :=
    hbefore ▸ Turn.nextAll_keeps (P := Desk.Steady)
      (fun t ht _ => Turn.steady_next_of_refused (hts t ht)) hready.steady.1
  refine ⟨WindowControl.exec_install_of_invalid hb input before, fun hs => ?_, fun handle hs => ?_⟩
  · have hhighlight : before.outside.highlight = none := by
      rw [hsteady.stands.highlight, hs]
      rfl
    have hafter : after = before.told defect.box :=
      congrArg (fun d : Desk Window => d.told defect.box)
        (Desk.undisplayed_of_settle_eq_none hs hhighlight)
    refine ⟨hafter, fun us => ?_⟩
    rw [hafter]
    exact Desk.boxless_nextAll_told us before defect.box
  · have hstranded : after.Stranded := hsteady.stranded (Option.isSome_of_eq_some hs) defect.box
    exact ⟨(hsteady.timer_settle hs).2, hstranded, fun us hus => hstranded.nextAll_eq hus⟩

/-- An automaton without states is refused while the first step of a run is on display. -/
theorem refused_install_of_turns_evenA :
    let a := Catalog.evenA.automaton
    let b : Automaton := { formalism := .fa, states := [], transitions := [] }
    let room : Room := ⟨⟨[]⟩, none, 0, .textsOnly⟩
    let ts : List Turn := [.run]
    let defect : Defect := .initialStates 0
    a.Typed ∧ (∀ size, room.canvasSize = some size → Window.Drawable size) ∧
      (∀ t ∈ ts, t.Sound ∨ t.Refused) ∧ b.validate = .error defect ∧
      ∃ d, Desk.start a "aa" 200 true none (some (.empty true)) 0 (Window.blank "w" room) = .ok d ∧
        let before := Turn.nextAll (exec (WindowControl.present a "aa") d).2 ts
        before.outside.settle = some 1 ∧ (before.undisplayed.told defect.box).Stranded := by
  intro a b room ts defect
  have ha : a.Typed := by decide
  have hroom : ∀ size, room.canvasSize = some size → Window.Drawable size := nofun
  have hts : ∀ t ∈ ts, t.Sound ∨ t.Refused := by simp [ts, Turn.Sound]
  have hb : b.validate = .error defect := by decide
  have hs : (Turn.nextAll (exec (WindowControl.present a "aa") (Desk.new a "aa" 200 true none
      (some (.empty true)) 0 (Window.blank "w" room))).2 ts).outside.settle = some 1 := by
    decide +kernel
  obtain ⟨-, -, hdisplayed⟩ := refused_install_of_turns ha hroom rfl hts hb .null
  exact ⟨ha, hroom, hts, hb, _, rfl, hs, (hdisplayed 1 hs).2.1⟩

/-- The timer that ends the display of the first step is cancelled by a refusal : when it would have
been due, the run has not gone on. -/
theorem refused_install_strands_evenA :
    let a := Catalog.evenA.automaton
    let b : Automaton := { formalism := .fa, states := [], transitions := [] }
    let d : Desk Window := Desk.new a "aa" 200 true none (some (.empty true)) 0
      (Window.blank "w" ⟨⟨[]⟩, none, 0, .textsOnly⟩)
    let before := Turn.run.next (exec (WindowControl.present a "aa") d).2
    let after := (Turn.install b (.str "")).next before
    before.timers = [(1, .settle 2)] ∧ before.outside.highlight.isSome = true ∧
      after.timers = [] ∧ after.outside.highlight = none ∧
      ((Turn.timer 1).next before).timers = [(2, .resume 2)] ∧
      ((Turn.timer 1).next after).timers = [] ∧
      ((Turn.timer 1).next before).engine.inFlight = false ∧
      ((Turn.timer 1).next after).engine.inFlight = true := by
  decide +kernel

end AutomatonLab
