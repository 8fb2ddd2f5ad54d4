import AutomatonLab.Proofs.WindowSession

/-!
# What a window shows is how its engine stands

A window depicts an engine if its pictures and the texts of its panels are those that would be drawn
now (`Window.Depicts`) : drawing again changes nothing but the status bar
(`Window.Depicts.redraw_eq`). A drawing that comes to its end leaves such a window, whatever was
shown before (`Window.depicts_of_redraw`). So nearly every command depicts the engine because it
ends with a drawing (`WindowControl.Paints`), and what is left to do after a drawing, like asking for a
timer, does not touch what is shown (`WindowControl.Retains`). Together with the fact that every
command comes to its end this is all that is needed (`depicted_of_turns`).
-/

namespace AutomatonLab

open Control

namespace Window

/-- The pictures and the texts of the panels are those of the engine as it stands. -/
structure Depicts (w : Window) (e : Engine) : Prop where
  canvas : Diagram.draw (w.scene e) = (w.canvas, none)
  memory : MemoryStrip.draw (w.memoryContents e) = (w.memory, none)
  info : infoText e.automaton = w.info
  metrics : metricsText w.foreign e = .ok w.metrics
  available : availableText w.foreign e = .ok w.available

/-- The window with a status bar that tells how the engine stands. -/
def reporting (w : Window) (e : Engine) : Window :=
  { w with status := statusBar e, statusColour := some (e.status.colour?.getD "black") }

variable {w w' w₁ : Window} {e e' : Engine}

theorem drawDiagram_of_draw (h : Diagram.draw (w.scene e) = (w'.canvas, none)) :
    drawDiagram e w = (.ok (), { w with canvas := w'.canvas }) := by
  rw [drawDiagram_eq, h]
  rfl

theorem drawMemory_of_draw (h : MemoryStrip.draw (w.memoryContents e) = (w'.memory, none)) :
    drawMemory e w = (.ok (), { w with memory := w'.memory }) := by
  rw [drawMemory_eq, h]
  rfl

/-- A window that depicts the engine is drawn as it is, but for the status bar. -/
theorem Depicts.redraw_eq (h : w.Depicts e) : w.redraw e = (.ok (), w.reporting e) := by
  rw [redraw, andThen, drawDiagram_of_draw h.canvas]
  simp only [andThen, drawMemory_of_draw h.memory, fillPanels, h.metrics, h.available, h.info]
  rfl

/-- A diagram that was completed is what the canvas shows. -/
theorem drawDiagram_eq_ok (h : drawDiagram e w = (.ok (), w₁)) :
    ∃ items, Diagram.draw (w.scene e) = (items, none) ∧ w₁ = { w with canvas := items } := by
  obtain ⟨hcomplete, rfl⟩ := Prod.mk.inj h
  exact ⟨_, Prod.ext rfl (elim_eq_ok_iff.1 hcomplete), rfl⟩

/-- A strip that was completed is what the small canvas shows. -/
theorem drawMemory_eq_ok (h : drawMemory e w = (.ok (), w₁)) :
    ∃ items, MemoryStrip.draw (w.memoryContents e) = (items, none) ∧
      w₁ = { w with memory := items } := by
  obtain ⟨hcomplete, rfl⟩ := Prod.mk.inj h
  exact ⟨_, Prod.ext rfl (elim_eq_ok_iff.1 hcomplete), rfl⟩

/-- Panels that were filled have the texts about the engine. -/
theorem fillPanels_eq_ok (h : fillPanels e w = (.ok (), w₁)) :
    ∃ metrics available, metricsText w.foreign e = .ok metrics ∧
      availableText w.foreign e = .ok available ∧ w₁ = ({ w with
        info := infoText e.automaton
        metrics := metrics
        available := available } : Window).reporting e := by
  rw [fillPanels] at h
  cases hmetrics : metricsText w.foreign e with
  | error fault =>
    simp only [hmetrics] at h
    cases (Prod.mk.inj h).1
  | ok metrics =>
    cases havailable : availableText w.foreign e with
    | error fault =>
      simp only [hmetrics, havailable] at h
      cases (Prod.mk.inj h).1
    | ok available =>
      simp only [hmetrics, havailable] at h
      exact ⟨metrics, available, rfl, rfl, (Prod.mk.inj h).2.symm⟩

/-- Two parts are completed if each of them is. -/
theorem andThen_eq_ok {first second : Window → Except Fault Unit × Window}
    (h : andThen first second w = (.ok (), w')) :
    ∃ w₁, first w = (.ok (), w₁) ∧ second w₁ = (.ok (), w') := by
  rw [andThen] at h
  rcases hfirst : first w with ⟨fault | ⟨⟩, w₁⟩
  · rw [hfirst] at h
    cases h
  · rw [hfirst] at h
    exact ⟨w₁, rfl, h⟩

/-- What has been drawn to its end depicts the engine, whatever was shown before. -/
theorem depicts_of_redraw (h : w.redraw e = (.ok (), w')) : w'.Depicts e := by
  obtain ⟨w₁, hdiagram, hrest⟩ := andThen_eq_ok h
  obtain ⟨w₂, hmemory, hpanels⟩ := andThen_eq_ok hrest
  obtain ⟨canvas, hcanvas, rfl⟩ := drawDiagram_eq_ok hdiagram
  obtain ⟨memory, hstrip, rfl⟩ := drawMemory_eq_ok hmemory
  obtain ⟨metrics, available, hmetrics, havailable, rfl⟩ := fillPanels_eq_ok hpanels
  exact ⟨hcanvas, hstrip, rfl, hmetrics, havailable⟩

/-- How the run goes on is not shown, only how it stands. -/
theorem Depicts.sameRun (h : w.Depicts e) (hrun : e.SameRun e') (hs : e'.status = e.status) :
    w.Depicts e' := by
  rw [Engine.SameRun, hs] at hrun
  rw [hrun]
  exact ⟨h.canvas, h.memory, h.info, h.metrics, h.available⟩

end Window

namespace Desk

variable {d d' : Desk Window}

/-- The window depicts the engine. -/
def Depicted (d : Desk Window) : Prop := d.outside.Depicts d.engine

theorem Depicted.sameRun (h : d.Depicted) (hrun : d.SameRun d') (hoff : d'.outside = d.outside) :
    d'.Depicted := by
  rw [Depicted, hoff]
  exact Window.Depicts.sameRun h hrun.engine hrun.status

/-- The desk with a status bar that tells how the engine stands. -/
def reporting (d : Desk Window) : Desk Window :=
  { d with outside := d.outside.reporting d.engine }

/-- What is depicted looks the same when it is drawn again, but for the status bar. -/
theorem Depicted.exec_redraw (h : d.Depicted) :
    exec WindowControl.redraw d = (.ok (), d.reporting) := by
  show ((d.outside.redraw d.engine).1, { d with outside := (d.outside.redraw d.engine).2 }) = _
  rw [Window.Depicts.redraw_eq h]
  rfl

end Desk

namespace WindowControl

open Desk

variable {α β : Type} {x y : WindowControl α} {f : α → WindowControl β}

/-- Whatever was shown before, the window depicts the engine when the call returns. -/
def Paints (x : WindowControl α) : Prop :=
  ∀ d a d', exec x d = (.ok a, d') → d'.Depicted

/-- A window that depicts the engine does so when the call returns. -/
def Retains (x : WindowControl α) : Prop :=
  ∀ d a d', d.Depicted → exec x d = (.ok a, d') → d'.Depicted

theorem Paints.retains (h : Paints x) : Retains x := fun d a d' _ hx => h d a d' hx

/-- What a call leaves is painted by the last one of its calls. -/
theorem paints_bind (hf : ∀ a, Paints (f a)) : Paints (x >>= f) := by
  intro d b d' h
  obtain ⟨a, d₁, -, hd'⟩ := exec_ok_of_bind h
  exact hf a d₁ b d' hd'

/-- What is done after a drawing does not touch it. -/
theorem Paints.bind (hx : Paints x) (hf : ∀ a, Retains (f a)) : Paints (x >>= f) := by
  intro d b d' h
  obtain ⟨a, d₁, hd₁, hd'⟩ := exec_ok_of_bind h
  exact hf a d₁ b d' (hx d a d₁ hd₁) hd'

/-- Two calls in a row retain the picture if each does. -/
theorem Retains.bind (hx : Retains x) (hf : ∀ a, Retains (f a)) : Retains (x >>= f) := by
  intro d b d' hd h
  obtain ⟨a, d₁, hd₁, hd'⟩ := exec_ok_of_bind h
  exact hf a d₁ b d' (hx d a d₁ hd hd₁) hd'

/-- A call with a known effect retains the picture if the effect does. -/
theorem retains_of_eq {r : Desk Window → Except Fault α} {g : Desk Window → Desk Window}
    (hx : ∀ d, exec x d = (r d, g d)) (hg : ∀ d, d.Depicted → (g d).Depicted) : Retains x := by
  intro d a d' hd h
  rw [hx] at h
  exact (Prod.mk.inj h).2 ▸ hg d hd

theorem retains_pure (a : α) : Retains (pure a) :=
  retains_of_eq (exec_pure a) fun _ h => h

theorem retains_engine : Retains engine :=
  retains_of_eq exec_engine fun _ h => h

theorem retains_ite {c : Prop} [Decidable c] (hx : Retains x) (hy : Retains y) :
    Retains (if c then x else y) := by
  split
  · exact hx
  · exact hy

theorem paints_ite {c : Prop} [Decidable c] (hx : Paints x) (hy : Paints y) :
    Paints (if c then x else y) := by
  split
  · exact hx
  · exact hy

/-- The change does not concern what is shown. -/
theorem retains_update {g : Desk Window → Desk Window}
    (hg : ∀ d, d.SameRun (g d) ∧ (g d).outside = d.outside) : Retains (update g) :=
  retains_of_eq (exec_update g) fun d h => h.sameRun (hg d).1 (hg d).2

theorem retains_say (text : Text) : Retains (say text) :=
  retains_of_eq (exec_updateWindow _) fun _ h =>
    ⟨h.canvas, h.memory, h.info, h.metrics, h.available⟩

theorem retains_askSettle (generation : Nat) : Retains (askSettle generation) := by
  rintro ⟨e, _ | g, owner, log, w⟩ ⟨⟩ d' h hx
  · exact (Prod.mk.inj hx).2 ▸ h
  · exact (Prod.mk.inj hx).2 ▸ ⟨h.canvas, h.memory, h.info, h.metrics, h.available⟩

/-- A drawing that is completed depicts the engine. -/
theorem paints_redraw : Paints redraw := by
  intro d a d' h
  have hdrawn : ((d.outside.redraw d.engine).1,
      ({ d with outside := (d.outside.redraw d.engine).2 } : Desk Window)) = (.ok a, d') := h
  obtain ⟨hr, rfl⟩ := Prod.mk.inj hdrawn
  exact Window.depicts_of_redraw (Prod.ext hr rfl)

/-! ## Steps and timers -/

/-- A step is drawn when the window is told of it. -/
theorem paints_onStep (ev : Event) : Paints (onStep ev) := by
  unfold onStep
  cases ev.transition with
  | none => exact paints_bind fun _ => paints_redraw
  | some t =>
    exact paints_bind fun _ => paints_bind fun _ =>
      paints_redraw.bind fun _ => retains_askSettle ev.generation

/-- The listener draws before the run goes on, but how it goes on is not shown. -/
theorem paints_advance : Paints (advance onStep) :=
  paints_bind fun ev => paints_bind fun _ =>
    (paints_onStep ev).bind fun _ =>
      (retains_update fun d => ⟨d.sameRun_goOn, d.outside_goOn⟩).bind fun _ => retains_pure ev

theorem retains_resume (generation : Nat) : Retains (resume onStep generation) := by
  refine (retains_of_eq (exec_updateEngine _) fun d h => ?_).bind fun _ =>
    retains_engine.bind fun e => retains_ite (retains_pure ()) ?_
  · exact h.sameRun d.sameRun_woken rfl
  · exact (paints_advance.bind fun _ => retains_pure ()).retains

/-- The end of a display is drawn. -/
theorem paints_settle (generation : Nat) : Paints (settle generation) :=
  paints_bind fun _ => paints_bind fun _ => paints_redraw

/-- A timer of the window or of its engine leaves a true picture. -/
theorem retains_perform : ∀ task, Retains (perform task)
  | .resume generation => retains_resume generation
  | .settle generation => (paints_settle generation).retains

/-! ## Commands -/

theorem paints_run : Paints WindowControl.run :=
  paints_bind fun _ => paints_bind fun _ => paints_bind fun _ => paints_bind fun _ =>
    paints_bind fun _ => paints_redraw

/-- A step by hand draws, or does nothing. -/
theorem retains_step : Retains WindowControl.step := by
  have hgo : Paints (do
      logRow ("Passo manual " ++ toString ((← engine).steps + 1) ++ ".") none
      let _ ← Control.step onStep
      redraw) :=
    paints_bind fun _ => paints_bind fun _ => paints_bind fun _ => paints_redraw
  refine retains_engine.bind fun _ => retains_ite (retains_pure ()) (Paints.retains ?_)
  exact paints_bind fun _ => paints_bind fun _ =>
    paints_ite (paints_bind fun _ => paints_bind fun _ => hgo) hgo

/-- A pause changes the status bar only. -/
theorem retains_pause : Retains WindowControl.pause := by
  refine retains_engine.bind fun _ => retains_ite (Retains.bind ?_ fun _ => retains_say _)
    (retains_pure ())
  exact retains_update fun d => ⟨d.sameRun_pause, rfl⟩

theorem paints_restartFromEntry : Paints restartFromEntry :=
  paints_bind fun _ => paints_bind fun _ => paints_bind fun _ => paints_bind fun _ =>
    paints_bind fun _ => paints_bind fun _ => paints_redraw

theorem paints_present (a : Automaton) (entry : Text) : Paints (present a entry) :=
  paints_bind fun _ => paints_bind fun _ => paints_bind fun _ => paints_redraw

/-- An automaton is drawn when it has been installed. -/
theorem paints_install {a : Automaton} (hv : a.validate = .ok ()) (entry : Text) :
    Paints (install a (.str entry)) := by
  refine paints_bind fun _ => ?_
  rw [hv]
  exact paints_bind fun _ => (paints_present a entry).bind fun _ => retains_pure true

theorem paints_openExample {x : Example} (hx : x ∈ Catalog.examples) : Paints (openExample x) :=
  (paints_install (valid_of_mem_examples hx).2 x.input).bind fun _ =>
    retains_ite (retains_say _) (retains_pure ())

end WindowControl

namespace Turn

open WindowControl

variable {d : Desk Window}

/-- No turn leaves a picture of what is no longer so. -/
theorem retains_perform {t : Turn} (ht : t.Sound) : Retains t.perform := by
  cases t with
  | enterText text =>
    exact retains_of_eq (exec_updateWindow fun w => { w with entry := text }) fun _ h =>
      ⟨h.canvas, h.memory, h.info, h.metrics, h.available⟩
  | run => exact paints_run.retains
  | step => exact retains_step
  | pause => exact retains_pause
  | restart => exact paints_restartFromEntry.retains
  | openExample x => exact (paints_openExample ht).retains
  | install a input =>
    obtain ⟨-, hv, entry, rfl⟩ := ht
    exact ((paints_install hv entry).bind fun _ => retains_pure ()).retains
  | timer handle =>
    intro d a d' h hx
    rw [exec_timer] at hx
    cases hjob : d.agenda.bind fun g => g.job? handle with
    | none =>
      rw [hjob] at hx
      exact (Prod.mk.inj hx).2 ▸ h
    | some j =>
      rw [hjob] at hx
      exact WindowControl.retains_perform j.task _ a d' (h.sameRun (d.sameRun_elapsed j) rfl) hx

/-- A turn comes to its end, and the window depicts the engine as before. -/
theorem depicted_next {t : Turn} (ht : t.Sound) (hsteady : d.Steady) (h : d.Depicted) :
    (t.next d).Depicted := by
  obtain ⟨d', hnext, -⟩ := exists_next ht hsteady
  have hd' : t.next d = d' := congrArg Prod.snd hnext
  rw [hd']
  exact retains_perform ht d () d' h hnext

end Turn

/-- Whatever has happened at the desk of a window : if everything is drawn once more, nothing changes
but the status bar. -/
theorem depicted_of_turns {a : Automaton} {w : Text} {delay : Int} {maxSteps : Option Int}
    {owner : Nat} {name : Text} {room : Room} {d : Desk Window} {ts : List Turn} (ha : a.Typed)
    (hroom : ∀ size, room.canvasSize = some size → Window.Drawable size)
    (hd : Desk.start a w delay true maxSteps (some (.empty true)) owner (Window.blank name room) =
      .ok d)
    (hts : ∀ t ∈ ts, t.Sound) :
    let shown := Turn.nextAll (exec (WindowControl.present a w) d).2 ts
    exec WindowControl.redraw shown = (.ok (), shown.reporting) := by
  intro shown
  obtain ⟨d', hpresent, hready⟩ := Desk.exists_present_new ha hroom hd
  have hpainted : d'.Depicted := WindowControl.paints_present a w d () d' hpresent
  have hshown : shown = Turn.nextAll d' ts := by
    show Turn.nextAll (exec (WindowControl.present a w) d).2 ts = _
    rw [hpresent]
  obtain ⟨-, hdepicted⟩ := Turn.nextAll_keeps
    (P := fun d => (d.Steady ∧ d.Shown) ∧ d.Depicted)
    (fun t ht _ h => ⟨Turn.steady_next (hts t ht) h.1, Turn.depicted_next (hts t ht) h.1.1 h.2⟩)
    ⟨hready.steady, hpainted⟩
  rw [hshown]
  exact hdepicted.exec_redraw

/-- A run that has reached its limit of one transition when its step was confirmed. -/
theorem depicted_of_turns_evenA :
    let a := Catalog.evenA.automaton
    let room : Room := ⟨⟨[]⟩, none, 0, .textsOnly⟩
    let ts : List Turn := [.enterText "ab", .run, .timer 1, .step]
    a.Typed ∧ (∀ size, room.canvasSize = some size → Window.Drawable size) ∧
      (∀ t ∈ ts, t.Sound) ∧
      ∃ d, Desk.start a "aa" 200 true (some 1) (some (.empty true)) 0 (Window.blank "w" room) =
          .ok d ∧
        let shown := Turn.nextAll (exec (WindowControl.present a "aa") d).2 ts
        exec WindowControl.redraw shown = (.ok (), shown.reporting) ∧
          shown.outside.highlight = some (Text.ofString "odd", Text.ofString "odd") ∧
          shown.engine.steps = 2 := by
  intro a room ts
  have ha : a.Typed := by decide
  have hroom : ∀ size, room.canvasSize = some size → Window.Drawable size := nofun
  have hts : ∀ t ∈ ts, t.Sound := by simp [ts, Turn.Sound]
  refine ⟨ha, hroom, hts, _, rfl, depicted_of_turns ha hroom rfl hts, ?_⟩
  decide +kernel

end AutomatonLab
