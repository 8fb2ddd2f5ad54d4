import AutomatonLab.Proofs.Computation
import AutomatonLab.Proofs.Picture
import AutomatonLab.Window.Basic

/-!
# Drawing succeeds

A window can show an engine if the automaton is well-formed and has its labels of its own formalism,
each state has its place on the circle, the input is a text, and the canvas has a size that numbers
can be computed with (`Window.Fits`). Then every state and every edge is drawn
(`Diagram.draw_of_placed`), and the window is complete : the pictures and the texts of its panels are
new, and all else is as it was (`Window.Fits.exists_redraw`). A drawing that breaks off changes
nothing else either (`Window.samePage_redraw`).
-/

namespace AutomatonLab

/-! ## The diagram -/

namespace Diagram

/-- Each state has a place on the circle. -/
theorem isSome_lookup_circle {states : List State} {name : Text}
    (h : name ∈ states.map State.name) : ((circle states).lookup name).isSome = true := by
  obtain ⟨s, hs, rfl⟩ := List.mem_map.1 h
  obtain ⟨i, hi⟩ := List.getElem?_of_mem hs
  rw [← Option.ne_none_iff_isSome]
  intro hnone
  have hmem : (s, i) ∈ states.zipIdx := List.mem_zipIdx_iff_getElem?.2 hi
  have hplace := List.lookup_eq_none_iff.1 hnone _ (List.mem_map_of_mem hmem)
  simp at hplace

namespace Scene

variable {s : Scene}

/-- The states and the middle of the canvas have their places. -/
structure Placed (s : Scene) : Prop where
  wellFormed : s.automaton.WellFormed
  places : s.places = circle s.automaton.states
  width : s.size.1.natAbs.log2 < 1024
  height : s.size.2.natAbs.log2 < 1024

theorem Placed.framed (h : s.Placed) : s.Framed := ⟨h.wellFormed, h.width, h.height⟩

/-- A diagram whose places are the circle of its states lacks none. -/
theorem located_of_circle (h : s.places = circle s.automaton.states) : s.Located := by
  intro q hq
  rw [h]
  exact isSome_lookup_circle (List.mem_map_of_mem hq)

end Scene

/-- A diagram whose states have their places is drawn to its end. -/
theorem draw_of_placed {s : Scene} (h : s.Placed) : (draw s).2 = none :=
  (exists_shows_of_located h.framed (Scene.located_of_circle h.places)).1

end Diagram

/-! ## The window -/

namespace Window

variable {w : Window} {e : Engine}

/-- A canvas of the given size is drawn on : both sides are below `2 ^ 1024`. -/
def Drawable (size : Int × Int) : Prop :=
  size.1.natAbs.log2 < 1024 ∧ size.2.natAbs.log2 < 1024

/-- The window can show the engine. -/
structure Fits (w : Window) (e : Engine) : Prop where
  typed : e.automaton.Typed
  wellFormed : e.automaton.WellFormed
  cursor : 0 ≤ e.config.cursor
  places : w.places = Diagram.circle e.automaton.states
  foreign : w.foreign = none
  size : ∀ size, w.room.canvasSize = some size → Drawable size

/-- The window fits all the same when an engine of the same automaton has moved. -/
theorem Fits.congr {w' : Window} {e' : Engine} (h : w.Fits e)
    (hautomaton : e'.automaton = e.automaton) (hcursor : 0 ≤ e'.config.cursor)
    (hplaces : w'.places = w.places) (hforeign : w'.foreign = w.foreign)
    (hroom : w'.room = w.room) : w'.Fits e' where
  typed := hautomaton ▸ h.typed
  wellFormed := hautomaton ▸ h.wellFormed
  cursor := hcursor
  places := by rw [hplaces, h.places, hautomaton]
  foreign := hforeign.trans h.foreign
  size := hroom ▸ h.size

/-- The middle of a canvas can be computed, whether its size is known or not. -/
theorem framed_scene (hwell : e.automaton.WellFormed)
    (hsize : ∀ size, w.room.canvasSize = some size → Drawable size) : (w.scene e).Framed := by
  have hdrawable : Drawable (w.scene e).size := by
    simp only [scene]
    cases hcanvas : w.room.canvasSize with
    | none => exact ⟨by decide, by decide⟩
    | some size => exact hsize size hcanvas
  exact ⟨hwell, hdrawable.1, hdrawable.2⟩

theorem Fits.placed (h : w.Fits e) : (w.scene e).Placed := by
  have hframed := framed_scene h.wellFormed h.size
  exact ⟨h.wellFormed, h.places, hframed.width, hframed.height⟩

/-- What is left of a text can be shown. -/
theorem Fits.draw_memory (h : w.Fits e) : (MemoryStrip.draw (w.memoryContents e)).2 = none := by
  have hrest : (w.memoryContents e).rest =
      .ok ((Text.singletons e.config.remaining).map .str) := by
    simp [memoryContents, inputRest, h.foreign]
  rw [MemoryStrip.draw]
  split
  · rfl
  · rw [hrest]

theorem Fits.exists_metricsText (h : w.Fits e) : ∃ text, metricsText w.foreign e = .ok text := by
  rw [h.foreign, metricsText]
  split <;> exact ⟨_, rfl⟩

theorem Fits.exists_availableText (h : w.Fits e) :
    ∃ text, availableText w.foreign e = .ok text := by
  obtain ⟨ts, hts⟩ := Configuration.exists_applicable h.typed h.cursor
  have happlicable : applicable none e = .ok ts := hts
  rw [h.foreign, availableText, happlicable]
  exact ⟨_, rfl⟩

/-- The two windows differ at most in their pictures and in the texts about the engine. -/
def SamePage (w w' : Window) : Prop :=
  w' = { w with
    status := w'.status
    statusColour := w'.statusColour
    info := w'.info
    metrics := w'.metrics
    available := w'.available
    canvas := w'.canvas
    memory := w'.memory }

/-- A picture is complete exactly if there was no fault. -/
theorem elim_eq_ok_iff {fault : Option Fault} :
    fault.elim (Except.ok ()) Except.error = .ok () ↔ fault = none := by
  cases fault <;> simp

/-- The diagram is shown up to where it breaks off. -/
theorem drawDiagram_eq (e : Engine) (w : Window) :
    drawDiagram e w = ((Diagram.draw (w.scene e)).2.elim (.ok ()) .error,
      { w with canvas := (Diagram.draw (w.scene e)).1 }) :=
  rfl

/-- The strip is shown up to where it breaks off. -/
theorem drawMemory_eq (e : Engine) (w : Window) :
    drawMemory e w = ((MemoryStrip.draw (w.memoryContents e)).2.elim (.ok ()) .error,
      { w with memory := (MemoryStrip.draw (w.memoryContents e)).1 }) :=
  rfl

/-- The diagram of a placed scene is drawn to its end. -/
theorem drawDiagram_of_placed (h : (w.scene e).Placed) :
    drawDiagram e w = (.ok (), { w with canvas := (Diagram.draw (w.scene e)).1 }) := by
  rw [drawDiagram_eq, elim_eq_ok_iff.2 (Diagram.draw_of_placed h)]

/-- A window is complete if its strip is drawn to its end and both texts of the panels are there. -/
theorem exists_redraw_of_parts (hplaced : (w.scene e).Placed)
    (hstrip : (MemoryStrip.draw (w.memoryContents e)).2 = none) {metrics available : Text}
    (hmetrics : metricsText w.foreign e = .ok metrics)
    (havailable : availableText w.foreign e = .ok available) :
    ∃ w', w.redraw e = (.ok (), w') ∧ w.SamePage w' := by
  have hdiagram := drawDiagram_of_placed hplaced
  generalize hw₁ : ({ w with canvas := (Diagram.draw (w.scene e)).1 } : Window) = w₁ at hdiagram
  have hmemory : drawMemory e w₁ =
      (.ok (), { w₁ with memory := (MemoryStrip.draw (w₁.memoryContents e)).1 }) := by
    -- the strip does not depend on the canvas
    have hnone : (MemoryStrip.draw (w₁.memoryContents e)).2 = none := hw₁ ▸ hstrip
    rw [drawMemory_eq, elim_eq_ok_iff.2 hnone]
  rw [redraw, andThen, hdiagram]
  simp only [andThen, hmemory, fillPanels]
  subst hw₁
  simp only [hmetrics, havailable]
  exact ⟨_, rfl, rfl⟩

/-- A strip that breaks off is the last part of a drawing. -/
theorem fst_redraw_of_strip (hplaced : (w.scene e).Placed) {fault : Fault}
    (hstrip : (MemoryStrip.draw (w.memoryContents e)).2 = some fault) :
    (w.redraw e).1 = .error fault := by
  have hmemory : (drawMemory e { w with canvas := (Diagram.draw (w.scene e)).1 }).1 =
      .error fault :=
    congrArg (fun r : Option Fault => r.elim (Except.ok ()) Except.error) hstrip
  rw [redraw, andThen, drawDiagram_of_placed hplaced]
  simp only [andThen]
  split
  case h_1 fault' w' hbroken =>
    rw [hbroken] at hmemory
    exact hmemory
  case h_2 hcomplete =>
    rw [hcomplete] at hmemory
    cases hmemory

/-- The window shows the engine completely. -/
theorem Fits.exists_redraw (h : w.Fits e) :
    ∃ w', w.redraw e = (.ok (), w') ∧ w.SamePage w' := by
  obtain ⟨metrics, hmetrics⟩ := h.exists_metricsText
  obtain ⟨available, havailable⟩ := h.exists_availableText
  exact exists_redraw_of_parts h.placed h.draw_memory hmetrics havailable

theorem SamePage.trans {w' w'' : Window} (h : w.SamePage w') (h' : w'.SamePage w'') :
    w.SamePage w'' := by
  unfold SamePage at h h' ⊢
  rw [h', h]

/-- Two parts of a drawing leave the page alone if each does. -/
theorem samePage_andThen {first second : Window → Except Fault Unit × Window}
    (hfirst : ∀ w : Window, w.SamePage (first w).2) (hsecond : ∀ w : Window, w.SamePage (second w).2)
    (w : Window) : w.SamePage (andThen first second w).2 := by
  have hw := hfirst w
  rw [andThen]
  rcases hr : first w with ⟨fault | ⟨⟩, w₁⟩
  · rwa [hr] at hw
  · rw [hr] at hw
    exact hw.trans (hsecond w₁)

/-- A drawing changes the pictures and the texts about the engine, even if it breaks off. -/
theorem samePage_redraw (e : Engine) (w : Window) : w.SamePage (w.redraw e).2 := by
  have hdiagram (w : Window) : w.SamePage (drawDiagram e w).2 := rfl
  have hmemory (w : Window) : w.SamePage (drawMemory e w).2 := rfl
  have hpanels (w : Window) : w.SamePage (fillPanels e w).2 := by
    simp only [fillPanels]
    split
    · rfl
    · split <;> rfl
  exact samePage_andThen hdiagram (samePage_andThen hmemory hpanels) w

end Window

end AutomatonLab
