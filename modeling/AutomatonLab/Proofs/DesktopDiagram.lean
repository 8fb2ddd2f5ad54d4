import AutomatonLab.Proofs.AnyInput
import AutomatonLab.Proofs.SavedSession

/-!
# The diagrams on a desktop

Whatever has happened at a desktop, a window has a well-formed automaton, so that its diagram shows
every state and every transition once if the states have their places. They have if all inputs were
texts (`Desk.OnText.located`, `diagram_of_happenings`). But the value of an opened file that fills no
tape leaves a new machine with the places of the old one (`missing_place_of_opened`).
-/

namespace AutomatonLab

open Control

/-! ## Desktops -/

namespace Desk

variable {d : Desk Window} {laid : Prop}

/-- If all inputs were texts, every state has its place. -/
theorem OnText.located (h : d.OnText True) : (d.outside.scene d.engine).Located :=
  Diagram.Scene.located_of_circle (h.places trivial)

/-- A run on a text stands in a state of the automaton. -/
theorem Kept.exists_current (h : d.Kept laid) (htext : d.outside.foreign = none) :
    ∃ q ∈ d.engine.automaton.states, d.engine.config.state = some q.name := by
  rcases h with h | ⟨-, h⟩
  · exact h.recorded.records.computation.declared h.wellFormed
  · have hforeign := h.foreign
    rw [htext] at hforeign
    cases hforeign

end Desk

/-- Whatever has happened at a desktop : the diagram of a window shows every state once and every
transition in one text, if all states have their places, which they have if all inputs were texts.
Otherwise the drawing breaks off at a state without a place. On a text, one state is the current
one. -/
theorem diagram_of_happenings {files : FileStore} {canvasSize : Option (Int × Int)}
    {rule : EntryRule} {hs : List Happening} {k : Nat} {d : Desk Window}
    (hd : ((Desktop.empty files canvasSize rule).nextAll hs).windows[k]? = some d)
    (hsize : ∀ size, ((Desktop.empty files canvasSize rule).nextAll hs).room.canvasSize =
      some size → Window.Drawable size) :
    let w := (((Desktop.empty files canvasSize rule).nextAll hs).lend d).outside
    let s := w.scene d.engine
    let drawn := Window.drawDiagram d.engine w
    ((Desktop.empty files canvasSize rule).Textual hs → s.Located) ∧
      (s.Located → drawn.1 = .ok () ∧ ∃ pairs edgePictures statePictures,
        s.Shows pairs edgePictures statePictures drawn.2.canvas) ∧
      (¬s.Located → ∃ name ∈ s.automaton.states.map State.name,
        s.places.lookup name = none ∧ drawn.1 = .error (.missingKey name)) ∧
      (d.outside.foreign = none → ∃ q ∈ s.automaton.states, s.current = some q.name) := by
  intro w s drawn
  have hkept : (((Desktop.empty files canvasSize rule).nextAll hs).lend d).Kept False :=
    Desktop.kept_of_happenings False.elim k d hd
  have hframed : s.Framed := Window.framed_scene hkept.typed.2.1 hsize
  have hresult : drawn.1 = (Diagram.draw s).2.elim (.ok ()) .error := congrArg Prod.fst (Window.drawDiagram_eq _ _)
  refine ⟨fun htextual => ?_, fun hlocated => ?_, fun hlost => ?_, fun htext => ?_⟩
  · rcases Desktop.kept_of_happenings (fun _ : True => htextual) k d hd with hon | ⟨hnot, -⟩
    · exact hon.located
    · exact absurd trivial hnot
  · obtain ⟨hnone, hshows⟩ := Diagram.exists_shows_of_located hframed hlocated
    exact ⟨by rw [hresult, hnone]; rfl, hshows⟩
  · obtain ⟨name, hname, hlookup, hfault⟩ :=
      Diagram.exists_missing_of_not_located hframed hlost
    exact ⟨name, hname, hlookup, by rw [hresult, hfault]; rfl⟩
  · exact hkept.exists_current htext

/-- A run of the palindromes : two transitions join the same states, and their edge is marked. -/
theorem diagram_of_happenings_palindrome :
    let hs : List Happening :=
      [.openWindow .pda, .command 0 (.openExample 3), .command 0 (.click 0)]
    let t := (Desktop.empty ⟨[]⟩ (some (700, 500))).nextAll hs
    ∃ d, t.windows[0]? = some d ∧ d.engine.automaton = Catalog.palindrome.automaton ∧
      let s := (t.lend d).outside.scene d.engine
      let drawn := Window.drawDiagram d.engine (t.lend d).outside
      drawn.1 = .ok () ∧
        (∃ pairs edgePictures statePictures,
          s.Shows pairs edgePictures statePictures drawn.2.canvas) ∧
        s.highlight = some (Text.ofString "q0", Text.ofString "q0") ∧
        ∃ q ∈ s.automaton.states, s.current = some q.name := by
  intro hs t
  have hstate : (t.windows[0]?.map fun d =>
      (d.engine.automaton, d.outside.foreign.isNone, d.outside.highlight)) =
      some (Catalog.palindrome.automaton, true,
        some (Text.ofString "q0", Text.ofString "q0")) := by
    decide +kernel
  obtain ⟨d, hd, hshown⟩ := Option.map_eq_some_iff.1 hstate
  simp only [Prod.mk.injEq, Option.isNone_iff_eq_none] at hshown
  obtain ⟨hautomaton, hforeign, hhighlight⟩ := hshown
  have hcanvas : t.room.canvasSize = some (700, 500) := by decide +kernel
  have hsize : ∀ size, t.room.canvasSize = some size → Window.Drawable size := fun size h => by
    obtain rfl := Option.some.inj (hcanvas.symm.trans h)
    exact ⟨by decide, by decide⟩
  have htextual : (Desktop.empty ⟨[]⟩ (some (700, 500))).Textual hs :=
    ⟨trivial, trivial, trivial, trivial⟩
  obtain ⟨hlocated, hdrawn, -, hcurrent⟩ := diagram_of_happenings hd hsize
  obtain ⟨hok, hshows⟩ := hdrawn (hlocated htextual)
  exact ⟨d, hd, hautomaton, hok, hshows, hhighlight, hcurrent hforeign⟩

/-! ## A diagram that cannot be drawn -/

/-- When the file has been opened, the window has a valid machine that cannot be drawn : the
states of the old one have their places. -/
theorem missing_place_of_opened :
    let hs : List Happening := [.openWindow .tm, .command 0 (.openFile "x")]
    let t := (Desktop.empty ⟨[(["x"], .regular strayText)]⟩ none).nextAll hs
    ∃ d, t.windows[0]? = some d ∧ d.engine.automaton.validate = .ok () ∧
      (Window.drawDiagram d.engine (t.lend d).outside).1 = .error (.missingKey "z") := by
  intro hs t
  -- the window when the file is opened
  generalize hbefore : (Desktop.empty ⟨[(["x"], .regular strayText)]⟩ none).next
    (.openWindow .tm) = before
  have hstate : (before.windows[0]?.map fun d =>
      (d.outside.places.lookup (Text.ofString "z")).isNone) = some true := by
    rw [← hbefore]
    decide +kernel
  obtain ⟨d, hd, hunknown⟩ := Option.map_eq_some_iff.1 hstate
  have hfiles : before.room.files = ⟨[(["x"], .regular strayText)]⟩ := by
    rw [← hbefore]
    decide +kernel
  have hread : (before.lend d).outside.room.files.read "x" = .ok strayText := by
    show before.room.files.read "x" = _
    rw [hfiles, read_single (by decide +kernel)]
  -- and what is left of it
  have hdata : (Automaton.ofJson strayValue).result =
      .ok ⟨.tm, [⟨"z", false, false⟩, ⟨"q0", true, false⟩], []⟩ := by rfl
  have hinput : (strayValue.member? "input").getD (.str "") = .int 5 := by rfl
  have hempty : ¬(Json.int 5).Fills .tm := fun h => nomatch h rfl
  obtain ⟨fault, d', hopen, htorn⟩ := WindowControl.exists_openFile_torn (by decide)
    (WindowControl.readFile_eq_ok hread read_strayText hdata) hdata hinput nofun (.inl hempty)
  have hexec : exec (WindowCommand.openFile "x").perform (before.lend d) = (.error fault, d') := by
    rw [WindowCommand.perform, exec_bind, hopen]
  have ht : t = before.restore 0 d' := by
    show (Desktop.next _ (.openWindow .tm)).next (.command 0 (.openFile "x")) = _
    rw [hbefore]
    exact congrArg Prod.snd (Desktop.onWindow_of_exec hd hexec)
  -- no transition is drawn, and the first state has no place
  generalize hscene : (t.lend d').outside.scene d'.engine = s
  have hautomaton : s.automaton =
      ⟨.tm, [⟨"z", false, false⟩, ⟨"q0", true, false⟩], []⟩ := by
    rw [← hscene]
    exact htorn.automaton
  have hlookup : s.places.lookup (Text.ofString "z") = none := by
    have hplaces : s.places = d.outside.places := by
      rw [← hscene]
      exact htorn.places
    rw [hplaces]
    exact Option.isNone_iff_eq_none.1 hunknown
  have hdraw : (Diagram.draw s).2 = some (.missingKey (Text.ofString "z")) := by
    rw [Diagram.draw, hautomaton, List.map_cons, Diagram.Scene.stateItems, Diagram.Scene.place,
      hlookup]
    rfl
  refine ⟨d', by rw [ht]; exact Desktop.windows_restore hd d', by rw [htorn.automaton]; rfl, ?_⟩
  rw [Window.drawDiagram_eq, hscene, hdraw]
  rfl

end AutomatonLab
