import AutomatonLab.Proofs.WindowSession

/-!
# An input that is no text

The input of an opened file may be any value, and it is looked at in three places. A new run begins
on it, unless it is to fill a tape and has no elements (`Json.Fills`). The toolkit enters it as some
text or refuses it (`EntryRule`). When the states have been laid out, it is drawn; what is left of it
is cut like a text, which only a list can be (`Json.Drawn`).

So there are three ends. A value that fills no tape, or that is refused, leaves a window that shows
the states of the old automaton (`Desk.Torn`, `WindowControl.exists_install_torn`). A value that is
entered leaves one that shows the new automaton but has no text as its input (`Desk.Entered`), and
there is a fault unless the value can be drawn (`WindowControl.exists_install_entered`).
-/

namespace AutomatonLab

open Control

namespace Json

/-- A run of a formalism can begin on the value : a tape is filled with its elements. -/
def Fills (formalism : Formalism) (v : Json) : Prop :=
  formalism = .tm → v.elements?.isSome = true

/-- The value can be drawn as the input : a Turing machine shows its tape instead, and a list is cut
like a text. -/
def Drawn (formalism : Formalism) (v : Json) : Prop :=
  formalism = .tm ∨ ∃ items, v = .arr items

end Json

/-- What is entered is not `null`. -/
theorem EntryRule.ne_null_of_enter {rule : EntryRule} {v : Json} {shown : Text}
    (h : rule.enter v = .ok shown) : v ≠ .null := by
  rintro rfl
  obtain ⟨fault, hfault⟩ := rule.refuses_null
  rw [hfault] at h
  cases h

/-! ## Drawing -/

namespace Window

variable {w : Window} {e : Engine} {f : ForeignInput}

/-- A transition can look at a value that can be drawn. -/
theorem exists_visible?_of_drawn (h : f.value.Drawn e.automaton.formalism) :
    ∃ symbol, visible? f e = .ok symbol := by
  rw [visible?]
  split
  case isTrue => split <;> exact ⟨_, rfl⟩
  case isFalse hformalism =>
    obtain ⟨items, hitems⟩ := h.resolve_left hformalism
    rw [inputRest, Option.map_some, hitems]
    exact ⟨_, rfl⟩

/-- The transitions that apply can be listed. -/
theorem exists_applicable_of_drawn (htyped : e.automaton.Typed) (hcursor : 0 ≤ e.config.cursor)
    (h : f.value.Drawn e.automaton.formalism) : ∃ ts, applicable (some f) e = .ok ts := by
  obtain ⟨symbol, hsymbol⟩ := exists_visible?_of_drawn h
  cases hstate : e.config.state with
  | none =>
    simp only [applicable, hstate]
    exact ⟨_, Configuration.applicable_of_state htyped hcursor hstate⟩
  | some state =>
    simp only [applicable, hstate, hsymbol]
    exact ⟨_, Choice.applicable_of_readable (Configuration.readable_of_typed htyped state) _ _⟩

/-- The size of a list can be told, as that of a text can. -/
theorem exists_metricsText_of_drawn (h : f.value.Drawn e.automaton.formalism) :
    ∃ metrics, metricsText (some f) e = .ok metrics := by
  rw [metricsText]
  split
  case isTrue => exact ⟨_, rfl⟩
  case isFalse hformalism =>
    obtain ⟨items, hitems⟩ := h.resolve_left hformalism
    rw [inputSize, Option.map_some, hitems]
    exact ⟨_, rfl⟩

/-- The strip needs no list only where it shows a tape. -/
theorem snd_draw_memoryContents (hforeign : w.foreign = some f) :
    (f.value.Drawn e.automaton.formalism → (MemoryStrip.draw (w.memoryContents e)).2 = none) ∧
      (¬f.value.Drawn e.automaton.formalism →
        (MemoryStrip.draw (w.memoryContents e)).2 = some .unusableValue) := by
  have hrest : (w.memoryContents e).rest = inputRest (some f) e := by rw [← hforeign]; rfl
  have hformalism : (w.memoryContents e).formalism = e.automaton.formalism := rfl
  rw [MemoryStrip.draw, hformalism, hrest, inputRest, Option.map_some]
  split
  case isTrue htm => exact ⟨fun _ => rfl, fun h => absurd (.inl htm) h⟩
  case isFalse htm =>
    refine ⟨fun h => ?_, fun h => ?_⟩
    · obtain ⟨items, hitems⟩ := h.resolve_left htm
      rw [hitems]
    · cases hvalue : f.value with
      | arr items => exact absurd (.inr ⟨items, hvalue⟩) h
      | _ => rfl

/-- A window that has all states in their places can be drawn, if its input can. -/
theorem exists_redraw_of_drawn (hplaced : (w.scene e).Placed) (htyped : e.automaton.Typed)
    (hcursor : 0 ≤ e.config.cursor) (hforeign : w.foreign = some f)
    (h : f.value.Drawn e.automaton.formalism) :
    ∃ w', w.redraw e = (.ok (), w') ∧ w.SamePage w' := by
  obtain ⟨metrics, hmetrics⟩ := exists_metricsText_of_drawn h
  obtain ⟨ts, hts⟩ := exists_applicable_of_drawn htyped hcursor h
  have havailable : ∃ available, availableText (some f) e = .ok available := by
    rw [availableText, hts]
    exact ⟨_, rfl⟩
  obtain ⟨available, havailable⟩ := havailable
  rw [← hforeign] at hmetrics havailable
  exact exists_redraw_of_parts hplaced ((snd_draw_memoryContents hforeign).1 h) hmetrics havailable

end Window

/-! ## What is left of a desk -/

namespace Desk

variable {d d' : Desk Window} {a : Automaton} {v : Json} {f : ForeignInput} {shown : Text}

/-- A run of the automaton has begun, but the window has the places and the rows of the old one, and
no error box tells why. The timers of the old run are gone. -/
structure Torn (a : Automaton) (d d' : Desk Window) : Prop where
  automaton : d'.engine.automaton = a
  generation : d'.engine.generation = d.engine.generation + 1
  pending : d'.engine.pending = none
  settle : d'.outside.settle = none
  highlight : d'.outside.highlight = none
  places : d'.outside.places = d.outside.places
  rows : d'.outside.rows = d.outside.rows
  canvas : d'.outside.canvas = d.outside.canvas
  file : d'.outside.file = d.outside.file
  dialogs : d'.outside.dialogs = d.outside.dialogs
  /-- Only where the tape could not be filled the entry is kept. -/
  entry : d'.outside.entry = "" ∨ a.formalism = .tm ∧ d'.outside.entry = d.outside.entry

/-- What has been logged before does not matter. -/
theorem Torn.of_note {log : List LogEntry} (h : Torn a (d.note log) d') : Torn a d d' :=
  ⟨h.automaton, h.generation, h.pending, h.settle, h.highlight, h.places, h.rows, h.canvas, h.file,
    h.dialogs, h.entry⟩

/-- What a window logs about an automaton that has been installed. -/
def readyText (a : Automaton) : Text :=
  "Pronto no modo " ++ Text.upperCase a.formalism.code ++ " a partir de "
    ++ a.start?.getD "None" ++ "."

/-- A new run of the automaton stands at its start, and the window shows it with what was entered
for the value `v`. But the input of the engine is `v`, which is no text, and no error box tells of
it. The timers of the old run are gone. -/
structure Entered (a : Automaton) (v : Json) (shown : Text) (d d' : Desk Window) : Prop where
  automaton : d'.engine.automaton = a
  status : d'.engine.status = .ready
  generation : d'.engine.generation = d.engine.generation + 1
  pending : d'.engine.pending = none
  settle : d'.outside.settle = none
  highlight : d'.outside.highlight = none
  foreign : d'.outside.foreign.map ForeignInput.value = some v
  entry : d'.outside.entry = shown
  places : d'.outside.places = Diagram.circle a.states
  rows : d'.outside.rows = [(readyText a, none)]
  dialogs : d'.outside.dialogs = d.outside.dialogs

/-- What has been logged before does not matter. -/
theorem Entered.of_note {log : List LogEntry} (h : Entered a v shown (d.note log) d') :
    Entered a v shown d d' :=
  ⟨h.automaton, h.status, h.generation, h.pending, h.settle, h.highlight, h.foreign, h.entry,
    h.places, h.rows, h.dialogs⟩

/-- The desk when a new run has begun on an input that is no text. -/
def foreignLoaded (d : Desk Window) (a : Automaton) (f : ForeignInput) : Desk Window :=
  { d.loaded a (some "") with outside := { d.outside with foreign := some f } }

/-- The desk when the window has all of a new automaton but its pictures. -/
def presented (d : Desk Window) (a : Automaton) (entry : Text) : Desk Window :=
  (d.placed a entry).relogged (readyText a)

/-- The desk when an automaton has been installed with an input that is no text, before the window
shows it. -/
def entering (d : Desk Window) (a : Automaton) (f : ForeignInput) (shown : Text) : Desk Window :=
  (d.undisplayed.foreignLoaded a f).presented a shown

/-- The states have their places when the window is drawn. -/
theorem placed_entering (hv : a.validate = .ok ())
    (hsize : ∀ size, d.outside.room.canvasSize = some size → Window.Drawable size) :
    ((d.entering a f shown).outside.scene (d.entering a f shown).engine).Placed := by
  have hwell := Automaton.validate_eq_ok_iff.1 hv
  have hframed : ((d.entering a f shown).outside.scene (d.entering a f shown).engine).Framed :=
    Window.framed_scene hwell hsize
  exact ⟨hwell, rfl, hframed.width, hframed.height⟩

/-- Whether the drawing is completed or not, the value has been entered. -/
theorem entered_redrawn (d : Desk Window) (a : Automaton) (f : ForeignInput) (shown : Text) :
    d.Entered a f.value shown (d.entering a f shown).redrawn := by
  have hpage := (d.entering a f shown).outside.samePage_redraw (d.entering a f shown).engine
  unfold Window.SamePage at hpage
  exact ⟨rfl, rfl, rfl, rfl, (congrArg Window.settle hpage :), (congrArg Window.highlight hpage :),
    (congrArg (Option.map ForeignInput.value ∘ Window.foreign) hpage :),
    (congrArg Window.entry hpage :), (congrArg Window.places hpage :),
    (congrArg Window.rows hpage :), (congrArg Window.dialogs hpage :)⟩

theorem file_redrawn (d : Desk Window) : d.redrawn.outside.file = d.outside.file := by
  have hpage := d.outside.samePage_redraw d.engine
  unfold Window.SamePage at hpage
  exact (congrArg Window.file hpage :)

/-- The name of the file and the text in the status bar do not matter. -/
theorem Entered.congr {d'' : Desk Window} (h : d.Entered a v shown d')
    (hengine : d''.engine = d'.engine) {file : Option Text} {status : Text}
    (houtside : d''.outside = { d'.outside with file := file, status := status }) :
    d.Entered a v shown d'' := by
  obtain ⟨e, g, owner, log, w⟩ := d''
  obtain rfl : e = d'.engine := hengine
  obtain rfl : w = { d'.outside with file := file, status := status } := houtside
  exact ⟨h.automaton, h.status, h.generation, h.pending, h.settle, h.highlight, h.foreign, h.entry,
    h.places, h.rows, h.dialogs⟩

end Desk

/-! ## Installing -/

namespace WindowControl

open Desk

variable {d : Desk Window} {a : Automaton} {v : Json} {shown : Text}

/-- What is left when a value that is no text has been loaded. -/
structure Reloaded (a : Automaton) (d d' : Desk Window) : Prop where
  automaton : d'.engine.automaton = a
  generation : d'.engine.generation = d.engine.generation + 1
  pending : d'.engine.pending = none
  outside : ∃ foreign, d'.outside = { d.outside with foreign := foreign }

/-- A value that fills the tape, or is to fill none, is loaded. -/
theorem exists_loadForeign_of_fills (h : v.Fills a.formalism) (d : Desk Window) :
    ∃ f, f.value = v ∧ exec (loadForeign a v) d = (.ok (), d.foreignLoaded a f) := by
  rw [loadForeign, exec_bind, exec_updateEngine]
  simp only
  split
  case isTrue htm =>
    obtain ⟨cells, hcells⟩ := Option.isSome_iff_exists.1 (h htm)
    rw [hcells]
    exact ⟨⟨v, some cells⟩, rfl, rfl⟩
  case isFalse => exact ⟨⟨v, none⟩, rfl, rfl⟩

/-- A value that was to fill the tape is noticed when the automaton has been changed. -/
theorem exists_loadForeign_of_not_fills (h : ¬v.Fills a.formalism) (d : Desk Window) :
    a.formalism = .tm ∧
      ∃ d', exec (loadForeign a v) d = (.error .unusableValue, d') ∧ Reloaded a d d' := by
  obtain ⟨htm, hnone⟩ := Classical.not_imp.1 h
  rw [Option.not_isSome_iff_eq_none] at hnone
  refine ⟨htm, ?_⟩
  rw [loadForeign, exec_bind, exec_updateEngine]
  simp only
  rw [if_pos htm, hnone]
  exact ⟨_, rfl, rfl, rfl, rfl, _, rfl⟩

theorem reloaded_foreignLoaded (d : Desk Window) (a : Automaton) (f : ForeignInput) :
    Reloaded a d (d.foreignLoaded a f) :=
  ⟨rfl, rfl, rfl, _, rfl⟩

/-- The value is noticed at once only where a tape is to be filled with it. -/
theorem exists_loadForeign (a : Automaton) (v : Json) (d : Desk Window) :
    ∃ r d', exec (loadForeign a v) d = (r, d') ∧ Reloaded a d d' ∧
      (r = .ok () ∧ v.Fills a.formalism ∨ r = .error .unusableValue ∧ a.formalism = .tm) := by
  by_cases h : v.Fills a.formalism
  · obtain ⟨f, -, hload⟩ := exists_loadForeign_of_fills h d
    exact ⟨_, _, hload, reloaded_foreignLoaded d a f, .inl ⟨rfl, h⟩⟩
  · obtain ⟨htm, d', hload, hd'⟩ := exists_loadForeign_of_not_fills h d
    exact ⟨_, d', hload, hd', .inr ⟨rfl, htm⟩⟩

/-- A value that is neither a text nor `null` takes the place of the input. -/
theorem loadInput_eq (htext : ∀ entry, v ≠ .str entry) (hnull : v ≠ .null) :
    loadInput a v = loadForeign a v := by
  cases v with
  | str entry => exact absurd rfl (htext entry)
  | null => exact absurd rfl hnull
  | _ => rfl

/-- Where `null` keeps the input, the value of an older file may come again. -/
theorem exists_loadInput (hv : a.validate = .ok ()) (htext : ∀ entry, v ≠ .str entry)
    (d : Desk Window) :
    ∃ r d', exec (loadInput a v) d = (r, d') ∧ Reloaded a d d' ∧
      (r = .ok () ∧ (v = .null ∨ v.Fills a.formalism) ∨
        r = .error .unusableValue ∧ a.formalism = .tm) := by
  by_cases hnull : v = .null
  · subst hnull
    rw [loadInput, exec_bind, exec_window]
    simp only
    cases d.outside.foreign with
    | none =>
      exact ⟨_, _, exec_load_of_valid hv none d, ⟨rfl, rfl, rfl, _, rfl⟩, .inl ⟨rfl, .inl trivial⟩⟩
    | some old =>
      -- what filled the tape of an older file need not fill the one of this automaton
      obtain ⟨r, d', hload, hd', hr⟩ := exists_loadForeign a old.value d
      exact ⟨r, d', hload, hd', hr.imp_left fun hr => ⟨hr.1, .inl trivial⟩⟩
  · rw [loadInput_eq htext hnull]
    obtain ⟨r, d', hload, hd', hr⟩ := exists_loadForeign a v d
    exact ⟨r, d', hload, hd', hr.imp_left fun hr => ⟨hr.1, .inr hr.2⟩⟩

/-- Installing loads the value first and enters it then. -/
theorem exec_install_eq (hv : a.validate = .ok ()) (htext : ∀ entry, v ≠ .str entry)
    (d : Desk Window) :
    exec (install a v) d = exec (loadInput a v >>= fun _ => enterForeign a v) d.undisplayed := by
  unfold install
  rw [exec_bind_of_ok (exec_cancelSettle d), hv]
  cases v with
  | str entry => exact absurd rfl (htext entry)
  | _ => rfl

/-- A value that fills no tape is noticed when the old run is gone, and one that the toolkit refuses
when the entry has been cleared too. -/
theorem exists_install_torn (hv : a.validate = .ok ()) (htext : ∀ entry, v ≠ .str entry)
    (h : ¬v.Fills a.formalism ∨ ∃ fault, d.outside.room.entries.enter v = .error fault) :
    ∃ fault d', exec (install a v) d = (.error fault, d') ∧ Torn a d d' := by
  obtain ⟨r, ⟨e, g, owner, log, w⟩, hload, ⟨hautomaton, hgeneration, hpending, foreign, houtside⟩,
    hr⟩ := exists_loadInput hv htext d.undisplayed
  obtain rfl : w = { d.undisplayed.outside with foreign := foreign } := houtside
  rw [exec_install_eq hv htext]
  -- a value that is loaded gets as far as the entry, which has been cleared by then
  rcases hr with ⟨rfl, hloaded⟩ | ⟨rfl, htm⟩
  case inl =>
    have hrefused : ∃ fault, d.outside.room.entries.enter v = .error fault := by
      rcases hloaded with rfl | hfills
      · exact d.outside.room.entries.refuses_null
      · exact h.resolve_left (absurd hfills)
    obtain ⟨fault, hfault⟩ := hrefused
    rw [exec_bind_of_ok hload, enterForeign, exec_bind_of_ok (exec_updateWindow _ _),
      exec_bind_of_ok (exec_window _)]
    have hrule : d.undisplayed.outside.room.entries.enter v = .error fault := hfault
    simp only [hrule]
    exact ⟨fault, _, rfl, hautomaton, hgeneration, hpending, rfl, rfl, rfl, rfl, rfl, rfl, rfl,
      .inl rfl⟩
  case inr =>
    exact ⟨_, _, by rw [exec_bind, hload], hautomaton, hgeneration, hpending, rfl, rfl, rfl, rfl,
      rfl, rfl, rfl, .inr ⟨htm, rfl⟩⟩

/-- What the toolkit enters is shown, up to where the drawing breaks off. -/
theorem exec_enterForeign (henter : d.outside.room.entries.enter v = .ok shown) :
    exec (enterForeign a v) d =
      (((d.presented a shown).outside.redraw (d.presented a shown).engine).1.map fun _ => true,
        (d.presented a shown).redrawn) := by
  have hredraw : exec redraw (d.presented a shown) =
      (((d.presented a shown).outside.redraw (d.presented a shown).engine).1,
        (d.presented a shown).redrawn) := rfl
  rw [enterForeign, exec_bind_of_ok (exec_updateWindow _ d), exec_bind_of_ok (exec_window _)]
  simp only [henter]
  show exec (redraw >>= fun _ => pure true) (d.presented a shown) = _
  rw [exec_bind, hredraw]
  cases ((d.presented a shown).outside.redraw (d.presented a shown).engine).1 <;> rfl

/-- A value that the toolkit enters is shown with the new automaton. -/
theorem exec_install_of_enter (hv : a.validate = .ok ()) (htext : ∀ entry, v ≠ .str entry)
    (hfills : v.Fills a.formalism) (henter : d.outside.room.entries.enter v = .ok shown) :
    ∃ f, f.value = v ∧ exec (install a v) d =
      (((d.entering a f shown).outside.redraw (d.entering a f shown).engine).1.map fun _ => true,
        (d.entering a f shown).redrawn) := by
  obtain ⟨f, hf, hload⟩ := exists_loadForeign_of_fills hfills d.undisplayed
  refine ⟨f, hf, ?_⟩
  rw [exec_install_eq hv htext, loadInput_eq htext (EntryRule.ne_null_of_enter henter),
    exec_bind_of_ok hload]
  exact exec_enterForeign (d := d.undisplayed.foreignLoaded a f) henter

/-- A value that the toolkit enters is installed, with a fault unless it can be drawn. -/
theorem exists_install_entered (ha : a.Typed) (hv : a.validate = .ok ())
    (hsize : ∀ size, d.outside.room.canvasSize = some size → Window.Drawable size)
    (htext : ∀ entry, v ≠ .str entry) (hfills : v.Fills a.formalism)
    (henter : d.outside.room.entries.enter v = .ok shown) :
    ∃ r d', exec (install a v) d = (r, d') ∧ d.Entered a v shown d' ∧
      d'.outside.file = d.outside.file ∧ (v.Drawn a.formalism → r = .ok true) ∧
      (¬v.Drawn a.formalism → r = .error .unusableValue) := by
  obtain ⟨f, rfl, hinstall⟩ := exec_install_of_enter hv htext hfills henter
  have hplaced : ((d.entering a f shown).outside.scene (d.entering a f shown).engine).Placed :=
    placed_entering hv hsize
  refine ⟨_, _, hinstall, entered_redrawn d a f shown, file_redrawn _, fun h => ?_, fun h => ?_⟩
  · obtain ⟨w, hw, -⟩ := Window.exists_redraw_of_drawn hplaced ha (Int.le_refl 0) rfl h
    rw [hw]
    rfl
  · rw [Window.fst_redraw_of_strip hplaced ((Window.snd_draw_memoryContents rfl).2 h)]
    rfl

end WindowControl

end AutomatonLab
