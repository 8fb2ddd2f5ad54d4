import AutomatonLab.Proofs.Additions
import AutomatonLab.Proofs.Bounds
import AutomatonLab.Proofs.OpenedFile
import AutomatonLab.Proofs.Refusal
import AutomatonLab.Proofs.Tending

/-!
# What a window keeps, whatever its input is

An engine works on a text (`Desk.OnText`), or its run was given up for the value of an opened file
that is no text (`Desk.OffText`). In the first case it has the record of a run of its automaton, and
if all inputs were texts, the states of the automaton have their places. In the second case it
stands at the start, if the value could be loaded, or where it was left, with the head on the cells
of its tape, and waits for no timer : the next command that moves it begins a new run on a text. No
command leads out of the two cases, and no timer does, since every timer is known to its window
(`Desktop.kept_of_happenings`).
-/

namespace AutomatonLab

open Control

/-! ## Where automata come from -/

namespace AutomatonSource

theorem typed_of_listTransition {a b : Automaton} {source target : Text} {label : LabelSource}
    (ha : a.Typed) (h : listTransition a source target label = .ok b) : b.Typed := by
  rw [listTransition] at h
  split at h
  case h_1 l hl =>
    obtain rfl := Except.ok.inj h
    refine ⟨ha.known, fun t ht => ?_⟩
    rcases List.mem_append.1 ht with ht | ht
    · exact ha.labels t ht
    · rw [List.mem_singleton.1 ht]
      exact (Automaton.resolve_eq_ok hl).1
  case h_2 => cases h

/-- A label that is listed was read for the formalism of the automaton. -/
theorem typed_of_listTransitions {a b : Automaton} {ts : List (Text × Text × LabelSource)}
    (ha : a.Typed) (h : ts.foldlM (fun a (source, target, label) =>
      listTransition a source target label) a = .ok b) : b.Typed := by
  induction ts generalizing a with
  | nil =>
    obtain rfl := Except.ok.inj h
    exact ha
  | cons t ts ih =>
    obtain ⟨a', hlist, hrest⟩ := bind_eq_ok_iff.1 ((List.foldlM_cons ..).symm.trans h)
    exact ih (typed_of_listTransition ha hlist) hrest

/-- The labels of an automaton belong to its formalism, wherever it was taken from. -/
theorem typed_of_build {source : AutomatonSource} {a : Automaton}
    (h : source.build.result = .ok a) : a.Typed := by
  cases source with
  | catalog name =>
    have hload : (Catalog.load name).map Example.automaton = .ok a := h
    rw [Catalog.load] at hload
    split at hload
    case h_1 x hx =>
      obtain rfl := Except.ok.inj hload
      exact (WindowControl.valid_of_mem_examples (List.mem_of_find?_eq_some hx)).1
    case h_2 => cases hload
  | definition data => exact (Automaton.typed_of_ofJson h).1
  | listed formalism states transitions =>
    obtain ⟨b, hnew, hlist⟩ := bind_eq_ok_iff.1 (h : (do
      let a ← Automaton.new formalism
      transitions.foldlM (fun a (source, target, label) => listTransition a source target label)
        { a with states := states }) = Except.ok a)
    obtain ⟨-, hformalism, hempty⟩ := Automaton.new_eq_ok_iff.1 hnew
    have hstart : ({ b with states := states } : Automaton).Typed :=
      ⟨hformalism, by rw [hempty]; exact nofun⟩
    exact typed_of_listTransitions hstart hlist

end AutomatonSource

/-! ## The head on its tape -/

/-- The head is on the filled cells or right behind them, and all others hold the usual blank. -/
structure Configuration.OnCells (c : Configuration) : Prop where
  nonneg : 0 ≤ c.head
  le_size : c.head ≤ c.tape.size
  blank : c.tape.blank = Tape.defaultBlank

section OnCells

variable {a : Automaton} {w : Text} {g : Nat} {es : List Event} {c : Configuration} {s : Status}

theorem Configuration.onCells_start (a : Automaton) (w : Text) : (start a w).OnCells :=
  ⟨Int.le_refl 0, Int.natCast_nonneg _, rfl⟩

/-- No step changes what an empty cell holds. -/
theorem Computation.blank_eq (h : Computation a w g es c s) :
    c.tape.blank = Tape.defaultBlank := by
  induction h with
  | start => rfl
  | step _ _ hstep ih => cases hstep <;> exact ih

/-- No run leaves the cells of its tape by more than one. -/
theorem Computation.onCells (h : Computation a w g es c s) : c.OnCells := by
  by_cases hf : a.formalism = .tm
  · exact ⟨(h.onTape hf).nonneg, (h.onTape hf).le_size, h.blank_eq⟩
  · obtain ⟨-, hhead⟩ := h.tape_eq_nil hf
    exact ⟨hhead.ge, hhead ▸ Int.natCast_nonneg _, h.blank_eq⟩

end OnCells

/-! ## On a text, and off it -/

namespace Desk

variable {d d' : Desk Window} {laid : Prop}

/-- The engine has the record of a run of its automaton on a text. If `laid` holds, the states have
their places. -/
structure OnText (laid : Prop) (d : Desk Window) : Prop where
  recorded : d.Recorded true
  wellFormed : d.engine.automaton.WellFormed
  textual : d.outside.foreign = none
  places : laid → d.outside.places = Diagram.circle d.engine.automaton.states

/-- The input of the engine is a value that is no text. No timer is waited for, and the tape may be
that of an older run. -/
structure OffText (d : Desk Window) : Prop where
  agenda : d.agenda.isSome = true
  typed : d.engine.automaton.Typed
  wellFormed : d.engine.automaton.WellFormed
  foreign : d.outside.foreign.isSome = true
  onCells : d.engine.config.OnCells
  /-- Where the value fills a tape, the head has not moved. -/
  filled : (d.outside.foreign.bind ForeignInput.cells).isSome = true →
    d.engine.config.head = 0 ∧ d.engine.config.tape.cells = []
  settle : d.outside.settle = none
  pending : d.engine.pending = none

/-- One of the two, and only the first if `laid` holds. -/
def Kept (laid : Prop) (d : Desk Window) : Prop :=
  d.OnText laid ∨ ¬laid ∧ d.OffText

/-- The desks differ at most in how the run goes on, in what surrounds the engine, and in what else
the window shows than the states. No timer is waited for if none was. -/
structure Near (d d' : Desk Window) : Prop extends SameRun d d' where
  foreign : d'.outside.foreign = d.outside.foreign
  places : d'.outside.places = d.outside.places
  settle : d.outside.settle = none → d'.outside.settle = none
  pending : d.engine.pending = none → d'.engine.pending = none

theorem OnText.kept (h : d.OnText laid) : d.Kept laid := Or.inl h

/-- How a run goes on does not matter. -/
theorem OnText.sameRun (h : d.OnText laid) (hrun : SameRun d d')
    (hforeign : d'.outside.foreign = d.outside.foreign)
    (hplaces : d'.outside.places = d.outside.places) : d'.OnText laid := by
  have hautomaton : d'.engine.automaton = d.engine.automaton :=
    (congrArg Engine.automaton hrun.engine :)
  refine ⟨h.recorded.sameRun hrun, hautomaton ▸ h.wellFormed, hforeign.trans h.textual, ?_⟩
  rw [hplaces, hautomaton]
  exact h.places

theorem OffText.near (h : d.OffText) (hd : Near d d') : d'.OffText := by
  have hautomaton : d'.engine.automaton = d.engine.automaton :=
    (congrArg Engine.automaton hd.engine :)
  have hconfig : d'.engine.config = d.engine.config := (congrArg Engine.config hd.engine :)
  refine ⟨hd.agenda.trans h.agenda, hautomaton ▸ h.typed, hautomaton ▸ h.wellFormed,
    hd.foreign ▸ h.foreign, hconfig ▸ h.onCells, ?_, hd.settle h.settle, hd.pending h.pending⟩
  rw [hd.foreign, hconfig]
  exact h.filled

theorem Kept.near (h : d.Kept laid) (hd : Near d d') : d'.Kept laid :=
  h.imp (fun h => h.sameRun hd.toSameRun hd.foreign hd.places) fun h => ⟨h.1, h.2.near hd⟩

/-- In either case a new run can begin. -/
theorem Kept.typed (h : d.Kept laid) :
    d.engine.automaton.Typed ∧ d.engine.automaton.WellFormed ∧ d.agenda.isSome = true := by
  rcases h with h | ⟨-, h⟩
  · exact ⟨h.recorded.records.typed, h.wellFormed, h.recorded.agenda⟩
  · exact ⟨h.typed, h.wellFormed, h.agenda⟩

/-- In either case the head is on its tape. -/
theorem Kept.onCells (h : d.Kept laid) : d.engine.config.OnCells := by
  rcases h with h | ⟨-, h⟩
  · exact h.recorded.records.computation.onCells
  · exact h.onCells

/-- A value that fills the tape is looked at from its first cell. -/
theorem Kept.filled (h : d.Kept laid)
    (hcells : (d.outside.foreign.bind ForeignInput.cells).isSome = true) :
    d.engine.config.head = 0 ∧ d.engine.config.tape.cells = [] := by
  rcases h with h | ⟨-, h⟩
  · simp [h.textual] at hcells
  · exact h.filled hcells

/-- The end of a display does not touch the run. -/
theorem near_undisplayed (d : Desk Window) : Near d d.undisplayed := by
  refine ⟨⟨rfl, rfl, ?_⟩, rfl, rfl, fun _ => rfl, id⟩
  simp only [undisplayed]
  cases d.outside.settle with
  | none => rfl
  | some handle => exact Option.isSome_map

theorem near_pause (d : Desk Window) : Near d d.pause :=
  ⟨d.sameRun_pause, rfl, rfl, id, fun _ => rfl⟩

/-- A new run begins on a text. -/
theorem Kept.renewed (h : d.Kept laid) (input : Text) : (d.renewed input).OnText laid := by
  obtain ⟨htyped, hwell, hagenda⟩ := h.typed
  refine ⟨?_, hwell, rfl, fun hlaid => ?_⟩
  · have hreset := recorded_reset (d := d.undisplayed) htyped
      ((d.near_undisplayed).agenda.trans hagenda) (some input)
    exact hreset.sameRun ⟨rfl, rfl, rfl⟩
  · rcases h with h | ⟨hnot, -⟩
    · exact h.places hlaid
    · exact absurd hlaid hnot

end Desk

namespace WindowControl

open Desk

variable {α β : Type} {P : Desk Window → Prop} {x : WindowControl α} {laid : Prop}
  {d : Desk Window}

/-- A property that does not depend on more than `Near` leaves as it is. -/
def AboutRun (P : Desk Window → Prop) : Prop :=
  ∀ d d', Near d d' → P d → P d'

/-- What lies outside the run does not matter on a text or off it. -/
theorem aboutRun_kept : AboutRun (Kept laid) := fun _ _ hd h => h.near hd

theorem aboutRun_onText : AboutRun (OnText laid) := fun _ _ hd h =>
  h.sameRun hd.toSameRun hd.foreign hd.places

theorem kept_of_onText (d : Desk Window) (h : d.OnText laid) : d.Kept laid := h.kept

namespace AboutRun

/-- A call after which all is `Near` keeps the property. -/
theorem of_near (hP : AboutRun P) (hx : ∀ d, Near d (exec x d).2) : Leaves P P x :=
  fun d h => hP d _ (hx d) h

/-- The window may change in anything but its input, its places and its timer. -/
theorem updateWindow (hP : AboutRun P) {f : Window → Window}
    (hf : ∀ w, (f w).foreign = w.foreign ∧ (f w).places = w.places ∧ (f w).settle = w.settle) :
    Leaves P P (updateWindow f) :=
  hP.of_near fun d => ⟨⟨rfl, rfl, rfl⟩, (hf d.outside).1, (hf d.outside).2.1,
    fun hnone => (hf d.outside).2.2.trans hnone, id⟩

theorem redraw (hP : AboutRun P) : Leaves P P redraw := by
  refine hP.of_near fun d => ?_
  have hpage := d.outside.samePage_redraw d.engine
  unfold Window.SamePage at hpage
  have hsettle := (congrArg Window.settle hpage :)
  exact ⟨⟨rfl, rfl, rfl⟩, (congrArg Window.foreign hpage :), (congrArg Window.places hpage :),
    fun hnone => hsettle.trans hnone, id⟩

theorem logRow (hP : AboutRun P) (text : Text) (colour : Option Text) :
    Leaves P P (logRow text colour) :=
  hP.of_near fun _ => ⟨⟨rfl, rfl, rfl⟩, rfl, rfl, id, id⟩

theorem clearRows (hP : AboutRun P) : Leaves P P clearRows :=
  hP.updateWindow fun _ => ⟨rfl, rfl, rfl⟩

theorem say (hP : AboutRun P) (text : Text) : Leaves P P (say text) :=
  hP.updateWindow fun _ => ⟨rfl, rfl, rfl⟩

theorem showError (hP : AboutRun P) (title text : Text) : Leaves P P (showError title text) :=
  hP.updateWindow fun _ => ⟨rfl, rfl, rfl⟩

theorem cancelSettle (hP : AboutRun P) : Leaves P P cancelSettle := hP.of_near near_undisplayed

end AboutRun

/-! ## Steps and timers -/

theorem onText_askSettle (generation : Nat) :
    Leaves (OnText laid) (OnText laid) (askSettle generation) := by
  intro d h
  obtain ⟨g, hg⟩ := Option.isSome_iff_exists.1 h.recorded.agenda
  rw [exec_askSettle hg]
  exact h.sameRun ⟨rfl, rfl, h.recorded.agenda.symm⟩ rfl rfl

/-- The window shows a step and asks for the timer that ends its display. -/
theorem onText_onStep (ev : Event) : Leaves (OnText laid) (OnText laid) (onStep ev) := by
  unfold onStep
  cases ev.transition with
  | none => exact (aboutRun_onText.logRow _ _).andThen fun _ => aboutRun_onText.redraw
  | some t =>
    have hlight : Leaves (OnText laid) (OnText laid) (updateWindow fun w =>
        { w with highlight := some (t.source, t.target) }) :=
      aboutRun_onText.updateWindow fun _ => ⟨rfl, rfl, rfl⟩
    exact hlight.andThen fun _ => (aboutRun_onText.logRow _ _).andThen fun _ =>
      aboutRun_onText.redraw.andThen fun _ => onText_askSettle ev.generation

/-- A run goes on by a decision, which adds to its record. -/
theorem onText_advance (hdecide : ∃ ev d₁, d.decide = (.ok ev, d₁) ∧ d₁.Recorded true)
    (hwell : d.engine.automaton.WellFormed) (htext : d.outside.foreign = none)
    (hplaces : laid → d.outside.places = Diagram.circle d.engine.automaton.states) :
    (exec (advance onStep) d).2.OnText laid := by
  obtain ⟨ev, d₁, hdecide, hrecorded⟩ := hdecide
  have hleaves := d.leaves_decide
  rw [hdecide] at hleaves
  have hd₁ : d₁.OnText laid := by
    refine ⟨hrecorded, hleaves.automaton ▸ hwell, ?_, ?_⟩
    · rw [hleaves.outside, htext]
    · rw [hleaves.outside, hleaves.automaton]
      exact hplaces
  refine holds_advance (P := OnText laid) (fun fault d₂ hfault => ?_) (fun ev' d₂ htold => ?_)
    fun d h => h.sameRun d.sameRun_goOn (by rw [d.outside_goOn]) (by rw [d.outside_goOn])
  · rw [hdecide] at hfault
    cases hfault
  · obtain ⟨hev, rfl⟩ := Prod.mk.inj (hdecide.symm.trans htold)
    refine onText_onStep ev' _ (hd₁.sameRun (d₁.sameRun_launch ev') ?_ ?_)
    all_goals
      unfold Desk.launch
      split <;> rfl

/-- An automatic run begins with a decision, if one can be made at all. -/
theorem onText_engine_run (allowance : Nat) :
    Leaves (OnText laid) (OnText laid) (Control.run onStep allowance) := by
  intro d h
  obtain ⟨g, hg⟩ := Option.isSome_iff_exists.1 h.recorded.agenda
  rw [exec_run, if_neg (c := d.agenda.isNone = true) (by simp [hg])]
  split
  · exact h
  · split
    · have houtside : d.observeLimit.outside = d.outside := by
        unfold observeLimit
        split <;> rfl
      exact h.sameRun d.sameRun_observeLimit (by rw [houtside]) (by rw [houtside])
    case isFalse hidle _ =>
      simp only [Bool.or_eq_true, not_or, Bool.not_eq_true] at hidle
      have hbegun : d.begun.engine.Records d.engine.status := h.recorded.records.sameRun rfl
      exact onText_advance (recorded_decide hbegun hidle.2 rfl h.recorded.agenda) h.wellFormed
        h.textual h.places

/-- A step by hand interrupts the automatic run before it decides. -/
theorem onText_engine_step : Leaves (OnText laid) (OnText laid) (Control.step onStep) := by
  intro d h
  have hpaused : d.pause.OnText laid := h.sameRun d.sameRun_pause rfl rfl
  rw [exec_step]
  split
  · exact h.sameRun (d.sameRun_note _) rfl rfl
  · split
    · exact h
    · exact onText_advance hpaused.recorded.decide hpaused.wellFormed hpaused.textual
        hpaused.places

/-- A confirmation lets an automatic run ask for its next timer. -/
theorem onText_acknowledge (generation : Option Int) :
    Leaves (OnText laid) (OnText laid) (acknowledge onStep 0 generation) := by
  intro d h
  obtain ⟨g, hg⟩ := Option.isSome_iff_exists.1 h.recorded.agenda
  have hconfirmed : d.confirmed.OnText laid := h.sameRun d.sameRun_confirmed rfl rfl
  rw [exec_acknowledge, if_neg (c := d.agenda.isNone = true) (by simp [hg])]
  split
  · exact h
  · split
    · exact h.sameRun (d.sameRun_note _) rfl rfl
    · split
      · exact hconfirmed
      · exact hconfirmed.sameRun (sameRun_scheduleNext _) (by rw [outside_scheduleNext])
          (by rw [outside_scheduleNext])

theorem onText_resume (generation : Nat) :
    Leaves (OnText laid) (OnText laid) (resume onStep generation) := by
  intro d h
  have hwoken : d.woken.OnText laid := h.sameRun d.sameRun_woken rfl rfl
  rw [exec_resume]
  split
  · exact hwoken
  · exact onText_advance hwoken.recorded.decide hwoken.wellFormed hwoken.textual hwoken.places

/-- A timer that is due leaves the window on its text. -/
theorem onText_perform : ∀ task, Leaves (OnText laid) (OnText laid) (perform task)
  | .resume generation => onText_resume generation
  | .settle generation =>
    Leaves.andThen (fun _ h => h.sameRun ⟨rfl, rfl, rfl⟩ rfl rfl) fun _ =>
      (onText_acknowledge (some (generation : Int))).andThen fun _ => aboutRun_onText.redraw

/-! ## Commands -/

/-- A new run is one on a text, whatever the input was. -/
theorem leaves_onText_restart (input : Text) : Leaves (Kept laid) (OnText laid) (restart input) :=
  fun _ h => h.renewed input

/-- The first button begins a run on the text of the entry. -/
theorem kept_run : Leaves (Kept laid) (Kept laid) WindowControl.run :=
  leaves_window.andThen fun w => ((leaves_onText_restart w.entry).andThen fun _ =>
    leaves_engine.andThen fun _ => (aboutRun_onText.logRow _ _).andThen fun _ =>
      (onText_engine_run 0).andThen fun _ => aboutRun_onText.redraw).mono kept_of_onText

/-- A step by hand off a text begins a new run. -/
theorem kept_step : Leaves (Kept laid) (Kept laid) WindowControl.step := by
  have hgo : Leaves (OnText laid) (OnText laid) (do
      logRow ("Passo manual " ++ toString ((← engine).steps + 1) ++ ".") none
      let _ ← Control.step onStep
      redraw) :=
    leaves_engine.andThen fun _ => (aboutRun_onText.logRow _ _).andThen fun _ =>
      onText_engine_step.andThen fun _ => aboutRun_onText.redraw
  intro d h
  rw [WindowControl.step, exec_bind, exec_engine]
  simp only
  split
  · exact h
  · simp only [exec_bind, exec_engine, exec_window]
    split
    case isTrue =>
      exact (((leaves_onText_restart d.outside.entry).andThen fun _ => hgo) d h).kept
    case isFalse hsame =>
      rcases h with h | ⟨-, h⟩
      · exact (hgo d h).kept
      · simp [needsRestart, h.foreign] at hsame

theorem kept_pause : Leaves (Kept laid) (Kept laid) WindowControl.pause :=
  leaves_engine.andThen fun _ => leaves_ite
    (Leaves.andThen (fun d h => h.near d.near_pause) fun _ => aboutRun_kept.say _)
    (leaves_pure ())

/-- The last button brings the window back on a text. -/
theorem kept_restartFromEntry : Leaves (Kept laid) (Kept laid) restartFromEntry :=
  leaves_window.andThen fun w => ((leaves_onText_restart w.entry).andThen fun _ =>
    aboutRun_onText.clearRows.andThen fun _ =>
      (leaves_engine.andThen fun _ => leaves_pure _).andThen fun _ =>
        (aboutRun_onText.logRow _ _).andThen fun _ => (aboutRun_onText.say _).andThen fun _ =>
          aboutRun_onText.redraw).mono kept_of_onText

/-! ## Installing an automaton -/

/-- The window takes the states of the automaton on which the engine has begun. -/
theorem onText_present (a : Automaton) (entry : Text) :
    Leaves (fun d => d.OnText False ∧ d.engine.automaton = a) (OnText laid) (present a entry) := by
  refine Leaves.andThen ?_ fun _ => aboutRun_onText.clearRows.andThen fun _ =>
    (aboutRun_onText.logRow _ _).andThen fun _ => aboutRun_onText.redraw
  rintro d ⟨h, rfl⟩
  exact ⟨h.recorded.sameRun ⟨rfl, rfl, rfl⟩, h.wellFormed, h.textual, fun _ => rfl⟩

/-- A run begins in a window whose input is a text. -/
theorem onText_loaded {a : Automaton} (h : d.Kept laid) (ha : a.Typed)
    (hv : a.validate = .ok ()) (input : Option Text) {w : Window} (hw : w.foreign = none) :
    ({ d.loaded a input with outside := w } : Desk Window).OnText False := by
  have hreset := recorded_reset (d := { d with engine := { d.engine with automaton := a } }) ha
    h.typed.2.2 input
  exact ⟨hreset.sameRun ⟨rfl, rfl, rfl⟩, Automaton.validate_eq_ok_iff.1 hv, hw, nofun⟩

/-- A run is given up where it would begin, in a window whose input is no text. -/
theorem offText_loaded {a : Automaton} (h : d.Kept laid) (ha : a.Typed)
    (hv : a.validate = .ok ()) {w : Window} (hforeign : w.foreign.isSome = true)
    (hsettle : w.settle = none) :
    ({ d.loaded a (some "") with outside := w } : Desk Window).OffText where
  agenda := (isSome_agenda_cancelPending _).trans h.typed.2.2
  typed := ha
  wellFormed := Automaton.validate_eq_ok_iff.1 hv
  foreign := hforeign
  onCells := Configuration.onCells_start a ""
  filled _ := by simp [loaded, Desk.reset, Desk.note, Engine.restarted, Configuration.start,
    Tape.ofInput, Text.singletons, Text.ofString, Text.ofChars]
  settle := hsettle
  pending := rfl

/-- An automaton that is installed with a text has its states in their places. -/
theorem kept_install_str {a : Automaton} (ha : a.Typed) (entry : Text) :
    Leaves (Kept laid) (Kept laid) (install a (.str entry)) := by
  refine aboutRun_kept.cancelSettle.andThen fun _ => ?_
  cases hv : a.validate with
  | error defect => exact (aboutRun_kept.showError _ _).andThen fun _ => leaves_pure false
  | ok =>
    intro d h
    simp only
    rw [exec_bind_of_ok (exec_loadInput hv entry d)]
    exact (((onText_present a entry).andThen fun _ => leaves_pure true) _
      ⟨onText_loaded h ha hv _ rfl, rfl⟩).kept

/-- A value that is no text takes the window off its text, whether it fills the tape or not. -/
theorem kept_loadForeign (hnot : ¬laid) {a : Automaton} (ha : a.Typed) (hv : a.validate = .ok ())
    (v : Json) :
    Leaves (fun d => d.Kept laid ∧ d.outside.settle = none) (Kept laid) (loadForeign a v) := by
  rintro d ⟨h, hsettle⟩
  refine Or.inr ⟨hnot, ?_⟩
  rw [loadForeign, exec_bind, exec_updateEngine]
  simp only
  split
  case isTrue =>
    cases v.elements? with
    | some cells => exact offText_loaded h ha hv rfl hsettle
    | none =>
      exact ⟨(isSome_agenda_cancelPending _).trans h.typed.2.2, ha,
        Automaton.validate_eq_ok_iff.1 hv, rfl, h.onCells, h.filled, hsettle, rfl⟩
  case isFalse => exact offText_loaded h ha hv rfl hsettle

/-- Where `null` keeps a text, the window stays on it. -/
theorem kept_loadInput (hnot : ¬laid) {a : Automaton} (ha : a.Typed) (hv : a.validate = .ok ())
    {v : Json} (hinput : ∀ entry, v ≠ .str entry) :
    Leaves (fun d => d.Kept laid ∧ d.outside.settle = none) (Kept laid) (loadInput a v) := by
  cases v with
  | str entry => exact absurd rfl (hinput entry)
  | null =>
    intro d h
    rw [loadInput, exec_bind, exec_window]
    simp only
    cases hforeign : d.outside.foreign with
    | some old => exact kept_loadForeign hnot ha hv old.value d h
    | none =>
      have hloaded := onText_loaded h.1 ha hv none hforeign
      simp only [exec_load_of_valid hv]
      exact Or.inl ⟨hloaded.recorded, hloaded.wellFormed, hloaded.textual, fun h => absurd h hnot⟩
  | _ => exact kept_loadForeign hnot ha hv _

/-- Where the states need not stay in their places, they may get any. -/
theorem kept_present (hnot : ¬laid) (a : Automaton) (entry : Text) :
    Leaves (Kept laid) (Kept laid) (present a entry) := by
  refine Leaves.andThen (fun d h => ?_) fun _ => aboutRun_kept.clearRows.andThen fun _ =>
    (aboutRun_kept.logRow _ _).andThen fun _ => aboutRun_kept.redraw
  rcases h with h | ⟨-, h⟩
  · exact Or.inl ⟨h.recorded.sameRun ⟨rfl, rfl, rfl⟩, h.wellFormed, h.textual,
      fun hlaid => absurd hlaid hnot⟩
  · exact Or.inr ⟨hnot, h.agenda, h.typed, h.wellFormed, h.foreign, h.onCells, h.filled, h.settle,
      h.pending⟩

/-- Whether the toolkit enters a value or refuses it, the run is the one that was loaded. -/
theorem kept_enterForeign (hnot : ¬laid) (a : Automaton) (v : Json) :
    Leaves (Kept laid) (Kept laid) (enterForeign a v) := by
  refine Leaves.andThen (aboutRun_kept.updateWindow fun _ => ⟨rfl, rfl, rfl⟩) fun _ =>
    leaves_window.andThen fun w => ?_
  cases w.room.entries.enter v with
  | error fault => exact leaves_throw fault
  | ok shown => exact (kept_present hnot a shown).andThen fun _ => leaves_pure true

/-- An automaton may be installed with any value as its input, unless the states must stay in their
places. -/
theorem kept_install {a : Automaton} (ha : a.Typed) {input : Json}
    (htext : laid → ∃ entry, input = .str entry) :
    Leaves (Kept laid) (Kept laid) (install a input) := by
  by_cases hstr : ∃ entry, input = .str entry
  · obtain ⟨entry, rfl⟩ := hstr
    exact kept_install_str ha entry
  · have hinput : ∀ entry, input ≠ .str entry := fun entry hentry => hstr ⟨entry, hentry⟩
    have hended : Leaves (Kept laid) (fun d => d.Kept laid ∧ d.outside.settle = none)
        cancelSettle := fun d h => ⟨h.near d.near_undisplayed, rfl⟩
    refine hended.bind (fun _ h => h.1) fun _ => ?_
    cases hv : a.validate with
    | error defect =>
      exact fun d h => ((aboutRun_kept.showError _ _).andThen fun _ => leaves_pure false) d h.1
    | ok =>
      have hnot : ¬laid := mt htext hstr
      refine (kept_loadInput hnot ha hv hinput).andThen fun _ => ?_
      cases input with
      | str entry => exact absurd rfl (hinput entry)
      | _ => exact kept_enterForeign hnot a _

/-! ## Menus and hints -/

theorem kept_openExample {x : Example} (hx : x ∈ Catalog.examples) :
    Leaves (Kept laid) (Kept laid) (openExample x) :=
  (kept_install_str (valid_of_mem_examples hx).1 x.input).andThen fun _ =>
    leaves_ite (aboutRun_kept.say _) (leaves_pure ())

/-- What may log is followed by what can be done with its result. -/
theorem kept_ofOutcome_bind {o : Outcome α} {f : α → WindowControl β}
    (hf : ∀ a, o.result = .ok a → Leaves (Kept laid) (Kept laid) (f a)) :
    Leaves (Kept laid) (Kept laid) (ofOutcome o >>= f) := by
  intro d h
  have hnoted : (d.note o.log).Kept laid := h.near ⟨d.sameRun_note o.log, rfl, rfl, id, id⟩
  rcases o with ⟨fault | a, log⟩
  · exact hnoted
  · exact hf a rfl (d.note log) hnoted

theorem kept_saveFile (path : String) : Leaves (Kept laid) (Kept laid) (saveFile path) := by
  refine leaves_ite (leaves_pure ()) ?_
  refine leaves_window.andThen fun w => leaves_engine.andThen fun e => ?_
  simp only
  split
  · exact leaves_throw _
  · exact aboutRun_kept.showError _ _
  · refine Leaves.andThen (aboutRun_kept.updateWindow fun _ => ⟨rfl, rfl, rfl⟩) fun _ =>
      leaves_ite (leaves_throw _) ?_
    exact Leaves.andThen (aboutRun_kept.updateWindow fun _ => ⟨rfl, rfl, rfl⟩) fun _ =>
      aboutRun_kept.say _

theorem kept_hover (i : Nat) (x y : Int) : Leaves (Kept laid) (Kept laid) (hover i x y) := by
  refine aboutRun_kept.updateWindow fun w => ?_
  cases w.buttons[i]? with
  | none => exact ⟨rfl, rfl, rfl⟩
  | some b =>
    simp only
    split <;> exact ⟨rfl, rfl, rfl⟩

theorem kept_leave (i : Nat) : Leaves (Kept laid) (Kept laid) (leave i) := by
  refine aboutRun_kept.updateWindow fun w => ?_
  cases w.buttons[i]? <;> exact ⟨rfl, rfl, rfl⟩

end WindowControl

/-! ## Commands with texts -/

/-- The command brings no input that is no text. -/
def WindowCommand.Textual (files : FileStore) : WindowCommand → Prop
  | openFile path => ∀ data a, (WindowControl.readFile files path).result = .ok (data, a) →
      ∃ entry, (data.member? "input").getD (.str "") = .str entry
  | install _ input => ∃ entry, input = .str entry
  | _ => True

namespace WindowControl

open Desk

variable {laid : Prop} {d : Desk Window}

/-- What is read from a file is the automaton of its definition. -/
theorem ofJson_of_readFile {files : FileStore} {path : String} {data : Json} {a : Automaton}
    (h : (readFile files path).result = .ok (data, a)) :
    (Automaton.ofJson data).result = .ok a := by
  rw [readFile, Outcome.result_ofExcept_bind] at h
  obtain ⟨text, -, h⟩ := bind_eq_ok_iff.1 h
  rw [Outcome.result_ofExcept_bind] at h
  obtain ⟨data', -, h⟩ := bind_eq_ok_iff.1 h
  rcases hjson : Automaton.ofJson data' with ⟨fault | b, entries⟩
  · rw [hjson] at h
    cases h
  · rw [hjson] at h
    obtain ⟨rfl, rfl⟩ := Prod.mk.inj (Except.ok.inj h)
    rw [hjson]

/-- What was read without a fault is what the error boxes do not tell of. -/
theorem result_of_explained {α : Type} {o : Outcome α} {a : α}
    (h : (explained o).result = .ok (.ok a)) : o.result = .ok a := by
  rw [explained] at h
  split at h
  case h_1 b hb => rw [hb, Except.ok.inj (Except.ok.inj h)]
  case h_2 =>
    simp only at h
    split at h <;> cases h

/-- A file that is opened takes the window off its text only with an input that is none. -/
theorem kept_openFile {path : String} (h : d.Kept laid)
    (htext : laid → (WindowCommand.openFile path).Textual d.outside.room.files) :
    (exec (openFile path) d).2.Kept laid := by
  by_cases hpath : path.isEmpty = true
  · rw [openFile, if_pos hpath]
    exact h
  rw [openFile, if_neg hpath, exec_bind_of_ok (exec_window d)]
  refine kept_ofOutcome_bind (fun read hread => ?_) d h
  rcases read with text | ⟨data, a⟩
  · exact aboutRun_kept.showError _ _
  · have hresult := result_of_explained hread
    have ha := (Automaton.typed_of_ofJson (ofJson_of_readFile hresult)).1
    refine (kept_install ha fun hlaid => htext hlaid data a hresult).andThen fun _ =>
      leaves_ite ?_ (leaves_pure ())
    exact Leaves.andThen (aboutRun_kept.updateWindow fun _ => ⟨rfl, rfl, rfl⟩) fun _ =>
      aboutRun_kept.say _

/-- A command that opens no file keeps the window in one of the two cases, whatever the store is. -/
theorem kept_plain {command : WindowCommand} (hopen : ∀ path, command ≠ .openFile path)
    (htext : ∀ files, laid → command.Textual files) :
    Leaves (Kept laid) (Kept laid) command.perform := by
  cases command with
  | openFile path => exact absurd rfl (hopen path)
  | enterText text =>
    exact Leaves.andThen (aboutRun_kept.updateWindow fun _ => ⟨rfl, rfl, rfl⟩) fun _ =>
      leaves_pure _
  | click button =>
    unfold WindowCommand.perform
    split
    any_goals contradiction
    · exact kept_run.andThen fun _ => leaves_pure _
    · exact kept_step.andThen fun _ => leaves_pure _
    · exact kept_pause.andThen fun _ => leaves_pure _
    · exact kept_restartFromEntry.andThen fun _ => leaves_pure _
    · exact leaves_pure _
  | openExample number =>
    simp only [WindowCommand.perform]
    split
    case h_1 x hx =>
      exact (kept_openExample (List.mem_of_getElem? hx)).andThen fun _ => leaves_pure _
    case h_2 => exact leaves_pure _
  | saveFile path =>
    exact (kept_saveFile path).andThen fun _ => leaves_window.andThen fun _ => leaves_pure _
  | install source input =>
    exact kept_ofOutcome_bind fun a ha =>
      (kept_install (AutomatonSource.typed_of_build ha) (htext ⟨[]⟩)).andThen fun _ =>
        leaves_pure _
  | resize size =>
    exact Leaves.andThen (aboutRun_kept.updateWindow fun _ => ⟨rfl, rfl, rfl⟩) fun _ =>
      aboutRun_kept.redraw.andThen fun _ => leaves_pure _
  | hover i x y => exact (kept_hover i x y).andThen fun _ => leaves_pure _
  | leave i => exact (kept_leave i).andThen fun _ => leaves_pure _
  | vanish i =>
    exact Leaves.andThen (aboutRun_kept.updateWindow fun _ => ⟨rfl, rfl, rfl⟩) fun _ =>
      leaves_pure _

/-- Whatever the command is, the window stays on a text or off it. -/
theorem kept_command {command : WindowCommand} (h : d.Kept laid)
    (htext : laid → command.Textual d.outside.room.files) :
    (exec command.perform d).2.Kept laid := by
  by_cases hopen : ∃ path, command = .openFile path
  · obtain ⟨path, rfl⟩ := hopen
    have hopened := kept_openFile h htext
    rw [WindowCommand.perform, exec_bind]
    rcases hexec : exec (openFile path) d with ⟨fault | ⟨⟩, d'⟩ <;> rwa [hexec] at hopened
  · have hplain : ∀ path, command ≠ .openFile path := fun path hpath => hopen ⟨path, hpath⟩
    refine kept_plain hplain (fun files hlaid => ?_) d h
    -- only a file that is opened is looked up in the store
    cases command with
    | openFile path => exact absurd rfl (hplain path)
    | _ => exact htext hlaid

end WindowControl

/-! ## Desktops -/

/-- What happens brings no input that is no text. -/
def Happening.Textual (t : Desktop) : Happening → Prop
  | .command _ given => given.Textual t.room.files
  | _ => True

namespace Desktop

/-- No input is brought that is no text, whatever happens one after the other. -/
def Textual (t : Desktop) : List Happening → Prop
  | [] => True
  | happening :: hs => happening.Textual t ∧ (t.next happening).Textual hs

/-- Every window is on a text or off it. -/
def Keeps (laid : Prop) (t : Desktop) : Prop :=
  ∀ (k : Nat) (d : Desk Window), t.windows[k]? = some d → (t.lend d).Kept laid

variable {t t' : Desktop} {d d' : Desk Window} {k : Nat} {laid : Prop}

theorem kept_lend (h : d.Kept laid) : (t.lend d).Kept laid :=
  h.near ⟨⟨rfl, rfl, h.typed.2.2.symm⟩, rfl, rfl, id, id⟩

/-- What the windows share does not matter. -/
theorem kept_relend (h : (t.lend d).Kept laid) : (t'.lend d).Kept laid := by
  have hlent : (t'.lend (t.lend d)).Kept laid := kept_lend h
  exact hlent

theorem Keeps.of_windows (h : t.Keeps laid) (hwindows : t'.windows = t.windows) :
    t'.Keeps laid := by
  intro i e he
  exact kept_relend (h i e (hwindows ▸ he))

/-- Besides the window that gives something back, all are as they were. -/
theorem keeps_restore (hothers : ∀ i e, i ≠ k → t.windows[i]? = some e → (t.lend e).Kept laid)
    (hk : k < t.windows.length) (hd' : d'.Kept laid) : (t.restore k d').Keeps laid := by
  intro i e he
  have hset : (t.windows.set k d')[i]? = some e := he
  by_cases hi : i = k
  · subst hi
    rw [List.getElem?_set_self hk] at hset
    obtain rfl := Option.some.inj hset
    exact kept_lend hd'
  · rw [List.getElem?_set_ne (Ne.symm hi)] at hset
    exact kept_relend (hothers i e hi hset)

/-- A call on one window leaves the others as they are. -/
theorem Keeps.onWindow {α : Type} (h : t.Keeps laid) {x : WindowControl α}
    (hx : ∀ d, t.windows[k]? = some d → (exec x (t.lend d)).2.Kept laid) :
    (t.onWindow k x).2.Keeps laid := by
  rw [Desktop.onWindow]
  cases hd : t.windows[k]? with
  | none => exact h
  | some d =>
    exact keeps_restore (fun i e _ => h i e) (List.getElem?_eq_some_iff.1 hd).1 (hx d hd)

/-- A window that is off a text waits for no timer, so that only a run on a text goes on. -/
theorem Keeps.due (h : t.Keeps laid) (ht : t.Tended) {j : Job} (hj : j ∈ t.agenda.jobs) :
    (t.due j).2.Keeps laid := by
  have hwindows : ({ t with agenda := t.agenda.elapse j } : Desktop).Keeps laid := h.of_windows rfl
  refine hwindows.onWindow fun d hd => ?_
  rcases h j.owner d hd with hon | ⟨-, hoff⟩
  · have helapsed : ({ t with agenda := t.agenda.elapse j } : Desktop).lend d =
        (t.lend d).elapsed j := rfl
    rw [helapsed]
    exact (WindowControl.onText_perform j.task _
      (hon.sameRun (Desk.sameRun_elapsed _ j) rfl rfl)).kept
  · have hknows := (ht.windows j.owner d hd).known j hj rfl
    unfold Desk.Knows at hknows
    split at hknows
    · exact absurd (hoff.settle.symm.trans hknows) nofun
    · exact absurd (hoff.pending.symm.trans hknows) nofun

/-- The window that is opened shows the first example of its formalism. -/
theorem Keeps.opened (h : t.Keeps laid) {x : Example} (hx : x ∈ Catalog.examples)
    (hd : t.newDesk x.automaton x.input = .ok d) {opened : Desktop}
    (hopened : opened.windows = t.windows ++ [d]) :
    (opened.onWindow t.windows.length
      (WindowControl.present x.automaton x.input)).2.Keeps laid := by
  have hat : opened.windows[t.windows.length]? = some d := by
    rw [hopened]
    exact List.getElem?_concat_length
  obtain ⟨hv, rfl⟩ := Desk.start_ok hd
  rw [Desktop.onWindow, hat]
  refine keeps_restore (fun i e hi he => ?_) (List.getElem?_eq_some_iff.1 hat).1 ?_
  · rw [hopened] at he
    rcases Nat.lt_or_gt_of_ne hi with hlt | hgt
    · rw [List.getElem?_append_left hlt] at he
      exact kept_relend (h i e he)
    · rw [List.getElem?_eq_none (by simp; omega)] at he
      cases he
  · refine (WindowControl.onText_present x.automaton x.input _ ⟨⟨?_, ?_, rfl, nofun⟩, rfl⟩).kept
    · exact ⟨Engine.records_start (WindowControl.valid_of_mem_examples hx).1 rfl rfl rfl rfl, rfl⟩
    · exact Automaton.validate_eq_ok_iff.1 hv

/-- A window starts with an example of the catalog. -/
theorem initial_mem_examples (formalism : Formalism) :
    Catalog.initial formalism ∈ Catalog.examples := by
  cases formalism <;> simp [Catalog.initial, Catalog.examples]

theorem Keeps.openWindow (h : t.Keeps laid) (formalism : Formalism) :
    (t.openWindow formalism).2.Keeps laid := by
  unfold Desktop.openWindow
  split
  · exact h
  · simp only
    split
    · exact h
    case h_2 d hd => exact h.opened (initial_mem_examples formalism) hd rfl

theorem Keeps.jam (h : t.Keeps laid) : t.jam.Keeps laid := by
  intro i e he
  obtain ⟨d, hd, rfl⟩ := Option.map_eq_some_iff.1 ((List.getElem?_map ..).symm.trans he)
  exact (h i d hd).near ⟨⟨rfl, rfl, rfl⟩, rfl, rfl, id, id⟩

/-- One thing that happens leaves each window on a text or off it. -/
theorem Keeps.next (h : t.Keeps laid) (ht : t.Tended) {happening : Happening}
    (htext : laid → happening.Textual t) : (t.next happening).Keeps laid := by
  cases happening with
  | openWindow formalism => exact h.openWindow formalism
  | closeWindow k => exact h.of_windows rfl
  | command k command =>
    exact h.onWindow fun d hd => WindowControl.kept_command (h k d hd) htext
  | jam => exact h.jam
  | timer handle =>
    rw [Desktop.next]
    cases hjob : t.agenda.job? handle with
    | none => exact h
    | some j => exact h.due ht (List.mem_of_find?_eq_some hjob)

/-- Many happenings, one after the other, keep the desktop together with its canvases. -/
theorem Keeps.nextAll (h : t.Keeps laid) (ht : t.Tended) {hs : List Happening}
    (htext : laid → t.Textual hs) : (t.nextAll hs).Keeps laid := by
  induction hs generalizing t with
  | nil => exact h
  | cons happening hs ih =>
    exact ih (h.next ht fun hlaid => (htext hlaid).1) (ht.next happening)
      fun hlaid => (htext hlaid).2

/-- Whatever has happened at a desktop, each window is on a text or off it. If all inputs were
texts, each is on a text, with the states of its automaton in their places. -/
theorem kept_of_happenings {files : FileStore} {canvasSize : Option (Int × Int)}
    {entries : EntryRule} {hs : List Happening}
    (htext : laid → (empty files canvasSize entries).Textual hs) :
    ((empty files canvasSize entries).nextAll hs).Keeps laid := by
  have hempty : (empty files canvasSize entries).Keeps laid := fun k d hd => by simp [empty] at hd
  exact hempty.nextAll (tended_empty files canvasSize entries) htext

end Desktop

end AutomatonLab
