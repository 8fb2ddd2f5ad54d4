import AutomatonLab.Proofs.Record

/-!
# Confirmations of displayed steps

A `Screen` displays each step that has to be confirmed. When a display has ended, however late, its
step is confirmed with the generation of its event; until then the event is a message on its way.
Messages arrive in any order (`Control.deliver`), while the engine is driven by other calls
(`Move`), which may begin new runs.

Exactly one message on its way belongs to the present run if a step is in flight, the one of that
step, and none if no step is (`Desk.Tallied`). For nothing is decided while a step is in flight, a
step that is put in flight is displayed at once (`Control.tallied_advance`), and a new run has a
generation of its own. So a step in flight waits for its own confirmation, and the confirmations of
earlier runs do nothing (`confirmations_match`).
-/

namespace AutomatonLab

/-- What displays the steps of an engine : the events whose display has not ended, and what other
listeners noted. -/
structure Screen (τ : Type) where
  messages : List Event
  notes : τ

namespace Screen

variable {τ : Type}

/-- The screen when an event is told. A transition is displayed if it has to be confirmed. -/
def displayed (s : Screen τ) (manualAck : Bool) (watch : Event → τ → τ) (ev : Event) :
    Screen τ where
  messages := if ev.transition.isSome && manualAck then s.messages ++ [ev] else s.messages
  notes := watch ev s.notes

end Screen

namespace Control

variable {τ : Type}

/-- The screen is told of an event; the other listeners at most note it. -/
def display (watch : Event → τ → τ) : Notify (Screen τ) := fun ev =>
  update fun d => { d with outside := d.outside.displayed d.engine.manualAck watch ev }

/-- The display of the message number `i` has ended, and its step is confirmed. -/
def deliver (watch : Event → τ → τ) (allowance i : Nat) : Control (Screen τ) Unit := do
  match (← get).outside.messages[i]? with
  | none => return
  | some ev =>
    update fun d => { d with outside :=
      { d.outside with messages := d.outside.messages.eraseIdx i } }
    acknowledge (display watch) allowance (some ev.generation)

end Control

/-- What may happen to an engine on display. -/
inductive Move where
  | step
  | run (allowance : Nat)
  | pause
  | reset (input : Option Text)
  | load (a : Automaton) (input : Option Text)
  | fire (handle : Option Nat)
  | deliver (allowance i : Nat)

namespace Move

variable {τ : Type}

/-- Carries out a move; what it answers is left out. -/
def perform (watch : Event → τ → τ) : Move → Control (Screen τ) Unit
  | step => do let _ ← Control.step (Control.display watch)
  | run allowance => do let _ ← Control.run (Control.display watch) allowance
  | pause => Control.pause
  | reset input => Control.reset input
  | load a input => Control.load a input
  | fire handle => do let _ ← Control.fire (Control.display watch) handle
  | deliver allowance i => Control.deliver watch allowance i

/-- The desk after a move, however it ends. -/
def next (watch : Event → τ → τ) (m : Move) (d : Desk (Screen τ)) : Desk (Screen τ) :=
  (Control.exec (m.perform watch) d).2

/-- The move confirms the step in flight, or begins a new run. -/
def Releases (d : Desk (Screen τ)) : Move → Prop
  | reset _ => True
  | load a _ => a.validate = .ok ()
  | deliver _ i => ∃ ev, d.outside.messages[i]? = some ev ∧ ev.generation = d.engine.generation
  | _ => False

end Move

/-- The desks that moves lead to. -/
inductive Reached {τ : Type} (watch : Event → τ → τ) (d₀ : Desk (Screen τ)) :
    Desk (Screen τ) → Prop where
  | start : Reached watch d₀ d₀
  | move {d : Desk (Screen τ)} (m : Move) : Reached watch d₀ d → Reached watch d₀ (m.next watch d)

namespace Desk

variable {τ : Type} {d d' : Desk (Screen τ)} {watch : Event → τ → τ}

/-- The event belongs to the present run. -/
def belongs (d : Desk (Screen τ)) (ev : Event) : Bool :=
  ev.generation == d.engine.generation

/-- The messages on their way that belong to the present run. -/
def current (d : Desk (Screen τ)) : List Event :=
  d.outside.messages.filter d.belongs

/-- The messages of the present run are that of the last transition if it is in flight, and none
otherwise. All others belong to earlier runs. -/
structure Tallied (d : Desk (Screen τ)) : Prop where
  past : ∀ ev ∈ d.outside.messages, ev.generation ≤ d.engine.generation
  idle : d.engine.inFlight = false → d.current = []
  inFlight : d.engine.inFlight = true → ∃ ev, d.engine.history.toList.getLast? = some ev ∧
    ev.transition.isSome = true ∧ d.current = [ev]

/-- The desk when the message number `i` has arrived. -/
def received (d : Desk (Screen τ)) (i : Nat) : Desk (Screen τ) :=
  { d with outside := { d.outside with messages := d.outside.messages.eraseIdx i } }

/-! ## Changes that no message depends on -/

/-- To reach the limit sends no message and confirms none. -/
theorem tallied_observeLimit (h : d.Tallied) : d.observeLimit.Tallied := by
  unfold observeLimit
  split
  · exact ⟨h.past, h.idle, h.inFlight⟩
  · exact h

theorem tallied_scheduleNext (h : d.Tallied) : d.scheduleNext.Tallied := by
  unfold scheduleNext
  split
  · exact h
  · split
    · exact h
    · split
      · exact tallied_observeLimit h
      · exact ⟨h.past, h.idle, h.inFlight⟩

theorem tallied_goOn (h : d.Tallied) : d.goOn.Tallied := by
  unfold goOn
  split
  · exact tallied_scheduleNext h
  · exact h

/-! ## New runs, and steps that are put in flight -/

/-- No message belongs to a run that begins. -/
theorem tallied_reset (h : d.Tallied) (input : Option Text) : (d.reset input).Tallied where
  past ev hev := Nat.le_succ_of_le (h.past ev hev)
  idle _ := by
    refine List.filter_eq_nil_iff.2 fun ev hev => ?_
    have hpast : ev.generation < (d.reset input).engine.generation :=
      Nat.lt_succ_of_le (h.past ev hev)
    simpa [belongs] using Nat.ne_of_lt hpast
  inFlight := nofun

theorem tallied_loaded (h : d.Tallied) (a : Automaton) (input : Option Text) :
    (d.loaded a input).Tallied :=
  tallied_reset (d := { d with engine := { d.engine with automaton := a } })
    ⟨h.past, h.idle, h.inFlight⟩ input

/-- A transition that has to be confirmed is put in flight and displayed. -/
theorem tallied_told (h : d.Tallied) (hflight : d.engine.inFlight = false) {ev : Event}
    (hev : ev.transition.isSome = true → d.engine.history.toList.getLast? = some ev ∧
      ev.generation = d.engine.generation) :
    Tallied { d.launch ev with
      outside := (d.launch ev).outside.displayed (d.launch ev).engine.manualAck watch ev } := by
  cases hsome : ev.transition.isSome && d.engine.manualAck with
  | false =>
    have hlaunch : d.launch ev = d := by rw [launch, hsome]; rfl
    have hmessages :
        (d.outside.displayed d.engine.manualAck watch ev).messages = d.outside.messages := by
      rw [Screen.displayed, hsome]; rfl
    rw [hlaunch]
    refine ⟨?_, ?_, ?_⟩
    · rw [hmessages]
      exact h.past
    · unfold current
      rw [hmessages]
      exact h.idle
    · exact fun hf => absurd hf (by simp [hflight])
  | true =>
    obtain ⟨hlast, hgeneration⟩ := hev (Bool.and_eq_true_iff.1 hsome).1
    have hlaunch : d.launch ev = { d with engine := { d.engine with inFlight := true } } := by
      rw [launch, hsome]; rfl
    have hmessages : (d.outside.displayed d.engine.manualAck watch ev).messages =
        d.outside.messages ++ [ev] := by
      rw [Screen.displayed, hsome]; rfl
    rw [hlaunch]
    refine ⟨?_, nofun, fun _ => ⟨ev, hlast, (Bool.and_eq_true_iff.1 hsome).1, ?_⟩⟩
    · intro ev' hev'
      rw [hmessages] at hev'
      rcases List.mem_append.1 hev' with hold | hnew
      · exact h.past ev' hold
      · rw [List.mem_singleton.1 hnew]
        exact Nat.le_of_eq hgeneration
    · have hidle : d.outside.messages.filter d.belongs = [] := h.idle hflight
      show (d.outside.displayed d.engine.manualAck watch ev).messages.filter d.belongs = [ev]
      rw [hmessages, List.filter_append, hidle]
      simp [belongs, hgeneration]

end Desk

namespace Control

open Desk

variable {τ : Type} {d : Desk (Screen τ)}

/-- A decision that is made while no step is in flight changes no message, and its event is the
last one of the history if it is a transition. -/
theorem tallied_decide (h : d.Tallied) (hflight : d.engine.inFlight = false) :
    d.decide.2.Tallied ∧ d.decide.2.engine.inFlight = false ∧ ∀ ev, d.decide.1 = .ok ev →
      ev.transition.isSome = true → d.decide.2.engine.history.toList.getLast? = some ev ∧
        ev.generation = d.decide.2.engine.generation := by
  obtain ⟨-, houtside, -, -, hflight', -, -, hgeneration⟩ := d.leaves_decide
  have hbelongs : d.decide.2.belongs = d.belongs := by
    funext ev
    rw [belongs, belongs, hgeneration]
  have hcurrent : d.decide.2.current = d.current := by rw [current, current, houtside, hbelongs]
  refine ⟨⟨?_, fun _ => ?_, fun hf => absurd hf (by simp [hflight', hflight])⟩,
    hflight'.trans hflight, fun ev hev hsome => ?_⟩
  · rw [houtside, hgeneration]
    exact h.past
  · rw [hcurrent]
    exact h.idle hflight
  · rcases d.decide_cases with ⟨-, hdecide⟩ | ⟨-, fault, hdecide⟩ | ⟨-, decision, log, -, hdecide⟩
    all_goals rw [hdecide] at hev ⊢
    · rw [← Except.ok.inj hev] at hsome
      cases hsome
    · cases hev
    · rw [← Except.ok.inj hev]
      exact ⟨by simp [Engine.moved], rfl⟩

/-- A step that is made while none is in flight is displayed if it is put in flight. -/
theorem tallied_advance (watch : Event → τ → τ) (h : d.Tallied)
    (hflight : d.engine.inFlight = false) :
    (exec (advance (display watch)) d).2.Tallied := by
  obtain ⟨hdecided, hflight₁, hlast⟩ := tallied_decide h hflight
  rw [exec_advance]
  rcases hdecide : d.decide with ⟨fault | ev, d₁⟩
  · rwa [hdecide] at hdecided
  · rw [hdecide] at hdecided hflight₁ hlast
    exact tallied_goOn (tallied_told hdecided hflight₁ (hlast ev rfl))

/-- The loop that makes all steps at once stops when a step is in flight. -/
theorem tallied_drainLoop (watch : Event → τ → τ) :
    ∀ (allowance : Nat) {d : Desk (Screen τ)}, d.Tallied →
      (exec (drainLoop (display watch) allowance) d).2.Tallied
  | 0, _, h => h
  | allowance + 1, d, h => by
    rw [exec_drainLoop_succ]
    split
    case isFalse => exact h
    case isTrue hgo =>
      simp only [Bool.and_eq_true, Bool.not_eq_true'] at hgo
      split
      · exact tallied_observeLimit h
      · exact holds_bind (tallied_advance watch h hgo.1.2) fun _ _ =>
          tallied_drainLoop watch allowance

/-- A run without timers tells of each step before it is in flight. -/
theorem tallied_drain (watch : Event → τ → τ) (allowance : Nat) (h : d.Tallied) :
    (exec (drain (display watch) allowance) d).2.Tallied := by
  have hloop := tallied_drainLoop watch allowance (d := d.drains true)
    ⟨h.past, h.idle, h.inFlight⟩
  exact ⟨hloop.past, hloop.idle, hloop.inFlight⟩

/-! ## Every move -/

/-- A step by hand sends its message and puts the step in flight, or does neither. -/
theorem tallied_step (watch : Event → τ → τ) (h : d.Tallied) :
    (exec (step (display watch)) d).2.Tallied := by
  rw [exec_step]
  split
  · exact ⟨h.past, h.idle, h.inFlight⟩
  case isFalse hflight =>
    split
    · exact h
    · exact tallied_advance watch (d := d.pause) ⟨h.past, h.idle, h.inFlight⟩
        (Bool.eq_false_iff.2 hflight)

theorem tallied_run (watch : Event → τ → τ) (allowance : Nat) (h : d.Tallied) :
    (exec (run (display watch) allowance) d).2.Tallied := by
  have hbegun : d.begun.Tallied := ⟨h.past, h.idle, h.inFlight⟩
  rw [exec_run]
  split
  · exact h
  case isFalse hidle =>
    simp only [Bool.or_eq_true, not_or, Bool.not_eq_true] at hidle
    split
    · exact tallied_observeLimit h
    · split
      · exact tallied_drain watch allowance hbegun
      · exact tallied_advance watch hbegun hidle.1.1

theorem tallied_load (a : Automaton) (input : Option Text) (h : d.Tallied) :
    (exec (load a input) d).2.Tallied := by
  rw [exec_load]
  rcases hl : d.load a input with fault | d'
  · exact h
  · obtain ⟨-, rfl⟩ := load_ok hl
    exact tallied_loaded h a input

theorem tallied_fire (watch : Event → τ → τ) (handle : Option Nat) (h : d.Tallied) :
    (exec (fire (display watch) handle) d).2.Tallied := by
  rw [exec_fire]
  split
  · exact h
  case h_2 j _ =>
    have hwoken : (d.elapsed j).woken.Tallied := ⟨h.past, h.idle, h.inFlight⟩
    rw [exec_due]
    split
    · rw [exec_resume]
      split
      · exact hwoken
      case isFalse hgo =>
        simp only [Bool.or_eq_true, not_or, Bool.not_eq_true] at hgo
        exact tallied_advance watch hwoken hgo.2
    · exact ⟨h.past, h.idle, h.inFlight⟩

/-! ## The delivery of a message -/

/-- The messages before and after the one that is taken out. -/
theorem exists_eraseIdx {l : List Event} {i : Nat} {ev : Event} (h : l[i]? = some ev) :
    ∃ before after, l = before ++ ev :: after ∧ l.eraseIdx i = before ++ after := by
  obtain ⟨hi, hev⟩ := List.getElem?_eq_some_iff.1 h
  refine ⟨l.take i, l.drop (i + 1), ?_, List.eraseIdx_eq_take_drop_succ l i⟩
  rw [← hev, List.getElem_cons_drop, List.take_append_drop]

/-- To deliver a message is to confirm the step it tells of. -/
theorem exec_deliver (watch : Event → τ → τ) (allowance i : Nat) (d : Desk (Screen τ)) :
    exec (deliver watch allowance i) d = match d.outside.messages[i]? with
      | none => (.ok (), d)
      | some ev => exec (acknowledge (display watch) allowance (some ev.generation))
          (d.received i) := by
  rw [deliver, exec_bind, exec_get]
  simp only
  cases d.outside.messages[i]? with
  | none => rfl
  | some ev => rfl

/-- The confirmation of another run at most leaves a note in the log. -/
theorem exec_acknowledge_stale {σ : Type} (notify : Notify σ) (allowance : Nat) {generation : Int}
    {d : Desk σ} (h : generation ≠ d.engine.generation) :
    ∃ entries, exec (acknowledge notify allowance (some generation)) d =
      (.ok (), d.note entries) := by
  rw [exec_acknowledge]
  split
  · exact ⟨[], rfl⟩
  · have hstale : (some generation).filter (· ≠ (d.engine.generation : Int)) = some generation := by
      simp [h]
    rw [hstale]
    exact ⟨_, rfl⟩

/-- A message about an older run is none about the step in flight. -/
theorem current_received_of_ne {i : Nat} {ev : Event} (hi : d.outside.messages[i]? = some ev)
    (hev : ev.generation ≠ d.engine.generation) : (d.received i).current = d.current := by
  obtain ⟨before, after, hmessages, hrest⟩ := exists_eraseIdx hi
  have hout : d.belongs ev = false := beq_false_of_ne hev
  show (d.outside.messages.eraseIdx i).filter d.belongs = d.outside.messages.filter d.belongs
  rw [hrest, hmessages, List.filter_append, List.filter_append, List.filter_cons, hout]
  rfl

/-- A message of the present run is that of the step in flight, and the only one. -/
theorem current_received_of_eq {i : Nat} {ev : Event} (h : d.Tallied)
    (hi : d.outside.messages[i]? = some ev) (hev : ev.generation = d.engine.generation) :
    d.engine.inFlight = true ∧ (d.received i).current = [] := by
  obtain ⟨before, after, hmessages, hrest⟩ := exists_eraseIdx hi
  have hin : d.belongs ev = true := beq_iff_eq.2 hev
  have hsplit : d.current = before.filter d.belongs ++ ev :: after.filter d.belongs := by
    rw [current, hmessages, List.filter_append, List.filter_cons, if_pos hin]
  have hleft : (d.received i).current = before.filter d.belongs ++ after.filter d.belongs := by
    show (d.outside.messages.eraseIdx i).filter d.belongs = _
    rw [hrest, List.filter_append]
  have hflight : d.engine.inFlight = true := by
    rcases Bool.eq_false_or_eq_true d.engine.inFlight with hf | hf
    · exact hf
    · simp [h.idle hf] at hsplit
  obtain ⟨ev', -, -, hone⟩ := h.inFlight hflight
  have hlength : d.current.length = 1 := by rw [hone]; rfl
  rw [hsplit, List.length_append, List.length_cons] at hlength
  refine ⟨hflight, List.eq_nil_of_length_eq_zero ?_⟩
  rw [hleft, List.length_append]
  omega

theorem tallied_deliver (watch : Event → τ → τ) (allowance i : Nat) (h : d.Tallied) :
    (exec (deliver watch allowance i) d).2.Tallied := by
  rw [exec_deliver]
  cases hi : d.outside.messages[i]? with
  | none => exact h
  | some ev =>
    have hpast : ∀ ev ∈ (d.received i).outside.messages, ev.generation ≤ d.engine.generation :=
      fun ev hev => h.past ev (List.mem_of_mem_eraseIdx hev)
    by_cases hev : ev.generation = d.engine.generation
    · obtain ⟨hflight, hcurrent⟩ := current_received_of_eq h hi hev
      have hconfirmed : (d.received i).confirmed.Tallied := ⟨hpast, fun _ => hcurrent, nofun⟩
      have hflight' : (d.received i).engine.inFlight = true := hflight
      have hown : (some (ev.generation : Int)).filter
          (· ≠ ((d.received i).engine.generation : Int)) = none := by
        simp [received, hev]
      simp only [exec_acknowledge, hflight', hown]
      split
      · contradiction
      · split
        · exact hconfirmed
        · split
          · exact tallied_drain watch allowance hconfirmed
          · exact tallied_scheduleNext hconfirmed
    · have hother : (ev.generation : Int) ≠ (d.received i).engine.generation := mod_cast hev
      obtain ⟨entries, hstale⟩ := exec_acknowledge_stale (display watch) allowance hother
      have hcurrent := current_received_of_ne hi hev
      simp only [hstale]
      refine ⟨hpast, fun hf => ?_, fun hf => ?_⟩
      · exact hcurrent.trans (h.idle hf)
      · obtain ⟨ev', hlast, hsome, hone⟩ := h.inFlight hf
        exact ⟨ev', hlast, hsome, hcurrent.trans hone⟩

end Control

namespace Move

open Control Desk

variable {τ : Type} {d d₀ : Desk (Screen τ)} {watch : Event → τ → τ}

theorem next_eq {α : Type} (x : Control (Screen τ) α) (d : Desk (Screen τ)) :
    (exec (do let _ ← x) d).2 = (exec x d).2 := by
  rw [exec_bind_pure]

/-- Every move keeps the tally. -/
theorem tallied_next (m : Move) (h : d.Tallied) : (m.next watch d).Tallied := by
  cases m with
  | step =>
    rw [next, perform, next_eq]
    exact tallied_step watch h
  | run allowance =>
    rw [next, perform, next_eq]
    exact tallied_run watch allowance h
  | pause => exact ⟨h.past, h.idle, h.inFlight⟩
  | reset input => exact tallied_reset h input
  | load a input => exact tallied_load a input h
  | fire handle =>
    rw [next, perform, next_eq]
    exact tallied_fire watch handle h
  | deliver allowance i => exact tallied_deliver watch allowance i h

/-- The confirmation of another run leaves the engine as it is. -/
theorem engine_next_deliver (watch : Event → τ → τ) {i : Nat} {ev : Event} (allowance : Nat)
    (hi : d.outside.messages[i]? = some ev) (hev : ev.generation ≠ d.engine.generation) :
    ∃ entries, (deliver allowance i).next watch d = (d.received i).note entries := by
  have hother : (ev.generation : Int) ≠ (d.received i).engine.generation := mod_cast hev
  obtain ⟨entries, hstale⟩ := exec_acknowledge_stale (display watch) allowance hother
  exact ⟨entries, by rw [next, perform, exec_deliver, hi]; simp only [hstale]⟩

/-- A move that does not release the step in flight leaves it in flight, and the run where it is. -/
theorem inFlight_next (m : Move) (hflight : d.engine.inFlight = true) (hm : ¬m.Releases d) :
    (m.next watch d).engine.inFlight = true ∧ d.SameRun (m.next watch d) := by
  cases m with
  | step =>
    rw [next, perform, next_eq, exec_step, hflight]
    exact ⟨hflight, d.sameRun_note _⟩
  | run allowance =>
    rw [next, perform, next_eq, exec_run, hflight]
    exact ⟨hflight, rfl, rfl, rfl⟩
  | pause => exact ⟨hflight, d.sameRun_pause⟩
  | reset input => exact absurd trivial hm
  | load a input =>
    rcases ha : a.validate with defect | ⟨⟩
    · rw [next, perform, exec_load_of_invalid ha]
      exact ⟨hflight, rfl, rfl, rfl⟩
    · exact absurd ha hm
  | fire handle =>
    rw [next, perform, next_eq, exec_fire]
    split
    · exact ⟨hflight, rfl, rfl, rfl⟩
    case h_2 j _ =>
      have hstop : (d.elapsed j).engine.inFlight = true := hflight
      simp only [exec_due]
      split
      · rw [exec_resume, hstop, Bool.or_true]
        exact ⟨hflight, rfl, rfl, (d.sameRun_elapsed j).agenda⟩
      · exact ⟨hflight, d.sameRun_elapsed j⟩
  | deliver allowance i =>
    cases hi : d.outside.messages[i]? with
    | none =>
      rw [next, perform, exec_deliver, hi]
      exact ⟨hflight, rfl, rfl, rfl⟩
    | some ev =>
      have hev : ev.generation ≠ d.engine.generation := fun hev => hm ⟨ev, hi, hev⟩
      obtain ⟨entries, hnext⟩ := engine_next_deliver watch allowance hi hev
      rw [hnext]
      exact ⟨hflight, rfl, rfl, rfl⟩

end Move

/-- The messages match the step in flight, whatever moves have led to a desk. -/
theorem Desk.tallied_of_reached {τ : Type} {watch : Event → τ → τ} {d₀ d : Desk (Screen τ)}
    (h₀ : d₀.Tallied) (h : Reached watch d₀ d) : d.Tallied := by
  induction h with
  | start => exact h₀
  | move m _ ih => exact m.tallied_next ih

/-- A new engine has sent no message, and no step is in flight. -/
theorem Desk.tallied_start {τ : Type} {a : Automaton} {w : Text} {delay : Int} {manualAck : Bool}
    {maxSteps : Option Int} {agenda : Option Agenda} {owner : Nat} {notes : τ}
    {d : Desk (Screen τ)}
    (hd : Desk.start a w delay manualAck maxSteps agenda owner ⟨[], notes⟩ = .ok d) :
    d.Tallied := by
  obtain ⟨-, rfl⟩ := Desk.start_ok hd
  exact ⟨nofun, fun _ => rfl, nofun⟩

/-- Whatever happens to an engine on display : the messages on their way that belong to its present
run are the one of the last transition, as long as that is in flight, and none otherwise. So a step
in flight is released only when its own message arrives or another run begins, and the messages of
earlier runs do nothing. -/
theorem confirmations_match {τ : Type} {watch : Event → τ → τ} {a : Automaton} {w : Text}
    {delay : Int} {manualAck : Bool} {maxSteps : Option Int} {agenda : Option Agenda} {owner : Nat}
    {notes : τ} {d₀ d : Desk (Screen τ)}
    (hd : Desk.start a w delay manualAck maxSteps agenda owner ⟨[], notes⟩ = .ok d₀)
    (hreached : Reached watch d₀ d) :
    d.Tallied ∧
    (d.engine.inFlight = true → ∀ m : Move, ¬m.Releases d →
      (m.next watch d).engine.inFlight = true ∧ d.SameRun (m.next watch d)) ∧
    (∀ allowance i ev, d.outside.messages[i]? = some ev →
      ev.generation ≠ d.engine.generation → ev.generation < d.engine.generation ∧
        ((Move.deliver allowance i).next watch d).engine = d.engine) := by
  have htallied := Desk.tallied_of_reached (Desk.tallied_start hd) hreached
  refine ⟨htallied, fun hflight m hm => m.inFlight_next hflight hm, ?_⟩
  intro allowance i ev hi hev
  have hpast := htallied.past ev (List.mem_of_getElem? hi)
  obtain ⟨entries, hnext⟩ := Move.engine_next_deliver watch allowance hi hev
  exact ⟨by omega, by rw [hnext]; rfl⟩

/-- A step of the first run is displayed for so long that its message arrives in the second one,
while a step of that is in flight. -/
theorem confirmations_match_evenA :
    let watch : Event → Nat → Nat := fun _ n => n + 1
    ∃ d₀, Desk.start Catalog.evenA.automaton "ab" 200 true none (some (.empty true)) 0 ⟨[], 0⟩ =
        .ok d₀ ∧
      let d := Move.step.next watch ((Move.reset none).next watch ((Move.run 1).next watch d₀))
      Reached watch d₀ d ∧ d.outside.messages.map Event.generation = [1, 2] ∧
        d.engine.inFlight = true ∧ d.Tallied ∧ ((Move.run 1).next watch d).engine.inFlight = true ∧
        ((Move.deliver 0 0).next watch d).engine = d.engine := by
  intro watch
  obtain ⟨d₀, hd⟩ : ∃ d₀, Desk.start Catalog.evenA.automaton "ab" 200 true none
      (some (.empty true)) 0 (⟨[], 0⟩ : Screen Nat) = .ok d₀ := ⟨_, rfl⟩
  refine ⟨d₀, hd, ?_⟩
  intro d
  have hreached : Reached watch d₀ d := .move .step (.move (.reset none) (.move (.run 1) .start))
  obtain ⟨htallied, hwaits, hstale⟩ := confirmations_match hd hreached
  cases hd
  refine ⟨hreached, rfl, rfl, htallied, (hwaits rfl (.run 1) id).1, ?_⟩
  exact (hstale 0 0 _ rfl (by decide)).2

end AutomatonLab
