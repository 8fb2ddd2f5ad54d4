import AutomatonLab.Catalog
import AutomatonLab.Proofs.Calls
import AutomatonLab.Proofs.Computation

/-!
# What an engine records is the computation of its automaton

However an engine is driven, its history is a beginning of the computation of its automaton on its
input, and its configuration and its counters are those that the history leads to
(`Engine.Records`). Only a decision adds an event, by one step of the computation
(`Engine.Records.moved`, `Desk.exists_decide`); a reset begins another computation, and everything
else that a call does concerns how the run goes on (`Engine.SameRun`, `Desk.SameRun`). So every play
keeps the record (`Control.Play.keeps`), and the engine follows the computation
(`follows_of_play`).
-/

namespace AutomatonLab

namespace Engine

/-- The engine `e'` differs from `e` at most in how its run goes on. -/
def SameRun (e e' : Engine) : Prop :=
  e' = { e with
    status := e'.status
    inFlight := e'.inFlight
    running := e'.running
    draining := e'.draining
    pending := e'.pending }

/-- How far the events of `es` have come, which lead to the configuration `c`. -/
def reach (f : Formalism) (es : List Event) (c : Configuration) : Int :=
  if f = .tm then (es.map fun ev => ev.snapshot.head).foldl max 0 else c.cursor

/-- The record of the engine is that of the computation of its automaton on its input, where that
has the status `s`. -/
structure Records (e : Engine) (s : Status) : Prop where
  typed : e.automaton.Typed
  computation : Computation e.automaton e.input e.generation e.history.toList e.config s
  steps : e.steps = Computation.transitions e.history.toList
  consumed : e.consumed = reach e.automaton.formalism e.history.toList e.config

variable {e e' : Engine} {s : Status}

/-- The record only depends on the run. -/
theorem Records.sameRun (h : e.Records s) (hrun : e.SameRun e') : e'.Records s := by
  rw [hrun]
  exact ⟨h.typed, h.computation, h.steps, h.consumed⟩

/-- The engine after a step that takes the transition `t`, or none, and leads to `c` with the status
`s`. -/
def moved (e : Engine) (t : Option Transition) (c : Configuration) (s : Status) : Engine :=
  { e with
    config := c
    status := s
    running := e.running && !s.isTerminal
    steps := e.steps + if t.isSome then 1 else 0
    consumed := if t.isSome then e.progress c else e.consumed
    history := e.history.push ⟨t, c.snapshot, s, e.generation⟩ }

/-- The head is not beyond the cells that the events have reached. -/
theorem head_le_reach {a : Automaton} {w : Text} {g : Nat} {es : List Event} {c : Configuration}
    (h : Computation a w g es c s) : c.head ≤ reach .tm es c := by
  cases h with
  | start => exact Int.le_refl 0
  | step =>
    simp only [reach, if_true, List.map_append, List.map_cons, List.map_nil, List.foldl_append,
      List.foldl_cons, List.foldl_nil, Configuration.snapshot]
    exact Int.le_max_right _ _

/-- A step of the computation keeps the record. -/
theorem Records.moved (h : e.Records s) (hs : s.isTerminal = false) {t : Option Transition}
    {c' : Configuration} {s' : Status} (hstep : Step e.automaton e.config t c' s') :
    (e.moved t c' s').Records s' := by
  have hlist : (e.moved t c' s').history.toList =
      e.history.toList ++ [⟨t, c'.snapshot, s', e.generation⟩] := by
    simp [Engine.moved]
  have hinput : (e.moved t c' s').input = e.input := hstep.input_eq
  refine ⟨h.typed, ?_, ?_, ?_⟩
  · rw [hinput, hlist]
    exact h.computation.step hs hstep
  · rw [hlist, Computation.transitions_snoc, ← h.steps]
    rfl
  · have hc := h.consumed
    have hhead := head_le_reach h.computation
    rw [hlist]
    simp only [Engine.moved, Engine.progress, reach, hc, if_true] at hhead ⊢
    by_cases htm : e.automaton.formalism = .tm
    · rcases hstep.status_cases with ⟨⟨u, rfl⟩, -⟩ | ⟨rfl, -, rfl⟩
      · simp [htm, Configuration.snapshot]
      · simp [htm, Configuration.snapshot, Int.max_eq_left hhead]
    · rcases hstep.status_cases with ⟨⟨u, rfl⟩, -⟩ | ⟨rfl, -, rfl⟩ <;> simp [htm]

/-- An engine at the start of a run. -/
theorem records_start {w : Text} (ha : e.automaton.Typed)
    (hconfig : e.config = .start e.automaton w) (hhistory : e.history = #[])
    (hsteps : e.steps = 0) (hconsumed : e.consumed = 0) :
    e.Records .ready := by
  refine ⟨ha, ?_, by simp [hsteps, hhistory], ?_⟩
  · rw [hhistory, input, hconfig]
    exact .start
  · simp only [hconsumed, hhistory, hconfig, reach, Configuration.start, List.map_nil,
      List.foldl_nil]
    split <;> rfl

end Engine

namespace Desk

variable {σ : Type} {d : Desk σ} {s : Status}

/-- The desk `d'` differs from `d` at most in how its run goes on and in what surrounds the
engine. -/
structure SameRun (d d' : Desk σ) : Prop where
  engine : d.engine.SameRun d'.engine
  status : d'.engine.status = d.engine.status
  agenda : d'.agenda.isSome = d.agenda.isSome

theorem sameRun_confirmed (d : Desk σ) : SameRun d d.confirmed :=
  ⟨rfl, rfl, rfl⟩

theorem sameRun_woken (d : Desk σ) : SameRun d d.woken :=
  ⟨rfl, rfl, rfl⟩

theorem sameRun_elapsed (d : Desk σ) (j : Job) : SameRun d (d.elapsed j) :=
  ⟨rfl, rfl, Option.isSome_map⟩

theorem sameRun_drains (d : Desk σ) (b : Bool) : SameRun d (d.drains b) :=
  ⟨rfl, rfl, rfl⟩

theorem sameRun_note (d : Desk σ) (entries : List LogEntry) : SameRun d (d.note entries) :=
  ⟨rfl, rfl, rfl⟩

theorem isSome_agenda_cancelPending (d : Desk σ) :
    d.cancelPending.agenda.isSome = d.agenda.isSome := by
  unfold cancelPending
  cases d.engine.pending with
  | none => rfl
  | some handle => exact Option.isSome_map

theorem sameRun_pause (d : Desk σ) : SameRun d d.pause :=
  ⟨rfl, rfl, d.isSome_agenda_cancelPending⟩

theorem sameRun_observeLimit (d : Desk σ) : SameRun d d.observeLimit := by
  unfold observeLimit
  split <;> exact ⟨rfl, rfl, rfl⟩

/-- Asking for a timer is not part of the run. -/
theorem sameRun_scheduleNext (d : Desk σ) : SameRun d d.scheduleNext := by
  unfold scheduleNext
  split
  · exact ⟨rfl, rfl, rfl⟩
  case h_2 g hg =>
    split
    · exact ⟨rfl, rfl, rfl⟩
    · split
      · exact d.sameRun_observeLimit
      · exact ⟨rfl, rfl, (congrArg Option.isSome hg).symm⟩

theorem sameRun_goOn (d : Desk σ) : SameRun d d.goOn := by
  unfold goOn
  split
  · exact d.sameRun_scheduleNext
  · exact ⟨rfl, rfl, rfl⟩

theorem sameRun_launch (d : Desk σ) (ev : Event) : SameRun d (d.launch ev) := by
  unfold launch
  split <;> exact ⟨rfl, rfl, rfl⟩

/-! ## Decisions -/

/-- After the verdict the event has no transition, and nothing changes. -/
theorem decide_of_terminal (hd : d.engine.status.isTerminal = true) :
    d.decide = (.ok (d.engine.event none), d) := by
  simp [decide, hd]

/-- A fault of the decision only leaves the mark that the run has begun. -/
theorem decide_of_fault (hd : d.engine.status.isTerminal = false) {fault : Fault}
    (h : d.engine.config.decision d.engine.automaton = .error fault) :
    d.decide = (.error fault, { d with engine := { d.engine with status := .running } }) := by
  simp [decide, hd, h]

/-- A decision of a run that has not ended is made and recorded. -/
theorem decide_of_decision (hd : d.engine.status.isTerminal = false) {decision : Decision}
    (h : d.engine.config.decision d.engine.automaton = .ok decision) :
    ∃ log, d.decide = (.ok ⟨decision.transition?, (decision.after d.engine.config).snapshot,
        decision.status, d.engine.generation⟩,
      { d with
        engine := d.engine.moved decision.transition? (decision.after d.engine.config)
          decision.status
        log := log }) := by
  refine ⟨(decision.notes d.engine.automaton d.engine.config).reverse ++ d.log, ?_⟩
  simp only [decide, hd, h, Bool.false_eq_true, if_false]
  cases decision with
  | take t =>
    simp only [note, Engine.taking, Engine.event, Engine.record, Engine.moved, Decision.after,
      Decision.transition?, Decision.status, Status.isTerminal, Bool.not_false, Bool.and_true]
    rfl
  | halt status =>
    simp only [note, Engine.halting, Engine.event, Engine.record, Engine.moved, Decision.after,
      Decision.transition?, Decision.status, isTerminal_of_halt h, Bool.not_true, Bool.and_false]
    rfl

/-- All that a decision can do : nothing after the end, and otherwise it fails, or is made and
recorded. -/
theorem decide_cases (d : Desk σ) :
    d.engine.status.isTerminal = true ∧ d.decide = (.ok (d.engine.event none), d) ∨
    d.engine.status.isTerminal = false ∧ (∃ fault, d.decide =
      (.error fault, { d with engine := { d.engine with status := .running } })) ∨
    d.engine.status.isTerminal = false ∧ ∃ decision log,
      d.engine.config.decision d.engine.automaton = .ok decision ∧
      d.decide = (.ok ⟨decision.transition?, (decision.after d.engine.config).snapshot,
          decision.status, d.engine.generation⟩,
        { d with
          engine := d.engine.moved decision.transition? (decision.after d.engine.config)
            decision.status
          log := log }) := by
  cases hd : d.engine.status.isTerminal with
  | true => exact Or.inl ⟨rfl, decide_of_terminal hd⟩
  | false =>
    cases hdecision : d.engine.config.decision d.engine.automaton with
    | error fault => exact Or.inr (Or.inl ⟨rfl, fault, decide_of_fault hd hdecision⟩)
    | ok decision =>
      obtain ⟨log, hlog⟩ := decide_of_decision hd hdecision
      exact Or.inr (Or.inr ⟨rfl, decision, log, rfl, hlog⟩)

/-- No other change is left by a decision that fails. -/
theorem decide_error {fault : Fault} {d' : Desk σ} (h : d.decide = (.error fault, d')) :
    d' = { d with engine := { d.engine with status := .running } } := by
  rcases d.decide_cases with ⟨-, hdecide⟩ | ⟨-, _, hdecide⟩ | ⟨-, _, _, -, hdecide⟩
  all_goals rw [hdecide] at h
  · cases h
  · exact (Prod.mk.inj h).2.symm
  · cases h

/-- What no decision changes. -/
structure Leaves (d d' : Desk σ) : Prop where
  agenda : d'.agenda = d.agenda
  outside : d'.outside = d.outside
  automaton : d'.engine.automaton = d.engine.automaton
  maxSteps : d'.engine.maxSteps = d.engine.maxSteps
  inFlight : d'.engine.inFlight = d.engine.inFlight
  draining : d'.engine.draining = d.engine.draining
  pending : d'.engine.pending = d.engine.pending
  generation : d'.engine.generation = d.engine.generation

theorem leaves_decide (d : Desk σ) : d.Leaves d.decide.2 := by
  rcases d.decide_cases with ⟨-, hdecide⟩ | ⟨-, fault, hdecide⟩ | ⟨-, decision, log, -, hdecide⟩
  all_goals
    rw [hdecide]
    exact ⟨rfl, rfl, rfl, rfl, rfl, rfl, rfl, rfl⟩

/-- What a decision can be if it does not fail. -/
theorem decide_ok {ev : Event} {d' : Desk σ} (hd : d.engine.status.isTerminal = false)
    (h : d.decide = (.ok ev, d')) :
    ∃ decision log, d.engine.config.decision d.engine.automaton = .ok decision ∧
      ev = ⟨decision.transition?, (decision.after d.engine.config).snapshot, decision.status,
        d.engine.generation⟩ ∧
      d' = { d with
        engine := d.engine.moved decision.transition? (decision.after d.engine.config)
          decision.status
        log := log } := by
  rcases d.decide_cases with ⟨hterminal, -⟩ | ⟨-, fault, hdecide⟩ |
    ⟨-, decision, log, hdecision, hdecide⟩
  · exact absurd hterminal (by simp [hd])
  · rw [hdecide] at h
    cases h
  · rw [hdecide] at h
    obtain ⟨hev, rfl⟩ := Prod.mk.inj h
    exact ⟨decision, log, hdecision, (Except.ok.inj hev).symm, rfl⟩

/-- A decision of a run that has not ended is a step of the computation. -/
theorem exists_decide (h : d.engine.Records s) (hd : d.engine.status.isTerminal = false) :
    ∃ t c' s' log, Step d.engine.automaton d.engine.config t c' s' ∧
      d.decide = (.ok ⟨t, c'.snapshot, s', d.engine.generation⟩,
        { d with engine := d.engine.moved t c' s', log := log }) := by
  obtain ⟨decision, hdecision⟩ := exists_decision h.typed h.computation.cursor_nonneg
  obtain ⟨log, hlog⟩ := decide_of_decision hd hdecision
  exact ⟨_, _, _, log, step_of_decision h.typed h.computation.cursor_nonneg hdecision, hlog⟩

/-- The record of the engine is up to date, and `timed` says whether there are timers. -/
structure Recorded (timed : Bool) (d : Desk σ) : Prop where
  records : d.engine.Records d.engine.status
  agenda : d.agenda.isSome = timed

variable {timed : Bool} {d' : Desk σ}

/-- A run that begins has the status of a running one before its first step. -/
theorem recorded_decide (h : d.engine.Records s) (hs : s.isTerminal = false)
    (hd : d.engine.status.isTerminal = false) (hagenda : d.agenda.isSome = timed) :
    ∃ ev d', d.decide = (.ok ev, d') ∧ d'.Recorded timed := by
  obtain ⟨t, c', s', log, hstep, hdecide⟩ := exists_decide h hd
  exact ⟨_, _, hdecide, h.moved hs hstep, hagenda⟩

/-- A recorded desk decides without a fault, and its record goes on. -/
theorem Recorded.decide (h : d.Recorded timed) :
    ∃ ev d', d.decide = (.ok ev, d') ∧ d'.Recorded timed := by
  cases hs : d.engine.status.isTerminal with
  | true => exact ⟨_, d, decide_of_terminal hs, h⟩
  | false => exact recorded_decide h.records hs hs h.agenda

theorem Recorded.sameRun (h : d.Recorded timed) (hrun : d.SameRun d') : d'.Recorded timed := by
  refine ⟨?_, hrun.agenda.trans h.agenda⟩
  rw [hrun.status]
  exact h.records.sameRun hrun.engine

/-- The record of a new run is that of its start. -/
theorem recorded_reset (ha : d.engine.automaton.Typed) (hagenda : d.agenda.isSome = timed)
    (input : Option Text) : (d.reset input).Recorded timed :=
  ⟨Engine.records_start ha rfl rfl rfl rfl, d.isSome_agenda_cancelPending.trans hagenda⟩

/-- The record of a loaded automaton is that of its start. -/
theorem Recorded.load (h : d.Recorded timed) {a : Automaton} {input : Option Text} (ha : a.Typed)
    (hl : d.load a input = .ok d') : d'.Recorded timed := by
  obtain ⟨-, rfl⟩ := load_ok hl
  exact recorded_reset (d := { d with engine := { d.engine with automaton := a } }) ha h.agenda
    input

end Desk

/-! ## Every call keeps the record -/

namespace Control

open Desk

variable {σ α β : Type} {raising timed : Bool} {d d' : Desk σ} {notify : Notify σ} {s : Status}

/-- However a call ends, the record is up to date; and if nobody raises a fault, the call fails only
without timers, because its allowance is used up. -/
structure Sound (raising timed : Bool) (p : Except Fault α × Desk σ) : Prop where
  recorded : p.2.Recorded timed
  fault : ∀ fault, p.1 = .error fault → raising = true ∨ fault = .exhausted ∧ timed = false

/-- The computation leads from a desk with an up-to-date record to one. -/
def Keeps (raising timed : Bool) (x : Control σ α) : Prop :=
  ∀ d, d.Recorded timed → Sound raising timed (exec x d)

theorem sound_ok (h : d.Recorded timed) (a : α) : Sound raising timed (.ok a, d) :=
  ⟨h, nofun⟩

/-- What a call leaves is as sound as any state of the same run. -/
theorem Sound.sameRun {r : Except Fault α} (h : Sound raising timed (r, d))
    (hrun : d.SameRun d') : Sound raising timed (r, d') :=
  ⟨h.recorded.sameRun hrun, h.fault⟩

/-- A fault leaves the same state whatever was to be returned. -/
theorem Sound.error {fault : Fault} (h : Sound raising timed ((.error fault : Except Fault α), d)) :
    Sound raising timed ((.error fault : Except Fault β), d) := by
  refine ⟨h.recorded, fun fault' hfault => h.fault fault' ?_⟩
  rw [Except.error.inj hfault]

/-- The result does not matter for what a call leaves. -/
theorem Sound.map {p : Except Fault α × Desk σ} (h : Sound raising timed p) (g : α → β) :
    Sound raising timed (p.1.map g, p.2) := by
  rcases p with ⟨fault | a, d⟩
  · exact h.error
  · exact sound_ok h.recorded (g a)

/-- Sound calls one after the other are sound. -/
theorem Sound.bind {x : Control σ α} {f : α → Control σ β} (hx : Sound raising timed (exec x d))
    (hf : ∀ a, Keeps raising timed (f a)) : Sound raising timed (exec (x >>= f) d) := by
  rw [exec_bind]
  rcases hr : exec x d with ⟨fault | a, d'⟩
  · rw [hr] at hx
    exact hx.error
  · rw [hr] at hx
    exact hf a d' hx.recorded

/-- A step from a recorded desk is sound if the listeners are. -/
theorem sound_advance (hn : ∀ ev, Keeps raising timed (notify ev))
    (h : ∃ ev d', d.decide = (.ok ev, d') ∧ d'.Recorded timed) :
    Sound raising timed (exec (advance notify) d) := by
  obtain ⟨ev, d₁, hdecide, hd₁⟩ := h
  have htold := hn ev _ (hd₁.sameRun (d₁.sameRun_launch ev))
  rw [exec_advance, hdecide]
  simp only
  rcases htell : exec (notify ev) (d₁.launch ev) with ⟨fault | _, d₂⟩
  · rw [htell] at htold
    exact htold.error
  · rw [htell] at htold
    exact (sound_ok htold.recorded ev).sameRun d₂.sameRun_goOn

/-- Every round of the loop keeps the record, whether or not the allowance is enough. -/
theorem keeps_drainLoop (hn : ∀ ev, Keeps raising false (notify ev)) :
    ∀ allowance, Keeps raising false (drainLoop notify allowance)
  | 0, _, h => ⟨h, fun _ hfault => Or.inr ⟨(Except.error.inj hfault).symm, rfl⟩⟩
  | allowance + 1, d, h => by
    rw [exec_drainLoop_succ]
    split
    · split
      · exact (sound_ok h ()).sameRun d.sameRun_observeLimit
      · exact (sound_advance hn h.decide).bind fun _ => keeps_drainLoop hn allowance
    · exact sound_ok h ()

theorem keeps_drain (hn : ∀ ev, Keeps raising false (notify ev)) (allowance : Nat) :
    Keeps raising false (drain notify allowance) := by
  intro d h
  have hloop := keeps_drainLoop hn allowance (d.drains true) (h.sameRun (d.sameRun_drains true))
  rw [exec_drain]
  exact hloop.sameRun (sameRun_drains _ false)

/-- A step by hand keeps the record. -/
theorem keeps_step (hn : ∀ ev, Keeps raising timed (notify ev)) :
    Keeps raising timed (step notify) := by
  intro d h
  rw [exec_step]
  split
  · exact (sound_ok h none).sameRun (d.sameRun_note _)
  · split
    · exact sound_ok h none
    · exact (sound_advance hn (h.sameRun d.sameRun_pause).decide).map some

/-- The loop of a run that begins makes its first step, since the limit is not reached. -/
theorem exec_drainLoop_begun (notify : Notify σ) (allowance : Nat)
    (hflight : d.engine.inFlight = false) (hlimit : d.engine.atLimit = false) :
    exec (drainLoop notify (allowance + 1)) (d.begun.drains true) =
      exec (advance notify >>= fun _ => drainLoop notify allowance) (d.begun.drains true) := by
  have hgo : (d.begun.drains true).engine.inFlight = false := hflight
  have hgo' : (d.begun.drains true).engine.atLimit = false := hlimit
  rw [exec_drainLoop_succ, hgo, hgo']
  rfl

/-- An automatic run keeps the record. -/
theorem keeps_run (hn : ∀ ev, Keeps raising timed (notify ev)) (allowance : Nat) :
    Keeps raising timed (run notify (allowance + 1)) := by
  intro d h
  rw [exec_run]
  split
  · exact sound_ok h false
  · split
    · exact (sound_ok h false).sameRun d.sameRun_observeLimit
    case isFalse hidle hlimit =>
      simp only [Bool.or_eq_true, not_or, Bool.not_eq_true] at hidle hlimit
      have hbegun : d.begun.engine.Records d.engine.status := h.records.sameRun rfl
      have hdrains : (d.begun.drains true).engine.Records d.engine.status := h.records.sameRun rfl
      split
      case isTrue hnone =>
        obtain rfl : timed = false := by rw [← h.agenda, Option.isNone_iff_eq_none.1 hnone]; rfl
        have hfirst := recorded_decide hdrains hidle.2 rfl h.agenda
        have hloop := (sound_advance hn hfirst).bind fun _ => keeps_drainLoop hn allowance
        rw [← exec_drainLoop_begun notify allowance hidle.1.1 hlimit] at hloop
        rw [exec_drain]
        exact (hloop.map fun _ => true).sameRun (sameRun_drains _ false)
      case isFalse =>
        have hfirst := recorded_decide hbegun hidle.2 rfl h.agenda
        exact (sound_advance hn hfirst).map _

/-- A confirmation keeps the record. -/
theorem keeps_acknowledge (hn : ∀ ev, Keeps raising timed (notify ev)) (allowance : Nat)
    (generation : Option Int) : Keeps raising timed (acknowledge notify allowance generation) := by
  intro d h
  have hconfirmed : d.confirmed.Recorded timed := h.sameRun d.sameRun_confirmed
  rw [exec_acknowledge]
  split
  · exact sound_ok h ()
  · split
    · exact (sound_ok h ()).sameRun (d.sameRun_note _)
    · split
      · exact sound_ok hconfirmed ()
      · split
        case isTrue hnone =>
          obtain rfl : timed = false := by rw [← h.agenda, Option.isNone_iff_eq_none.1 hnone]; rfl
          exact keeps_drain hn allowance _ hconfirmed
        case isFalse => exact (sound_ok hconfirmed ()).sameRun (sameRun_scheduleNext _)

/-- A continuation keeps the record, a stale one too. -/
theorem keeps_resume (hn : ∀ ev, Keeps raising timed (notify ev)) (generation : Nat) :
    Keeps raising timed (resume notify generation) := by
  intro d h
  have hwoken : d.woken.Recorded timed := h.sameRun d.sameRun_woken
  rw [exec_resume]
  split
  · exact sound_ok hwoken ()
  · exact (sound_advance hn hwoken.decide).map _

/-- A timer that is due keeps the record. -/
theorem keeps_fire (hn : ∀ ev, Keeps raising timed (notify ev)) (handle : Option Nat) :
    Keeps raising timed (fire notify handle) := by
  intro d h
  rw [exec_fire]
  split
  · exact sound_ok h none
  case h_2 j _ =>
    have helapsed : (d.elapsed j).Recorded timed := h.sameRun (d.sameRun_elapsed j)
    refine Sound.map ?_ _
    rw [exec_due]
    split
    · exact keeps_resume hn _ (d.elapsed j) helapsed
    · exact sound_ok helapsed ()

/-- Loading keeps the record, also if it is refused and the refusal handled. -/
theorem keeps_tryLoad {a : Automaton} (input : Option Text) {handle : Fault → Control σ Unit}
    (ha : a.Typed) (hh : ∀ fault, Keeps raising timed (handle fault)) :
    Keeps raising timed (tryCatch (load a input) handle) := by
  intro d h
  rw [exec_tryCatch, exec_load]
  rcases hl : d.load a input with fault | d'
  · exact hh fault d h
  · exact sound_ok (h.load ha hl) ()

/-- Every program keeps the record, by induction on how it is put together. -/
theorem Play.keeps {x : Control σ α} (h : Play raising x) : Keeps raising timed x := by
  induction h with
  | ret a => exact fun d hd => sound_ok hd a
  | bind _ _ ihx ihf => exact fun d hd => (ihx d hd).bind ihf
  | fail fault hraising => exact fun d hd => ⟨hd, fun _ _ => Or.inl hraising⟩
  | @attempt _ x handle hraising _ _ ihx ihh =>
    intro d hd
    have hx := ihx d hd
    rw [exec_tryCatch]
    rcases hr : exec x d with ⟨fault | a, d'⟩
    · rw [hr] at hx
      exact ihh fault d' hx.recorded
    · rwa [hr] at hx
  | look => exact fun d hd => sound_ok hd d
  | keep => exact fun d hd => (sound_ok hd ()).sameRun ⟨rfl, rfl, rfl⟩
  | log entries => exact fun d hd => (sound_ok hd ()).sameRun (d.sameRun_note entries)
  | decide =>
    intro d hd
    obtain ⟨ev, d', hdecide, hd'⟩ := hd.decide
    rw [exec_decide, hdecide]
    exact sound_ok hd' ev
  | step _ ih => exact keeps_step ih
  | run allowance _ ih => exact keeps_run ih allowance
  | pause => exact fun d hd => (sound_ok hd ()).sameRun d.sameRun_pause
  | reset input => exact fun d hd => sound_ok (recorded_reset hd.records.typed hd.agenda input) ()
  | acknowledge allowance generation _ ih => exact keeps_acknowledge ih allowance generation
  | @load a input hraising ha =>
    intro d hd
    rw [exec_load]
    rcases hl : d.load a input with fault | d'
    · exact ⟨hd, fun _ _ => Or.inl hraising⟩
    · exact sound_ok (hd.load ha hl) ()
  | tryLoad input ha _ ih => exact keeps_tryLoad input ha ih
  | fire handle _ ih => exact keeps_fire ih handle

end Control

/-! ## An engine follows the computation -/

/-- What an engine shows is the beginning of the computation of its automaton on its input that has
as many events as its history. -/
structure Engine.Follows (e : Engine) : Prop where
  computation : Computation e.automaton e.input e.generation e.history.toList e.config e.status
  only : ∀ {es c s}, Computation e.automaton e.input e.generation es c s →
    es.length = e.history.size → es = e.history.toList ∧ c = e.config ∧ s = e.status
  generation : ∀ ev ∈ e.history.toList, ev.generation = e.generation
  ready : e.status = .ready ↔ e.history.size = 0
  status : ∀ ev, e.history.toList.getLast? = some ev → e.status = ev.status
  steps : e.steps = Computation.transitions e.history.toList
  consumed : e.consumed = Engine.reach e.automaton.formalism e.history.toList e.config

/-- An engine with a record follows its computation. -/
theorem Engine.Records.follows {e : Engine} (h : e.Records e.status) : e.Follows where
  computation := h.computation
  only h' hlen := h'.unique h.typed h.computation (by simpa using hlen)
  generation := h.computation.generation_eq
  ready := by rw [h.computation.ready_iff]; simp
  status ev hev := (h.computation.status_eq_of_getLast? hev).symm
  steps := h.steps
  consumed := h.consumed

/-- A new desk has the record of its start. -/
theorem Desk.recorded_start {σ : Type} {a : Automaton} {w : Text} {delay : Int} {manualAck : Bool}
    {maxSteps : Option Int} {agenda : Option Agenda} {owner : Nat} {outside : σ} {d : Desk σ}
    (ha : a.Typed)
    (hd : Desk.start a w delay manualAck maxSteps agenda owner outside = .ok d) :
    d.Recorded agenda.isSome := by
  obtain ⟨-, rfl⟩ := Desk.start_ok hd
  exact ⟨Engine.records_start ha rfl rfl rfl rfl, rfl⟩

open Control in
/-- However an engine is driven, with or without timers, whatever its listeners do, and whether the
calls fail or not, it follows the computation of the automaton that is loaded. -/
theorem follows_of_play {σ α : Type} {a : Automaton} {w : Text} {delay : Int} {manualAck : Bool}
    {maxSteps : Option Int} {agenda : Option Agenda} {owner : Nat} {outside : σ} {d : Desk σ}
    {raising : Bool} {call : Control σ α} (ha : a.Typed)
    (hd : Desk.start a w delay manualAck maxSteps agenda owner outside = .ok d)
    (hplay : Play raising call) : (exec call d).2.engine.Follows :=
  Engine.Records.follows (hplay.keeps d (Desk.recorded_start ha hd)).recorded.records

open Control in
/-- The listener confirms each step at once, the timer that is left when the run is given up is due
afterwards, and a step by hand follows. -/
theorem follows_of_play_evenA :
    let quiet : Notify Unit := fun _ => pure ()
    let call : Control Unit (Option Event) := do
      let _ ← run (fun _ => acknowledge quiet 0 none) 1
      reset (some "ab")
      let _ ← fire quiet none
      step quiet
    Catalog.evenA.automaton.Typed ∧ Play false call ∧
      ∃ d, Desk.start Catalog.evenA.automaton "aab" 200 true none (some (.empty false)) 0 () =
        .ok d ∧ (exec call d).2.engine.history.size = 1 ∧ (exec call d).2.engine.Follows := by
  intro quiet call
  have hquiet : ∀ ev, Play false (quiet ev) := fun _ => .ret ()
  have ha : Catalog.evenA.automaton.Typed := by decide
  have hplay : Play false call :=
    .bind (.run 0 fun _ => .acknowledge 0 none hquiet) fun _ =>
      .bind (.reset _) fun _ => .bind (.fire none hquiet) fun _ => .step hquiet
  exact ⟨ha, hplay, _, rfl, rfl, follows_of_play ha rfl hplay⟩

end AutomatonLab
