import AutomatonLab.Proofs.AutomaticRun
import AutomatonLab.Proofs.Verdict

/-!
# Automatic runs and decisions by hand

The limit is looked at before each step of a run without timers, and before a timer is asked for,
but not when the timer is due. So an automatic run is beyond its limit by one transition if a
decision that is made by hand reaches the limit while the run waits for its timer
(`limit_passed_evenA`).

Otherwise a run that waits for its timer is below the limit (`Desk.WithinLimit`), and so an
automatic run makes no transition at the limit or beyond, whatever is called in between
(`limit_kept`).
-/

namespace AutomatonLab

namespace Desk

variable {σ : Type} {d d' : Desk σ}

/-- An automatic run goes on when its timer is due. -/
structure AwaitsTimer (d : Desk σ) : Prop where
  agenda : d.agenda.isSome = true
  running : d.engine.running = true
  inFlight : d.engine.inFlight = false

/-- What holds between two calls : a run that waits for its timer is below the limit. No timer is
pending while a step is in flight or no automatic run goes on, and none without an agenda. -/
structure WithinLimit (d : Desk σ) : Prop where
  below : d.AwaitsTimer → d.engine.atLimit = false
  inFlight : d.engine.inFlight = true → d.engine.pending = none
  paused : d.engine.running = false → d.engine.status.isTerminal = false → d.engine.pending = none
  untimed : d.agenda = none → d.engine.pending = none
  draining : d.engine.draining = true → d.agenda = none
  stopped : d.Stopped

/-- No timer is pending. Besides, the loop that makes all steps at once is active only without
timers, and no automatic run goes on after the end. -/
structure Clear (d : Desk σ) : Prop where
  pending : d.engine.pending = none
  draining : d.engine.draining = true → d.agenda = none
  stopped : d.Stopped

theorem Clear.withinLimit (h : d.Clear) (hbelow : d.AwaitsTimer → d.engine.atLimit = false) :
    d.WithinLimit :=
  ⟨hbelow, fun _ => h.pending, fun _ _ => h.pending, fun _ => h.pending, h.draining, h.stopped⟩

theorem withinLimit_of_idle (hrunning : d.engine.running = false) (hp : d.engine.pending = none)
    (hdraining : d.engine.draining = true → d.agenda = none) : d.WithinLimit :=
  Clear.withinLimit ⟨hp, hdraining, fun _ => hrunning⟩ fun h =>
    absurd h.running (by simp [hrunning])

theorem WithinLimit.clear (h : d.WithinLimit) (hp : d.engine.pending = none) : d.Clear :=
  ⟨hp, h.draining, h.stopped⟩

theorem withinLimit_start {a : Automaton} {w : Text} {delay : Int} {manualAck : Bool}
    {maxSteps : Option Int} {agenda : Option Agenda} {owner : Nat} {outside : σ}
    (hd : start a w delay manualAck maxSteps agenda owner outside = .ok d) : d.WithinLimit := by
  obtain ⟨-, rfl⟩ := start_ok hd
  exact withinLimit_of_idle rfl rfl nofun

theorem agenda_eq_none_iff (h : d'.agenda.isSome = d.agenda.isSome) :
    d'.agenda = none ↔ d.agenda = none := by
  rw [← Option.not_isSome_iff_eq_none, ← Option.not_isSome_iff_eq_none, h]

theorem withinLimit_note (h : d.WithinLimit) (entries : List LogEntry) :
    (d.note entries).WithinLimit :=
  ⟨fun ⟨ha, hr, hf⟩ => h.below ⟨ha, hr, hf⟩, h.inFlight, h.paused, h.untimed, h.draining, h.stopped⟩

/-- A pause keeps the run within its limit. -/
theorem withinLimit_pause (h : d.WithinLimit) : d.pause.WithinLimit :=
  withinLimit_of_idle rfl rfl fun hdraining =>
    (agenda_eq_none_iff (isSome_agenda_cancelPending _)).2 (h.draining hdraining)

/-- A new run is within its limit. -/
theorem withinLimit_loaded (h : d.WithinLimit) (a : Automaton) (input : Option Text) :
    (d.loaded a input).WithinLimit :=
  withinLimit_of_idle rfl rfl fun hdraining =>
    (agenda_eq_none_iff (isSome_agenda_cancelPending _)).2 (h.draining hdraining)

/-- A decision keeps the run within its limit, unless a timer comes at the limit. -/
theorem withinLimit_decide (h : d.WithinLimit)
    (hunless : d.AwaitsTimer → d.decide.2.engine.atLimit = false) : d.decide.2.WithinLimit := by
  have hstopped := stopped_decide h.stopped
  rcases d.decide_cases with ⟨-, hdecide⟩ | ⟨hs, fault, hdecide⟩ | ⟨hs, decision, log, -, hdecide⟩
  · rwa [hdecide]
  · rw [hdecide] at hstopped ⊢
    exact ⟨fun ⟨ha, hr, hf⟩ => h.below ⟨ha, hr, hf⟩, h.inFlight, fun hr _ => h.paused hr hs,
      h.untimed, h.draining, hstopped⟩
  · rw [hdecide] at hstopped hunless ⊢
    refine ⟨fun ⟨ha, hr, hf⟩ => hunless ⟨ha, ?_, hf⟩, h.inFlight, fun hr hs' => ?_, h.untimed,
      h.draining, hstopped⟩
    · exact (Bool.and_eq_true_iff.1 hr).1
    · refine h.paused ?_ hs
      have hs'' : decision.status.isTerminal = false := hs'
      simpa [Engine.moved, hs''] using hr

theorem withinLimit_observeLimit (h : d.Clear) (hlimit : d.engine.atLimit = true) :
    d.observeLimit.WithinLimit := by
  rw [observeLimit, hlimit]
  exact withinLimit_of_idle rfl h.pending h.draining

/-- A run asks for its timer only below the limit. -/
theorem withinLimit_scheduleNext (h : d.Clear) (hflight : d.engine.inFlight = false) :
    d.scheduleNext.WithinLimit := by
  unfold scheduleNext
  split
  case h_1 hg => exact h.withinLimit fun hwaits => absurd hwaits.agenda (by simp [hg])
  case h_2 g hg =>
    split
    case isTrue hstop =>
      refine h.withinLimit fun hwaits => ?_
      have hs : d.engine.status.isTerminal = true := by
        simpa [h.pending, hwaits.running] using hstop
      exact absurd hwaits.running (by simp [h.stopped hs])
    case isFalse hgo =>
      simp only [Bool.or_eq_true, not_or, Bool.not_eq_true] at hgo
      have hrunning : d.engine.running = true := by simpa using hgo.1.2
      have htimed : d.engine.draining ≠ true := fun hd => by simp [h.draining hd] at hg
      split
      case isTrue hlimit => exact withinLimit_observeLimit h hlimit
      case isFalse hlimit =>
        refine ⟨fun _ => Bool.eq_false_iff.2 hlimit, fun hf => ?_, fun hr => ?_, fun hnone => ?_,
          fun hd => absurd hd htimed, h.stopped⟩
        · exact absurd hf (by simp [askTimer, hflight])
        · exact absurd hr (by simp [askTimer, hrunning])
        · exact absurd hnone (by simp [askTimer])

/-- A run that goes on looks at its limit first. -/
theorem withinLimit_goOn (h : d.Clear) : d.goOn.WithinLimit := by
  unfold goOn
  split
  case isTrue hgo =>
    simp only [Bool.and_eq_true, Bool.not_eq_true'] at hgo
    exact withinLimit_scheduleNext h hgo.2
  case isFalse hstay =>
    refine h.withinLimit fun hwaits => absurd ?_ hstay
    rw [hwaits.running, hwaits.inFlight]
    rfl

theorem clear_decide (h : d.Clear) : d.decide.2.Clear := by
  have hleaves := d.leaves_decide
  refine ⟨hleaves.pending.trans h.pending, ?_, stopped_decide h.stopped⟩
  rw [hleaves.draining, hleaves.agenda]
  exact h.draining

theorem exists_launch_eq (d : Desk σ) (ev : Event) :
    ∃ b, d.launch ev = { d with engine := { d.engine with inFlight := b } } := by
  unfold launch
  split
  · exact ⟨true, rfl⟩
  · exact ⟨d.engine.inFlight, rfl⟩

end Desk

namespace Control

open Desk

variable {σ : Type} {d : Desk σ} {notify : Notify σ}

/-- A step of which a passive listener is told fails, or the run goes on, perhaps with the step in
flight. -/
theorem exec_advance_cases (hn : Passive notify) (d : Desk σ) :
    (∃ fault, exec (advance notify) d =
      (.error fault, { d with engine := { d.engine with status := .running } })) ∨
    ∃ ev b x, exec (advance notify) d = (.ok ev, Desk.goOn { d.decide.2 with
      engine := { d.decide.2.engine with inFlight := b }
      outside := x }) := by
  rw [exec_advance]
  rcases hdecide : d.decide with ⟨fault | ev, d₁⟩
  · rw [decide_error hdecide]
    exact Or.inl ⟨fault, rfl⟩
  · obtain ⟨x, htell⟩ := hn ev (d₁.launch ev)
    obtain ⟨b, hlaunch⟩ := d₁.exists_launch_eq ev
    rw [hlaunch] at htell
    simp only [hlaunch, htell]
    exact Or.inr ⟨ev, b, x, rfl⟩

/-- After a step, a run with timers asks for its timer. -/
theorem withinLimit_advance (hn : Passive notify) (h : d.Clear)
    (hbelow : d.AwaitsTimer → d.engine.atLimit = false) :
    (exec (advance notify) d).2.WithinLimit ∧
      (exec (advance notify) d).2.agenda.isSome = d.agenda.isSome := by
  rcases exec_advance_cases hn d with ⟨fault, hmade⟩ | ⟨ev, b, x, hmade⟩
  · rw [hmade]
    exact ⟨Clear.withinLimit ⟨h.pending, h.draining, nofun⟩ fun ⟨ha, hr, hf⟩ => hbelow ⟨ha, hr, hf⟩,
      rfl⟩
  · have hdecided := clear_decide h
    rw [hmade]
    refine ⟨withinLimit_goOn ⟨hdecided.pending, hdecided.draining, hdecided.stopped⟩, ?_⟩
    rw [(sameRun_goOn _).agenda]
    exact congrArg Option.isSome d.leaves_decide.agenda

/-- The loop of a run without timers. -/
theorem withinLimit_drainLoop (hn : Passive notify) :
    ∀ (allowance : Nat) (d : Desk σ), d.WithinLimit ∧ d.agenda = none →
      (exec (drainLoop notify allowance) d).2.WithinLimit ∧
        (exec (drainLoop notify allowance) d).2.agenda = none
  | 0, _, h => h
  | allowance + 1, d, ⟨h, hnone⟩ => by
    have hclear := h.clear (h.untimed hnone)
    rw [exec_drainLoop_succ]
    split
    case isFalse => exact ⟨h, hnone⟩
    case isTrue =>
      split
      case isTrue hlimit =>
        exact ⟨withinLimit_observeLimit hclear hlimit,
          (agenda_eq_none_iff d.sameRun_observeLimit.agenda).2 hnone⟩
      case isFalse =>
        obtain ⟨hmade, hsome⟩ := withinLimit_advance hn hclear h.below
        have hfirst : (exec (advance notify) d).2.WithinLimit ∧
            (exec (advance notify) d).2.agenda = none :=
          ⟨hmade, (agenda_eq_none_iff hsome).2 hnone⟩
        have hrest := withinLimit_drainLoop hn allowance
        exact holds_bind (P := fun d => d.WithinLimit ∧ d.agenda = none) hfirst fun _ => hrest

/-- A loop without timers looks at the limit in each round. -/
theorem withinLimit_drain (hn : Passive notify) (allowance : Nat) (h : d.WithinLimit)
    (hnone : d.agenda = none) : (exec (drain notify allowance) d).2.WithinLimit := by
  have hbegin : (d.drains true).WithinLimit :=
    Clear.withinLimit ⟨h.untimed hnone, fun _ => hnone, h.stopped⟩
      fun ⟨ha, hr, hf⟩ => h.below ⟨ha, hr, hf⟩
  obtain ⟨hloop, -⟩ := withinLimit_drainLoop hn allowance _ ⟨hbegin, hnone⟩
  rw [exec_drain]
  exact ⟨fun ⟨ha, hr, hf⟩ => hloop.below ⟨ha, hr, hf⟩, hloop.inFlight, hloop.paused, hloop.untimed,
    nofun, hloop.stopped⟩

/-! ## Every call of a passive audience -/

/-- A step by hand interrupts the automatic run, so that the limit is none of its concern. -/
theorem withinLimit_step (hn : Passive notify) (h : d.WithinLimit) :
    (exec (step notify) d).2.WithinLimit := by
  rw [exec_step]
  split
  · exact withinLimit_note h _
  · split
    · exact h
    · have hpaused := withinLimit_pause h
      exact (withinLimit_advance hn (hpaused.clear rfl) hpaused.below).1

/-- An automatic run does not begin beyond its limit. -/
theorem withinLimit_run (hn : Passive notify) (allowance : Nat) (h : d.WithinLimit) :
    (exec (run notify allowance) d).2.WithinLimit := by
  rw [exec_run]
  split
  case isTrue => exact h
  case isFalse hidle =>
    simp only [Bool.or_eq_true, not_or, Bool.not_eq_true] at hidle
    have hclear := h.clear (h.paused hidle.1.2 hidle.2)
    have hbegun : d.begun.Clear := ⟨hclear.pending, hclear.draining, nofun⟩
    split
    case isTrue hlimit => exact withinLimit_observeLimit hclear hlimit
    case isFalse hlimit =>
      have hbelow : d.begun.AwaitsTimer → d.begun.engine.atLimit = false :=
        fun _ => Bool.eq_false_iff.2 hlimit
      split
      case isTrue hnone =>
        exact withinLimit_drain hn allowance (hbegun.withinLimit hbelow)
          (Option.isNone_iff_eq_none.1 hnone)
      case isFalse => exact (withinLimit_advance hn hbegun hbelow).1

/-- A confirmation lets the run go on within its limit. -/
theorem withinLimit_acknowledge (hn : Passive notify) (allowance : Nat) (generation : Option Int)
    (h : d.WithinLimit) : (exec (acknowledge notify allowance generation) d).2.WithinLimit := by
  rw [exec_acknowledge]
  split
  case isTrue => exact h
  case isFalse hflight =>
    have hclear := h.clear (h.inFlight (by simpa using hflight))
    have hconfirmed : d.confirmed.Clear := ⟨hclear.pending, hclear.draining, hclear.stopped⟩
    split
    · exact withinLimit_note h _
    · split
      case isTrue hstay =>
        refine hconfirmed.withinLimit fun ⟨ha, hr, _⟩ => ?_
        have hr' : d.engine.running = true := hr
        have hdraining : d.engine.draining = true := by simpa [hr'] using hstay
        have ha' : d.agenda.isSome = true := ha
        simp [h.draining hdraining] at ha'
      case isFalse =>
        split
        case isTrue hnone =>
          have hnone' : d.confirmed.agenda = none := Option.isNone_iff_eq_none.1 hnone
          exact withinLimit_drain hn allowance
            (hconfirmed.withinLimit fun ⟨ha, _, _⟩ => by simp [hnone'] at ha) hnone'
        case isFalse => exact withinLimit_scheduleNext hconfirmed rfl

theorem withinLimit_elapsed (h : d.WithinLimit) (j : Job) : (d.elapsed j).WithinLimit := by
  have hnone := agenda_eq_none_iff (d.sameRun_elapsed j).agenda
  refine ⟨fun ⟨ha, hr, hf⟩ => h.below ⟨?_, hr, hf⟩, h.inFlight, h.paused,
    fun hg => h.untimed (hnone.1 hg), fun hd => hnone.2 (h.draining hd), h.stopped⟩
  rwa [← (d.sameRun_elapsed j).agenda]

/-- A timer that is due finds a run below its limit. -/
theorem withinLimit_fire (hn : Passive notify) (handle : Option Nat) (h : d.WithinLimit) :
    (exec (fire notify handle) d).2.WithinLimit := by
  rw [exec_fire]
  split
  case h_1 => exact h
  case h_2 j _ =>
    have helapsed := withinLimit_elapsed h j
    have hbelow : (d.elapsed j).woken.AwaitsTimer → (d.elapsed j).woken.engine.atLimit = false :=
      fun ⟨ha, hr, hf⟩ => helapsed.below ⟨ha, hr, hf⟩
    have hclear : (d.elapsed j).woken.Clear := ⟨rfl, helapsed.draining, helapsed.stopped⟩
    simp only [exec_due]
    split
    · rw [exec_resume]
      split
      · exact hclear.withinLimit hbelow
      · exact (withinLimit_advance hn hclear hbelow).1
    · exact helapsed

end Control

/-! ## Any number of calls -/

section Driven

open Control Desk

variable {σ : Type}

/-- The desks that calls lead to, from outside, if all listeners are passive, and as long as no
decision reaches the limit while an automatic run waits for its timer. -/
inductive Driven (d₀ : Desk σ) : Desk σ → Prop where
  | start : Driven d₀ d₀
  | step {d : Desk σ} {notify : Notify σ} : Driven d₀ d → Passive notify →
      Driven d₀ (exec (step notify) d).2
  | decide {d : Desk σ} : Driven d₀ d →
      (d.AwaitsTimer → d.decide.2.engine.atLimit = false) → Driven d₀ (exec Control.decide d).2
  | run {d : Desk σ} {notify : Notify σ} (allowance : Nat) : Driven d₀ d → Passive notify →
      Driven d₀ (exec (run notify allowance) d).2
  | pause {d : Desk σ} : Driven d₀ d → Driven d₀ (exec pause d).2
  | reset {d : Desk σ} (input : Option Text) : Driven d₀ d → Driven d₀ (exec (reset input) d).2
  | acknowledge {d : Desk σ} {notify : Notify σ} (allowance : Nat) (generation : Option Int) :
      Driven d₀ d → Passive notify →
      Driven d₀ (exec (acknowledge notify allowance generation) d).2
  | load {d : Desk σ} (a : Automaton) (input : Option Text) : Driven d₀ d →
      Driven d₀ (exec (load a input) d).2
  | fire {d : Desk σ} {notify : Notify σ} (handle : Option Nat) : Driven d₀ d → Passive notify →
      Driven d₀ (exec (fire notify handle) d).2

/-- The limit holds whatever moves have been made. -/
theorem Driven.withinLimit {d₀ d : Desk σ} (h₀ : d₀.WithinLimit) (h : Driven d₀ d) :
    d.WithinLimit := by
  induction h with
  | start => exact h₀
  | step _ hn ih => exact withinLimit_step hn ih
  | decide _ hunless ih => exact withinLimit_decide ih hunless
  | run allowance _ hn ih => exact withinLimit_run hn allowance ih
  | pause _ ih => exact withinLimit_pause ih
  | @reset d input _ ih => exact withinLimit_loaded ih d.engine.automaton input
  | acknowledge allowance generation _ hn ih =>
    exact withinLimit_acknowledge hn allowance generation ih
  | @load d a input _ ih =>
    rcases ha : a.validate with defect | ⟨⟩
    · rwa [exec_load_of_invalid ha]
    · rw [exec_load_of_valid ha]
      exact withinLimit_loaded ih a input
  | fire handle _ hn ih => exact withinLimit_fire hn handle ih

end Driven

/-! ## No automatic transition at the limit -/

namespace Desk

open Control

variable {σ : Type} {d d' d'' : Desk σ}

/-- From the desk `d`, the number of transitions does not grow beyond the limit, or not at all if it
has reached the limit already. -/
structure Heeds (d d' : Desk σ) : Prop where
  maxSteps : d'.engine.maxSteps = d.engine.maxSteps
  steps : ∀ N, d.engine.maxSteps = some N → (d'.engine.steps : Int) ≤ max (d.engine.steps : Int) N

/-- What heeds the limit twice heeds it. -/
theorem Heeds.trans (h : Heeds d d') (h' : Heeds d' d'') : Heeds d d'' where
  maxSteps := h'.maxSteps.trans h.maxSteps
  steps N hN := by
    have hle := h.steps N hN
    have hle' := h'.steps N (h.maxSteps.trans hN)
    omega

theorem heeds_of_sameRun (h : d.engine.SameRun d'.engine) : Heeds d d' := by
  refine ⟨by rw [h], fun N _ => ?_⟩
  rw [h]
  exact Int.le_max_left _ _

/-- A decision below the limit makes at most the last transition that is allowed. -/
theorem heeds_decide (hlimit : d.engine.atLimit = false) : Heeds d d.decide.2 := by
  rcases d.decide_cases with ⟨-, hdecide⟩ | ⟨-, fault, hdecide⟩ | ⟨-, decision, log, -, hdecide⟩
  · rw [hdecide]
    exact heeds_of_sameRun rfl
  · rw [hdecide]
    exact heeds_of_sameRun rfl
  · rw [hdecide]
    refine ⟨rfl, fun N hN => ?_⟩
    have hlt : ¬N ≤ (d.engine.steps : Int) := by simpa [Engine.atLimit, hN] using hlimit
    simp only [Engine.moved]
    split <;> omega

end Desk

namespace Control

open Desk

variable {σ : Type} {d : Desk σ} {notify : Notify σ}

/-- A step below the limit passes it by nothing. -/
theorem heeds_advance (hn : Passive notify) (hlimit : d.engine.atLimit = false) :
    d.Heeds (exec (advance notify) d).2 := by
  rcases exec_advance_cases hn d with ⟨fault, hmade⟩ | ⟨ev, b, x, hmade⟩
  · rw [hmade]
    exact heeds_of_sameRun rfl
  · rw [hmade]
    refine (heeds_decide hlimit).trans ?_
    exact (heeds_of_sameRun rfl).trans (heeds_of_sameRun (sameRun_goOn _).engine)

/-- The loop looks at the limit before each step. -/
theorem heeds_drainLoop (hn : Passive notify) :
    ∀ (allowance : Nat) (d : Desk σ), d.Heeds (exec (drainLoop notify allowance) d).2
  | 0, _ => heeds_of_sameRun rfl
  | allowance + 1, d => by
    rw [exec_drainLoop_succ]
    split
    · split
      case isTrue => exact heeds_of_sameRun d.sameRun_observeLimit.engine
      case isFalse hlimit =>
        exact holds_bind (heeds_advance hn (Bool.eq_false_iff.2 hlimit)) fun _ d₁ hmade =>
          hmade.trans (heeds_drainLoop hn allowance d₁)
    · exact heeds_of_sameRun rfl

theorem heeds_drain (hn : Passive notify) (allowance : Nat) (d : Desk σ) :
    d.Heeds (exec (drain notify allowance) d).2 := by
  have hbegin : d.Heeds (d.drains true) := heeds_of_sameRun rfl
  have hend : ∀ d' : Desk σ, d'.Heeds (d'.drains false) := fun _ => heeds_of_sameRun rfl
  rw [exec_drain]
  exact (hbegin.trans (heeds_drainLoop hn allowance (d.drains true))).trans (hend _)

/-- An automatic run heeds the limit. -/
theorem heeds_run (hn : Passive notify) (allowance : Nat) (d : Desk σ) :
    d.Heeds (exec (run notify allowance) d).2 := by
  rw [exec_run]
  split
  · exact heeds_of_sameRun rfl
  · split
    case isTrue => exact heeds_of_sameRun d.sameRun_observeLimit.engine
    case isFalse hlimit =>
      have hbegun : d.Heeds d.begun := heeds_of_sameRun rfl
      split
      · exact hbegun.trans (heeds_drain hn allowance d.begun)
      · exact hbegun.trans (heeds_advance (d := d.begun) hn (Bool.eq_false_iff.2 hlimit))

/-- A confirmation heeds the limit. -/
theorem heeds_acknowledge (hn : Passive notify) (allowance : Nat) (generation : Option Int)
    (d : Desk σ) : d.Heeds (exec (acknowledge notify allowance generation) d).2 := by
  have hconfirmed : d.Heeds d.confirmed := heeds_of_sameRun rfl
  rw [exec_acknowledge]
  split
  · exact heeds_of_sameRun rfl
  · split
    · exact heeds_of_sameRun rfl
    · split
      · exact hconfirmed
      · split
        · exact hconfirmed.trans (heeds_drain hn allowance d.confirmed)
        · exact hconfirmed.trans (heeds_of_sameRun (sameRun_scheduleNext _).engine)

/-- A timer that is due makes a step if the run still waits for it, and then the run is below the
limit. -/
theorem heeds_fire (hn : Passive notify) (handle : Option Nat) (h : d.WithinLimit) :
    d.Heeds (exec (fire notify handle) d).2 := by
  rw [exec_fire]
  split
  case h_1 => exact heeds_of_sameRun rfl
  case h_2 j hj =>
    have hwoken : d.Heeds (d.elapsed j).woken := heeds_of_sameRun rfl
    simp only [exec_due]
    split
    · rw [exec_resume]
      split
      case isTrue => exact hwoken
      case isFalse hgo =>
        simp only [Bool.or_eq_true, not_or, Bool.not_eq_true, Bool.not_eq_false'] at hgo
        obtain ⟨g, hg, -⟩ := Option.bind_eq_some_iff.1 hj
        have hlimit := h.below ⟨by rw [hg]; rfl, hgo.1.2, hgo.2⟩
        exact hwoken.trans (heeds_advance (d := (d.elapsed j).woken) hn hlimit)
    · exact heeds_of_sameRun rfl

end Control

open Control in
/-- As long as no decision by hand reaches the limit while an automatic run waits for its timer,
whatever else is called and however late the timers are due : an automatic run makes no transition
at its limit or beyond. -/
theorem limit_kept {σ : Type} {a : Automaton} {w : Text} {delay : Int} {manualAck : Bool}
    {maxSteps : Option Int} {agenda : Option Agenda} {owner : Nat} {outside : σ} {d₀ d : Desk σ}
    {notify : Notify σ}
    (hd : Desk.start a w delay manualAck maxSteps agenda owner outside = .ok d₀)
    (hdriven : Driven d₀ d) (hn : Passive notify) :
    (∀ allowance, d.Heeds (exec (run notify allowance) d).2) ∧
    (∀ allowance generation, d.Heeds (exec (acknowledge notify allowance generation) d).2) ∧
    ∀ handle, d.Heeds (exec (fire notify handle) d).2 := by
  have h := hdriven.withinLimit (Desk.withinLimit_start hd)
  exact ⟨fun allowance => heeds_run hn allowance d,
    fun allowance generation => heeds_acknowledge hn allowance generation d,
    fun handle => heeds_fire hn handle h⟩

open Control in
/-- The decision is made while the run waits, but only the timer reaches the limit, and it is the
last one. -/
theorem limit_kept_evenA :
    let quiet : Notify Unit := fun _ => pure ()
    ∃ d₀, Desk.start Catalog.evenA.automaton "bbbb" 200 false (some 3) (some (.empty false)) 0 () =
        .ok d₀ ∧
      let waiting := (exec (run quiet 1) d₀).2
      let d := (exec (fire quiet none) (exec Control.decide waiting).2).2
      waiting.AwaitsTimer ∧ Driven d₀ d ∧ d.engine.steps = 3 ∧
        d.Heeds (exec (run quiet 1) d).2 ∧ d.Heeds (exec (fire quiet none) d).2 := by
  intro quiet
  have hquiet : Passive quiet := fun _ d => ⟨d.outside, rfl⟩
  obtain ⟨d₀, hd⟩ : ∃ d₀, Desk.start Catalog.evenA.automaton "bbbb" 200 false (some 3)
      (some (.empty false)) 0 () = .ok d₀ := ⟨_, rfl⟩
  refine ⟨d₀, hd, ?_⟩
  intro waiting d
  have hunless : waiting.decide.2.engine.atLimit = false := by
    cases hd
    rfl
  have hdriven : Driven d₀ d :=
    .fire none (.decide (.run 1 .start hquiet) fun _ => hunless) hquiet
  obtain ⟨hrun, -, hfire⟩ := limit_kept hd hdriven hquiet
  cases hd
  exact ⟨⟨rfl, rfl, rfl⟩, hdriven, rfl, hrun 1, hfire none⟩

open Control in
/-- The decision reaches the limit while the run waits for its timer, and then the timer is due. -/
theorem limit_passed_evenA :
    let quiet : Notify Unit := fun _ => pure ()
    ∃ d₀, Desk.start Catalog.evenA.automaton "bbbb" 200 false (some 2) (some (.empty true)) 0 () =
        .ok d₀ ∧
      let d := (exec Control.decide (exec (run quiet 1) d₀).2).2
      d.engine.atLimit = true ∧ d.engine.steps = 2 ∧
        (exec (fire quiet none) d).2.engine.steps = 3 ∧ ¬d.Heeds (exec (fire quiet none) d).2 := by
  intro quiet
  obtain ⟨d₀, hd⟩ : ∃ d₀, Desk.start Catalog.evenA.automaton "bbbb" 200 false (some 2)
      (some (.empty true)) 0 () = .ok d₀ := ⟨_, rfl⟩
  refine ⟨d₀, hd, ?_⟩
  cases hd
  exact ⟨rfl, rfl, rfl, fun h => absurd (h.steps 2 rfl) (by decide)⟩

end AutomatonLab
