import AutomatonLab.Proofs.Continuation

/-!
# When a listener raises a fault

A fault that a listener raises leaves the call in its middle. The timers stay in order, and the loop
that makes all steps at once is over (`Control.Play.weathers`). But an automatic run that was about
to make its next step, or to ask for its timer, is still going on with nothing to continue it, and
no other run begins until it is given up (`continuation_lost_evenA`).

Nothing else leaves a run like that. A call that returns has seen to the continuation
(`Control.Uncaught.upholds`). A call that fails leaves the confirmation of its step to be waited
for, if steps have to be confirmed and the listeners leave the engine alone
(`Control.Aloof.covered`). So an automatic run has something that continues it, unless a call has
failed since it began (`continued_of_exposed`).
-/

namespace AutomatonLab

namespace Desk

variable {σ : Type} {d d' : Desk σ}

/-- What a call makes of the desk `d` however it ends. -/
structure Spared (d d' : Desk σ) : Prop where
  orderly : d'.Orderly
  agenda : d'.agenda.isSome = d.agenda.isSome
  draining : d'.engine.draining = true → d.engine.draining = true

/-- What upholds the order spares it. -/
theorem Upheld.spared (h : Upheld d d') : Spared d d' :=
  ⟨h.orderly, h.agenda, h.draining⟩

/-- Two calls that spare the order do so together. -/
theorem Spared.trans {d'' : Desk σ} (h : Spared d d') (h' : Spared d' d'') : Spared d d'' :=
  ⟨h'.orderly, h'.agenda.trans h.agenda, h.draining ∘ h'.draining⟩

/-- A call begins with a change of the engine that leaves the timers. -/
theorem Spared.of_eq {d₁ : Desk σ} (h : Spared d₁ d') (hagenda : d₁.agenda = d.agenda)
    (hdraining : d₁.engine.draining = d.engine.draining) : Spared d d' :=
  ⟨h.orderly, h.agenda.trans (congrArg Option.isSome hagenda), hdraining ▸ h.draining⟩

/-- An automatic run, if one is going on, waits for a confirmation. -/
def Suspended (d : Desk σ) : Prop :=
  d.engine.running = true → d.engine.inFlight = true

/-- A suspended run needs no timer. -/
theorem Suspended.covered (h : d.Suspended) : d.Covered := fun hrunning => Or.inl (h hrunning)

theorem Suspended.goOn (h : d.Suspended) : d.goOn.Suspended := by
  rw [Desk.goOn, if_neg]
  · exact h
  · intro hgo
    simp only [Bool.and_eq_true, Bool.not_eq_true'] at hgo
    exact absurd (h hgo.1) (by simp [hgo.2])

/-- A run that has reached its limit is suspended. -/
theorem suspended_observeLimit (hlimit : d.engine.atLimit = true) : d.observeLimit.Suspended := by
  intro hrunning
  simp [observeLimit, hlimit, note] at hrunning

theorem spared_note (h : d.Orderly) (entries : List LogEntry) : Spared d (d.note entries) := by
  have hnote : Upheld d (d.note entries) := h.upheld_of_eq rfl rfl
  exact hnote.spared

/-- A decision spares the order, also if it fails. -/
theorem spared_decide (h : d.Orderly) : Spared d d.decide.2 := by
  rcases d.decide_cases with ⟨-, hdecide⟩ | ⟨hs, fault, hdecide⟩ | ⟨-, decision, log, -, hdecide⟩
  · rw [hdecide]
    exact h.upheld.spared
  · rw [hdecide]
    exact ⟨⟨h.jobs, h.cancels, fun _ => rfl, h.inFlight, fun hr _ => h.paused hr hs⟩, rfl, id⟩
  · have hdecided := (upheld_decide h hdecide).1.spared
    rwa [hdecide]

end Desk

namespace Control

open Desk

variable {σ α β : Type} {d d' : Desk σ} {notify : Notify σ}

/-- However the computation ends, the timers are in order as before. -/
def Weathers (x : Control σ α) : Prop :=
  ∀ d, d.Orderly → Spared d (exec x d).2

/-- A call with a known effect weathers a fault if the effect upholds the order. -/
theorem weathers_of_eq {x : Control σ α} {r : Desk σ → Except Fault α} {f : Desk σ → Desk σ}
    (hx : ∀ d, exec x d = (r d, f d)) (hf : ∀ d, d.Orderly → Upheld d (f d)) : Weathers x := by
  intro d h
  rw [hx]
  exact (hf d h).spared

/-- The second call begins where the first one has left off, unless that one has failed. -/
theorem weathers_bind {x : Control σ α} {f : α → Control σ β} (hx : Weathers x)
    (hf : ∀ a, Weathers (f a)) : Weathers (x >>= f) := fun d h =>
  holds_bind (hx d h) fun a _ hd' => hd'.trans (hf a _ hd'.orderly)

/-- What handles a fault begins where it was raised. -/
theorem weathers_tryCatch {x : Control σ α} {handle : Fault → Control σ α} (hx : Weathers x)
    (hh : ∀ fault, Weathers (handle fault)) : Weathers (tryCatch x handle) := by
  intro d h
  have hfirst := hx d h
  rw [exec_tryCatch]
  rcases hr : exec x d with ⟨fault | a, d'⟩
  · rw [hr] at hfirst
    exact hfirst.trans (hh fault d' hfirst.orderly)
  · rwa [hr] at hfirst

/-- A step spares the order, whether the decision or a listener fails. -/
theorem spared_advance (hn : ∀ ev, Weathers (notify ev)) (h : d.Orderly)
    (hp : d.engine.pending = none) : Spared d (exec (advance notify) d).2 := by
  have hdecided := spared_decide h
  have hp₁ := d.leaves_decide.pending
  rw [exec_advance]
  rcases hdecide : d.decide with ⟨fault | ev, d₁⟩
  · rwa [hdecide] at hdecided
  · rw [hdecide] at hdecided hp₁
    have hlaunched := (upheld_launch hdecided.orderly (hp₁.trans hp) ev).spared
    have htold := (hdecided.trans hlaunched).trans (hn ev _ hlaunched.orderly)
    simp only
    rcases htell : exec (notify ev) (d₁.launch ev) with ⟨fault | _, d₂⟩
    · rwa [htell] at htold
    · rw [htell] at htold
      exact htold.trans (upheld_goOn htold.orderly).1.spared

/-- Without timers none is waited for. -/
theorem pending_eq_none_of_untimed (h : d.Orderly) (hnone : d.agenda = none) :
    d.engine.pending = none := by
  simpa [Desk.jobs, hnone] using h.jobs

/-- A loop that breaks off leaves the order of a run without timers. -/
theorem weathers_drainLoop (hn : ∀ ev, Weathers (notify ev)) :
    ∀ allowance (d : Desk σ), d.Orderly ∧ d.agenda = none →
      (exec (drainLoop notify allowance) d).2.Orderly ∧
        (exec (drainLoop notify allowance) d).2.agenda = none
  | 0, _, h => h
  | allowance + 1, d, ⟨h, hnone⟩ => by
    have hp := pending_eq_none_of_untimed h hnone
    have huntimed {d' : Desk σ} (hd' : Spared d d') : d'.Orderly ∧ d'.agenda = none :=
      ⟨hd'.orderly, by simpa [hnone] using hd'.agenda⟩
    rw [exec_drainLoop_succ]
    split
    · split
      · exact huntimed (upheld_observeLimit h hp).spared
      · exact holds_bind (P := fun d : Desk σ => d.Orderly ∧ d.agenda = none)
          (huntimed (spared_advance hn h hp)) fun _ d' hd' => weathers_drainLoop hn allowance d' hd'
    · exact ⟨h, hnone⟩

/-- The mark of the loop is taken back, also if the loop breaks off. -/
theorem spared_drain (hn : ∀ ev, Weathers (notify ev)) (allowance : Nat) (h : d.Orderly)
    (hnone : d.agenda = none) : Spared d (exec (drain notify allowance) d).2 := by
  have hbegin : (d.drains true).Orderly :=
    ⟨h.jobs, fun g hg => by simp [drains, hnone] at hg, h.running, h.inFlight, h.paused⟩
  obtain ⟨ho, ha⟩ := weathers_drainLoop hn allowance (d.drains true) ⟨hbegin, hnone⟩
  rw [exec_drain]
  refine ⟨⟨ho.jobs, fun g hg => ⟨(ho.cancels g hg).1, rfl⟩, ho.running, ho.inFlight, ho.paused⟩,
    ?_, fun hdraining => absurd hdraining Bool.false_ne_true⟩
  exact (congrArg Option.isSome ha).trans (congrArg Option.isSome hnone).symm

/-- A step by hand weathers the faults that its listeners do. -/
theorem weathers_step (hn : ∀ ev, Weathers (notify ev)) : Weathers (step notify) := by
  intro d h
  rw [exec_step]
  split
  · exact spared_note h _
  · split
    · exact h.upheld.spared
    · have hpaused := upheld_pause h
      exact hpaused.spared.trans (spared_advance hn hpaused.orderly rfl)

/-- An automatic run weathers the faults that its listeners do. -/
theorem weathers_run (hn : ∀ ev, Weathers (notify ev)) (allowance : Nat) :
    Weathers (run notify allowance) := by
  intro d h
  rw [exec_run]
  split
  case isTrue => exact h.upheld.spared
  case isFalse hidle =>
    simp only [Bool.or_eq_true, not_or, Bool.not_eq_true] at hidle
    have hp : d.engine.pending = none := h.paused hidle.1.2 hidle.2
    split
    · exact (upheld_observeLimit h hp).spared
    · split
      case isTrue hnone =>
        have hnone' : d.begun.agenda = none := Option.isNone_iff_eq_none.1 hnone
        exact (spared_drain hn allowance h.begun hnone').of_eq rfl rfl
      case isFalse => exact (spared_advance hn h.begun hp).of_eq rfl rfl

/-- A confirmation weathers the faults that the listeners do, also where it lets the run go on. -/
theorem weathers_acknowledge (hn : ∀ ev, Weathers (notify ev)) (allowance : Nat)
    (generation : Option Int) : Weathers (acknowledge notify allowance generation) := by
  intro d h
  rw [exec_acknowledge]
  split
  · exact h.upheld.spared
  · split
    · exact spared_note h _
    · split
      · exact h.confirmed.upheld.spared.of_eq rfl rfl
      · split
        case isTrue hnone =>
          have hnone' : d.confirmed.agenda = none := Option.isNone_iff_eq_none.1 hnone
          exact (spared_drain hn allowance h.confirmed hnone').of_eq rfl rfl
        case isFalse => exact (upheld_scheduleNext h.confirmed rfl).1.spared.of_eq rfl rfl

/-- A timer that is due weathers the faults that the listeners do. -/
theorem weathers_fire (hn : ∀ ev, Weathers (notify ev)) (handle : Option Nat) :
    Weathers (fire notify handle) := by
  intro d h
  rw [exec_fire]
  split
  case h_1 => exact h.upheld.spared
  case h_2 j hj =>
    obtain ⟨hwoken, htask, -⟩ := orderly_woken_of_due h hj
    have hagenda : (d.elapsed j).woken.agenda.isSome = d.agenda.isSome := by simp [elapsed, woken]
    have hdue : Spared (d.elapsed j).woken (exec (due notify j) d).2 := by
      rw [exec_due, htask]
      simp only [exec_resume]
      split
      · exact hwoken.upheld.spared
      · exact spared_advance hn hwoken rfl
    exact ⟨hdue.orderly, hdue.agenda.trans hagenda, hdue.draining⟩

/-- A refused automaton is a fault that leaves everything as it was. -/
theorem weathers_load (a : Automaton) (input : Option Text) : Weathers (σ := σ) (load a input) := by
  intro d h
  rw [exec_load]
  rcases hl : d.load a input with fault | d'
  · exact h.upheld.spared
  · exact (upheld_load h hl).spared

/-- Whoever raises a fault and whoever catches it, every call of a play keeps the timers in
order. -/
theorem Play.weathers {raising : Bool} {x : Control σ α} (h : Play raising x) : Weathers x := by
  induction h with
  | ret a => exact weathers_of_eq (exec_pure a) fun d h => h.upheld
  | bind _ _ ihx ihf => exact weathers_bind ihx ihf
  | fail fault => exact weathers_of_eq (exec_throw fault) fun d h => h.upheld
  | attempt _ _ _ ihx ihh => exact weathers_tryCatch ihx ihh
  | look => exact weathers_of_eq exec_get fun d h => h.upheld
  | keep f => exact weathers_of_eq (exec_update _) fun d h => h.upheld_of_eq rfl rfl
  | log entries => exact weathers_of_eq (exec_update _) fun d h => h.upheld_of_eq rfl rfl
  | decide => exact fun d h => spared_decide h
  | step _ ih => exact weathers_step ih
  | run allowance _ ih => exact weathers_run ih (allowance + 1)
  | pause => exact weathers_of_eq exec_pause fun d h => upheld_pause h
  | reset input => exact weathers_of_eq (exec_reset input) fun d h => upheld_reset h input
  | acknowledge allowance generation _ ih => exact weathers_acknowledge ih allowance generation
  | load input => exact weathers_load _ input
  | tryLoad input _ _ ih => exact weathers_tryCatch (weathers_load _ input) ih
  | fire handle _ ih => exact weathers_fire ih handle

/-! ## Faults that nobody catches -/

/-- A play whose listeners may raise faults and call the engine, but catch no fault of a call. -/
inductive Uncaught : {α : Type} → Control σ α → Prop where
  | calm {α : Type} {x : Control σ α} : Play false x → Uncaught x
  | bind {α β : Type} {x : Control σ α} {f : α → Control σ β} :
      Uncaught x → (∀ a, Uncaught (f a)) → Uncaught (x >>= f)
  | fail {α : Type} (fault : Fault) : Uncaught (throw fault : Control σ α)
  | step {notify : Notify σ} : (∀ ev, Uncaught (notify ev)) → Uncaught (step notify)
  | run {notify : Notify σ} (allowance : Nat) : (∀ ev, Uncaught (notify ev)) →
      Uncaught (run notify (allowance + 1))
  | acknowledge {notify : Notify σ} (allowance : Nat) (generation : Option Int) :
      (∀ ev, Uncaught (notify ev)) → Uncaught (acknowledge notify allowance generation)
  | load {a : Automaton} (input : Option Text) : a.Typed → Uncaught (load a input : Control σ Unit)
  | fire {notify : Notify σ} (handle : Option Nat) : (∀ ev, Uncaught (notify ev)) →
      Uncaught (fire notify handle)

/-- A program without faults is one of those that may have some. -/
theorem Play.raising {x : Control σ α} (h : Play false x) : Play true x := by
  induction h with
  | ret a => exact .ret a
  | bind _ _ ihx ihf => exact .bind ihx ihf
  | fail fault => exact .fail fault rfl
  | attempt _ _ _ ihx ihh => exact .attempt rfl ihx ihh
  | look => exact .look
  | keep f => exact .keep f
  | log entries => exact .log entries
  | decide => exact .decide
  | step _ ih => exact .step ih
  | run allowance _ ih => exact .run allowance ih
  | pause => exact .pause
  | reset input => exact .reset input
  | acknowledge allowance generation _ ih => exact .acknowledge allowance generation ih
  | load input _ ha => exact .load input rfl ha
  | tryLoad input ha _ ih => exact .tryLoad input ha ih
  | fire handle _ ih => exact .fire handle ih

/-- What does not handle its faults is a program all the same. -/
theorem Uncaught.play {x : Control σ α} (h : Uncaught x) : Play true x := by
  induction h with
  | calm h => exact h.raising
  | bind _ _ ihx ihf => exact .bind ihx ihf
  | fail fault => exact .fail fault rfl
  | step _ ih => exact .step ih
  | run allowance _ ih => exact .run allowance ih
  | acknowledge allowance generation _ ih => exact .acknowledge allowance generation ih
  | load input ha => exact .load input rfl ha
  | fire handle _ ih => exact .fire handle ih

theorem upholds_load (a : Automaton) (input : Option Text) : Upholds (σ := σ) (load a input) := by
  intro d h r d' hr
  rw [exec_load] at hr
  rcases hl : d.load a input with fault | d₁
  · rw [hl] at hr
    cases hr
  · rw [hl] at hr
    obtain ⟨-, rfl⟩ := Prod.mk.inj hr
    exact upheld_load h hl

/-- If nobody catches the faults, a call that returns has come to no fault, and has seen to the
continuation of the automatic run. -/
theorem Uncaught.upholds {x : Control σ α} (h : Uncaught x) : Upholds x := by
  induction h with
  | calm h => exact h.upholds
  | bind _ _ ihx ihf => exact upholds_bind ihx ihf
  | fail fault => exact fun d _ r d' hr => nomatch hr
  | step _ ih => exact upholds_step ih
  | run allowance _ ih => exact upholds_run ih (allowance + 1)
  | acknowledge allowance generation _ ih => exact upholds_acknowledge ih allowance generation
  | load input => exact upholds_load _ input
  | fire handle _ ih => exact upholds_fire ih handle

/-! ## Listeners that leave the engine alone -/

/-- The listener keeps notes of its own and may raise a fault, but calls nothing. -/
def Reserved (notify : Notify σ) : Prop :=
  ∀ ev d, ∃ r x, exec (notify ev) d = (r, { d with outside := x })

/-- A step that has to be confirmed is in flight when the listeners are told, so that their fault
leaves a confirmation to be waited for. -/
theorem suspended_advance (hn : Reserved notify) (hm : d.engine.manualAck = true) {s : Status}
    (hrecords : d.engine.Records s) (hs : d.engine.status.isTerminal = false) :
    (exec (advance notify) d).2.Suspended := by
  obtain ⟨t, c', s', log, hstep, hdecide⟩ := exists_decide hrecords hs
  generalize hd₁ : ({ d with engine := d.engine.moved t c' s', log := log } : Desk σ) = d₁
    at hdecide
  generalize hev : (⟨t, c'.snapshot, s', d.engine.generation⟩ : Event) = ev at hdecide
  have hlaunched : (d₁.launch ev).Suspended := by
    subst hd₁ hev
    intro hrunning
    rcases hstep.status_cases with ⟨⟨u, rfl⟩, -⟩ | ⟨rfl, hterminal, -⟩
    · simp [launch, Engine.moved, hm]
    · simp [launch, Engine.moved, hterminal] at hrunning
  obtain ⟨r, x, htell⟩ := hn ev (d₁.launch ev)
  have htold : ({ d₁.launch ev with outside := x } : Desk σ).Suspended := hlaunched
  rw [exec_advance, hdecide]
  simp only [htell]
  rcases r with fault | ⟨⟩
  · exact htold
  · exact htold.goOn

/-- A suspended run makes no more rounds. -/
theorem exec_drainLoop_of_suspended (h : d.Suspended) (allowance : Nat) :
    (exec (drainLoop notify allowance) d).2 = d := by
  cases allowance with
  | zero => rfl
  | succ allowance =>
    rw [exec_drainLoop_succ, if_neg]
    intro hgo
    simp only [Bool.and_eq_true, Bool.not_eq_true'] at hgo
    exact absurd (h hgo.1.1) (by simp [hgo.1.2])

/-- The loop ends after one step, however that ends. -/
theorem suspended_drainLoop (hn : Reserved notify) (hm : d.engine.manualAck = true) {s : Status}
    (hrecords : d.engine.Records s) (hs : d.engine.status.isTerminal = false) (allowance : Nat) :
    (exec (drainLoop notify (allowance + 1)) d).2.Suspended := by
  rw [exec_drainLoop_succ]
  split
  case isFalse hstop =>
    unfold Suspended
    simpa [hs] using hstop
  case isTrue =>
    split
    case isTrue hlimit => exact suspended_observeLimit hlimit
    case isFalse =>
      exact holds_bind (P := Suspended) (suspended_advance hn hm hrecords hs) fun _ d' hd' => by
        rwa [exec_drainLoop_of_suspended hd']

/-- A run that waits for confirmations is suspended by its first step. -/
theorem suspended_drain (hn : Reserved notify) (hm : d.engine.manualAck = true) {s : Status}
    (hrecords : d.engine.Records s) (hs : d.engine.status.isTerminal = false) (allowance : Nat) :
    (exec (drain notify (allowance + 1)) d).2.Suspended := by
  have hbegin : (d.drains true).engine.Records s := hrecords.sameRun rfl
  rw [exec_drain]
  exact suspended_drainLoop (d := d.drains true) hn hm hbegin hs allowance

/-- A call whose listeners leave the engine alone. -/
inductive Aloof : {α : Type} → Control σ α → Prop where
  | step {notify : Notify σ} : Reserved notify → Aloof (step notify)
  | run {notify : Notify σ} (allowance : Nat) : Reserved notify →
      Aloof (run notify (allowance + 1))
  | acknowledge {notify : Notify σ} (allowance : Nat) (generation : Option Int) :
      Reserved notify → Aloof (acknowledge notify (allowance + 1) generation)
  | fire {notify : Notify σ} (handle : Option Nat) : Reserved notify → Aloof (fire notify handle)

theorem Reserved.weathers (hn : Reserved notify) (ev : Event) : Weathers (notify ev) := by
  intro d h
  obtain ⟨r, x, htell⟩ := hn ev d
  rw [htell]
  have hkept : Upheld d { d with outside := x } := h.upheld_of_eq rfl rfl
  exact hkept.spared

theorem Reserved.keeps (hn : Reserved notify) (timed : Bool) (ev : Event) :
    Keeps true timed (notify ev) := by
  intro d h
  obtain ⟨r, x, htell⟩ := hn ev d
  rw [htell]
  exact ⟨h.sameRun ⟨rfl, rfl, rfl⟩, fun _ _ => Or.inl rfl⟩

theorem Aloof.weathers {x : Control σ α} (h : Aloof x) : Weathers x := by
  cases h with
  | step hn => exact weathers_step hn.weathers
  | run allowance hn => exact weathers_run hn.weathers (allowance + 1)
  | acknowledge allowance generation hn => exact weathers_acknowledge hn.weathers _ generation
  | fire handle hn => exact weathers_fire hn.weathers handle

theorem Aloof.keeps {x : Control σ α} (h : Aloof x) (timed : Bool) : Keeps true timed x := by
  cases h with
  | step hn => exact keeps_step (hn.keeps timed)
  | run allowance hn => exact keeps_run (hn.keeps timed) allowance
  | acknowledge allowance generation hn => exact keeps_acknowledge (hn.keeps timed) _ generation
  | fire handle hn => exact keeps_fire (hn.keeps timed) handle

/-- An automatic run with reserved listeners goes on or waits for a confirmation. -/
theorem covered_run (hn : Reserved notify) (hm : d.engine.manualAck = true) {timed : Bool}
    (hrecorded : d.Recorded timed) (hcovered : d.Covered) (allowance : Nat) :
    (exec (run notify (allowance + 1)) d).2.Covered := by
  rw [exec_run]
  split
  · exact hcovered
  · split
    case isTrue hlimit => exact (suspended_observeLimit hlimit).covered
    case isFalse =>
      have hbegun : d.begun.engine.Records d.engine.status := hrecorded.records.sameRun rfl
      split
      · exact (suspended_drain (d := d.begun) hn hm hbegun rfl allowance).covered
      · exact (suspended_advance (d := d.begun) hn hm hbegun rfl).covered

/-- A step by hand does not leave a run without a continuation. -/
theorem covered_step (hn : Reserved notify) (hm : d.engine.manualAck = true) {timed : Bool}
    (hrecorded : d.Recorded timed) (hcovered : d.Covered) : (exec (step notify) d).2.Covered := by
  rw [exec_step]
  split
  · exact hcovered
  · split
    · exact hcovered
    case isFalse hs =>
      have hpaused : d.pause.engine.Records d.engine.status :=
        hrecorded.records.sameRun d.sameRun_pause.engine
      exact (suspended_advance (d := d.pause) hn hm hpaused (Bool.eq_false_iff.2 hs)).covered

/-- A confirmation with reserved listeners lets the run go on. -/
theorem covered_acknowledge (hn : Reserved notify) (hm : d.engine.manualAck = true) {timed : Bool}
    (hrecorded : d.Recorded timed) (h : d.Orderly) (hcovered : d.Covered) (allowance : Nat)
    (generation : Option Int) :
    (exec (acknowledge notify (allowance + 1) generation) d).2.Covered := by
  rw [exec_acknowledge]
  split
  · exact hcovered
  · split
    · exact hcovered
    · split
      case isTrue hstay =>
        -- the loop goes on after the call that confirms, if it is active
        intro hrunning
        have hrunning' : d.engine.running = true := hrunning
        have hdraining : d.engine.draining = true := by simpa [hrunning'] using hstay
        exact Or.inr (Or.inr hdraining)
      case isFalse hgo =>
        simp only [Bool.or_eq_true, not_or, Bool.not_eq_true, Bool.not_eq_false'] at hgo
        have hs : d.confirmed.engine.status.isTerminal = false := by
          show d.engine.status.isTerminal = false
          rw [h.running hgo.1]
          rfl
        split
        case isTrue =>
          have hconfirmed : d.confirmed.engine.Records d.engine.status :=
            hrecorded.records.sameRun rfl
          exact (suspended_drain (d := d.confirmed) hn hm hconfirmed hs allowance).covered
        case isFalse hsome =>
          have hsome' : d.agenda.isSome = true := by simpa [Option.isSome_iff_ne_none] using hsome
          exact (upheld_scheduleNext h.confirmed rfl).2 hsome'

/-- A timer that is due lets the run go on. -/
theorem covered_fire (hn : Reserved notify) (hm : d.engine.manualAck = true) {timed : Bool}
    (hrecorded : d.Recorded timed) (h : d.Orderly) (hcovered : d.Covered) (handle : Option Nat) :
    (exec (fire notify handle) d).2.Covered := by
  rw [exec_fire]
  split
  case h_1 => exact hcovered
  case h_2 j hj =>
    obtain ⟨hwoken, htask, -⟩ := orderly_woken_of_due h hj
    have hrecords : (d.elapsed j).woken.engine.Records d.engine.status :=
      hrecorded.records.sameRun rfl
    simp only [exec_due, htask, exec_resume]
    split
    case isTrue hstay =>
      refine Suspended.covered fun hrunning => ?_
      have hrunning' : d.engine.running = true := hrunning
      have hflight : d.engine.inFlight = true := by simpa [elapsed, hrunning'] using hstay
      exact hflight
    case isFalse hgo =>
      simp only [Bool.or_eq_true, not_or, Bool.not_eq_true, Bool.not_eq_false'] at hgo
      have hs : (d.elapsed j).woken.engine.status.isTerminal = false := by
        rw [hwoken.running hgo.1.2]
        rfl
      exact (suspended_advance (d := (d.elapsed j).woken) hn hm hrecords hs).covered

/-- No aloof call leaves a run without a continuation. -/
theorem Aloof.covered {x : Control σ α} (hx : Aloof x) (hm : d.engine.manualAck = true)
    {timed : Bool} (hrecorded : d.Recorded timed) (h : d.Orderly) (hcovered : d.Covered) :
    (exec x d).2.Covered := by
  cases hx with
  | step hn => exact covered_step hn hm hrecorded hcovered
  | run allowance hn => exact covered_run hn hm hrecorded hcovered allowance
  | acknowledge allowance generation hn =>
    exact covered_acknowledge hn hm hrecorded h hcovered allowance generation
  | fire handle hn => exact covered_fire hn hm hrecorded h hcovered handle

/-! ## Calls from outside -/

/-- The desks to which calls from outside lead, whether they return or fail. They are harmed from
the moment a call fails until no automatic run is going on. A call does no harm, however it ends, if
each step has to be confirmed and the listeners leave the engine alone. -/
inductive Exposed (d₀ : Desk σ) : Bool → Desk σ → Prop where
  | start : Exposed d₀ false d₀
  | returned {harmed : Bool} {d d' : Desk σ} {α : Type} {x : Control σ α} {r : α} :
      Exposed d₀ harmed d → Uncaught x → exec x d = (.ok r, d') → Exposed d₀ harmed d'
  | failed {harmed : Bool} {d d' : Desk σ} {α : Type} {x : Control σ α} {fault : Fault} :
      Exposed d₀ harmed d → Uncaught x → exec x d = (.error fault, d') → Exposed d₀ true d'
  | shielded {harmed : Bool} {d : Desk σ} {α : Type} {x : Control σ α} :
      Exposed d₀ harmed d → d.engine.manualAck = true → Aloof x →
        Exposed d₀ harmed (exec x d).2
  | idle {harmed : Bool} {d : Desk σ} : Exposed d₀ harmed d → d.engine.running = false →
      Exposed d₀ false d

/-- What holds after each call. -/
structure Intact (timed harmed : Bool) (d : Desk σ) : Prop where
  recorded : d.Recorded timed
  orderly : d.Orderly
  draining : d.engine.draining = false
  covered : harmed = false → d.Covered

theorem Intact.of_spared {timed harmed harmed' : Bool} (h : Intact timed harmed d)
    (hspared : Spared d d') (hrecorded : d'.Recorded timed)
    (hcovered : harmed' = false → d'.Covered) : Intact timed harmed' d' where
  recorded := hrecorded
  orderly := hspared.orderly
  draining := Bool.eq_false_iff.2 (mt hspared.draining (Bool.eq_false_iff.1 h.draining))
  covered := hcovered

/-- As long as nothing has been harmed, a run that goes on has a continuation. -/
theorem Exposed.intact {timed harmed : Bool} {d₀ : Desk σ} (h₀ : Intact timed false d₀)
    (h : Exposed d₀ harmed d) : Intact timed harmed d := by
  induction h with
  | start => exact h₀
  | @returned harmed d d' _ x r _ hx hr ih =>
    have hspared := hx.play.weathers d ih.orderly
    have hrecorded := (hx.play.keeps d ih.recorded).recorded
    rw [hr] at hspared hrecorded
    exact ih.of_spared hspared hrecorded fun hsafe =>
      (hx.upholds d ih.orderly r d' hr).covered (ih.covered hsafe)
  | @failed harmed d d' _ x fault _ hx hr ih =>
    have hspared := hx.play.weathers d ih.orderly
    have hrecorded := (hx.play.keeps d ih.recorded).recorded
    rw [hr] at hspared hrecorded
    exact ih.of_spared hspared hrecorded nofun
  | @shielded harmed d _ x _ hm hx ih =>
    exact ih.of_spared (hx.weathers d ih.orderly) (hx.keeps timed d ih.recorded).recorded
      fun hsafe => hx.covered hm ih.recorded ih.orderly (ih.covered hsafe)
  | idle _ hidle ih =>
    exact ⟨ih.recorded, ih.orderly, ih.draining,
      fun _ hrunning => absurd hrunning (by simp [hidle])⟩

end Control

open Control in
/-- Whatever is called and whatever the listeners raise : an automatic run that is going on waits
for a confirmation or for a timer, unless a call has failed since it began. -/
theorem continued_of_exposed {σ : Type} {a : Automaton} {w : Text} {delay : Int} {manualAck : Bool}
    {maxSteps : Option Int} {agenda : Option Agenda} {owner : Nat} {outside : σ} {d₀ d : Desk σ}
    {harmed : Bool} (ha : a.Typed)
    (hcancels : ∀ g, agenda = some g → g.cancels = true ∧ g.jobs = [])
    (hd : Desk.start a w delay manualAck maxSteps agenda owner outside = .ok d₀)
    (hexposed : Exposed d₀ harmed d) :
    d.engine.running = true → d.engine.inFlight = true ∨ d.jobs ≠ [] ∨ harmed = true := by
  obtain ⟨horderly, hcovered, hdraining⟩ := Desk.orderly_start hcancels hd
  have h := hexposed.intact ⟨Desk.recorded_start ha hd, horderly, hdraining, fun _ => hcovered⟩
  intro hrunning
  cases harmed with
  | true => exact Or.inr (Or.inr rfl)
  | false =>
    have hsettled := h.orderly.settled (h.covered rfl) h.draining
    by_cases hjobs : d.jobs = []
    · exact Or.inl (((hsettled.running hrunning).2).2 hjobs)
    · exact Or.inr (Or.inl hjobs)

open Control in
/-- The fault leaves the run without a timer; it is given up and begun again. -/
theorem continued_of_exposed_evenA :
    let quiet : Notify Unit := fun _ => pure ()
    let refuse : Notify Unit := fun _ => throw (.listener "no")
    Catalog.evenA.automaton.Typed ∧
      ∃ d₀, Desk.start Catalog.evenA.automaton "bb" 200 false none (some (.empty true)) 0 () =
        .ok d₀ ∧
      let d := (exec (run quiet 1) (exec pause (exec (run refuse 1) d₀).2).2).2
      Exposed d₀ false d ∧ d.engine.running = true ∧
        (d.engine.inFlight = true ∨ d.jobs ≠ [] ∨ false = true) := by
  intro quiet refuse
  have hquiet : ∀ ev, Play false (quiet ev) := fun _ => .ret ()
  have hrefuse : ∀ ev, Uncaught (refuse ev) := fun _ => .fail _
  have ha : Catalog.evenA.automaton.Typed := by decide
  have hcancels : ∀ g, some (Agenda.empty true) = some g → g.cancels = true ∧ g.jobs = [] := by
    intro g hg
    obtain rfl := Option.some.inj hg
    exact ⟨rfl, rfl⟩
  obtain ⟨d₀, hd⟩ : ∃ d₀, Desk.start Catalog.evenA.automaton "bb" 200 false none
      (some (.empty true)) 0 () = .ok d₀ := ⟨_, rfl⟩
  refine ⟨ha, d₀, hd, ?_⟩
  intro d
  have hfailed : Exposed d₀ true (exec (run refuse 1) d₀).2 := by
    cases hd
    exact .failed .start (.run 0 hrefuse) rfl
  have hpaused : Exposed d₀ false (exec pause (exec (run refuse 1) d₀).2).2 :=
    .idle (.returned hfailed (.calm .pause) rfl) rfl
  have hexposed : Exposed d₀ false d := by
    cases hd
    exact .returned hpaused (.calm (.run 0 hquiet)) rfl
  have hrunning : d.engine.running = true := by
    cases hd
    rfl
  exact ⟨hexposed, hrunning, continued_of_exposed ha hcancels hd hexposed hrunning⟩

open Control in
/-- The listener refuses the first event, and from then on no run begins, though none goes on. -/
theorem continuation_lost_evenA :
    let quiet : Notify Unit := fun _ => pure ()
    let refuse : Notify Unit := fun _ => throw (.listener "no")
    ∃ d₀, Desk.start Catalog.evenA.automaton "bb" 200 false none none 0 () = .ok d₀ ∧
      let d := (exec (run refuse 1) d₀).2
      (exec (run refuse 1) d₀).1 = .error (.listener "no") ∧ d.engine.running = true ∧
        d.engine.inFlight = false ∧ d.jobs = [] ∧ (exec (run quiet 1) d).1 = .ok false ∧
        ¬(d.engine.running = true → d.engine.inFlight = true ∨ d.jobs ≠ []) := by
  intro quiet refuse
  obtain ⟨d₀, hd⟩ : ∃ d₀, Desk.start Catalog.evenA.automaton "bb" 200 false none none 0 () =
      .ok d₀ := ⟨_, rfl⟩
  refine ⟨d₀, hd, ?_⟩
  cases hd
  refine ⟨rfl, rfl, rfl, rfl, rfl, fun h => ?_⟩
  rcases h rfl with hflight | hjobs
  · cases hflight
  · exact hjobs rfl

end AutomatonLab
