import AutomatonLab.Proofs.AutomaticRun

/-!
# The ways of completing an automatic run

An automatic run can be completed in several ways (`Way`) : by the loop that makes all steps at
once, by timers, and with steps that are confirmed, by a listener or from outside. Between two
steps the run waits for the loop, for a confirmation (`Desk.Held`) or for a timer (`Desk.Due`), and
each of them leads to the next step or to the end of the run (`Control.exec_fire_timed`,
`Control.exec_fire_held`, `Control.exec_acknowledge_held`, `Control.exec_acknowledge_timed`). So
each way comes to the end (`Control.exec_complete`), and since there is only one, all ways agree
(`completions_agree`).
-/

namespace AutomatonLab

namespace Desk

open Engine

variable {σ : Type} {d : Desk σ} {p : Plan} {n : Nat} {timed looping inFlight : Bool}
  {timer : Option Job}

/-- An automatic run waits for the confirmation of the step in flight. -/
def Held (timed : Bool) (p : Plan) (n : Nat) (d : Desk σ) : Prop :=
  d.engine.Midway p n ∧ d.Waits timed false true none

/-- An automatic run waits for the timer that makes its next step. -/
def Due (p : Plan) (n : Nat) (d : Desk σ) : Prop :=
  d.engine.Midway p n ∧ d.engine.atLimit = false ∧
    ∃ j, d.Waits true false false (some j) ∧ j.task = .resume p.generation

/-- An automatic run is over, and nothing is left to be done. -/
def Finished (timed : Bool) (p : Plan) (d : Desk σ) : Prop :=
  d.engine.Over p ∧ d.Waits timed false false none

/-- At the end of a run nothing more is asked for. -/
theorem goOn_over (h : d.engine.Over p) : d.goOn = d := by
  rw [goOn, h.running]
  rfl

/-- While a step is in flight nothing more is asked for. -/
theorem goOn_held (h : d.engine.inFlight = true) : d.goOn = d := by
  rw [goOn, h, Bool.not_true, Bool.and_false]
  rfl

/-- On the way, the timer for the next step is asked for. -/
theorem goOn_midway (h : d.engine.Midway p n) (hflight : d.engine.inFlight = false) :
    d.goOn = d.scheduleNext := by
  rw [goOn, h.running, hflight]
  rfl

/-- With timers the next step is due later, unless the limit is reached. -/
theorem scheduleNext_midway (h : d.engine.Midway p n) (hwaits : d.Waits true false false none) :
    d.scheduleNext.Due p n ∨ d.scheduleNext.Finished true p := by
  obtain ⟨g, hg⟩ := Option.isSome_iff_exists.1 hwaits.agenda
  have hjobs : g.jobs = [] := by simpa [jobs, hg] using hwaits.jobs
  have hpending : d.engine.pending = none := hwaits.pending
  have hgo :
      (d.engine.pending.isSome || !d.engine.running || d.engine.status.isTerminal) = false := by
    rw [hpending, h.running, h.status]
    rfl
  rw [scheduleNext, hg]
  simp only [hgo, Bool.false_eq_true, if_false]
  cases hlimit : d.engine.atLimit with
  | true => exact Or.inr (observeLimit_over h hlimit hwaits)
  | false =>
    left
    refine ⟨h.sameRun rfl rfl rfl, hlimit, ?_⟩
    refine ⟨⟨g.issued + 1, g.clock + d.engine.delay, d.owner, .resume d.engine.generation⟩,
      ⟨rfl, hwaits.draining, hwaits.inFlight, rfl, ?_⟩, ?_⟩
    · simp [jobs, askTimer, Agenda.add, hjobs]
    · rw [← h.plan]
      rfl

end Desk

namespace Control

open Desk Engine

variable {σ : Type} {notify : Notify σ} {d : Desk σ} {p : Plan} {n : Nat} {timed : Bool}

/-! ## One step of each way -/

/-- A step that has to be confirmed waits for that, or is the last one. -/
theorem exec_advance_held {looping : Bool} (hn : Passive notify) (hp : p.manualAck = true)
    (h : d.engine.Midway p n) (hlimit : d.engine.atLimit = false)
    (hwaits : d.Waits timed looping false none) :
    ∃ ev, ∃ d' : Desk σ, exec (advance notify) d = (.ok ev, d') ∧
      (d'.engine.Midway p (n + 1) ∧ d'.Waits timed looping true none ∨
        d'.engine.Over p ∧ d'.Waits timed looping false none) := by
  obtain ⟨ev, d', hadvance, hd'⟩ := exec_advance_passive hn h hlimit hwaits
  rw [hp] at hd'
  refine ⟨ev, d', ?_, hd'⟩
  rcases hd' with ⟨-, hw⟩ | ⟨hover, -⟩
  · rw [hadvance, goOn_held hw.inFlight]
  · rw [hadvance, goOn_over hover]

/-- With timers a step that need not be confirmed is followed by the next one, or is the last
one. -/
theorem exec_advance_due (hn : Passive notify) (hp : p.manualAck = false)
    (h : d.engine.Midway p n) (hlimit : d.engine.atLimit = false)
    (hwaits : d.Waits true false false none) :
    ∃ ev, ∃ d' : Desk σ, exec (advance notify) d = (.ok ev, d') ∧
      (d'.Due p (n + 1) ∨ d'.Finished true p) := by
  obtain ⟨ev, d', hadvance, hd'⟩ := exec_advance_passive hn h hlimit hwaits
  rw [hp] at hd'
  rcases hd' with ⟨hmidway, hw⟩ | ⟨hover, hw⟩
  · refine ⟨ev, _, hadvance, ?_⟩
    rw [goOn_midway hmidway hw.inFlight]
    exact scheduleNext_midway hmidway hw
  · rw [goOn_over hover] at hadvance
    exact ⟨ev, d', hadvance, Or.inr ⟨hover, hw⟩⟩

/-- Without a step in flight there is nothing to confirm. -/
theorem exec_acknowledge_idle {allowance : Nat} (h : d.engine.inFlight = false) :
    exec (acknowledge notify allowance none) d = (.ok (), d) := by
  rw [exec_acknowledge, h]
  rfl

/-- A step that is confirmed lets the run go on, by a timer or at once. -/
theorem exec_acknowledge_inFlight {allowance : Nat} (h : d.engine.inFlight = true) :
    exec (acknowledge notify allowance none) d =
      if !d.engine.running || d.engine.draining then (.ok (), d.confirmed)
      else if d.agenda.isNone then exec (drain notify allowance) d.confirmed
      else (.ok (), d.confirmed.scheduleNext) := by
  rw [exec_acknowledge, h]
  rfl

/-- The listener that confirms each step at once, after what else is done with its event. -/
def echo (notify inner : Notify σ) (allowance : Nat) : Notify σ := fun ev => do
  notify ev
  acknowledge inner allowance none

/-- Listeners that confirm each step they are told of are no obstacle for a run that needs it. -/
theorem leads_of_echo {inner : Notify σ} {allowance : Nat} (hn : Passive notify)
    (hp : p.manualAck = true) : Leads p (echo notify inner allowance) := by
  intro d n h hlimit hwaits
  obtain ⟨ev, d₁, hdecide, hwaits₁, hd₁⟩ := decide_midway h hlimit hwaits
  obtain ⟨x, htell⟩ := hn ev (d₁.launch ev)
  have hadvance : ∀ d' : Desk σ, d'.agenda = none →
      exec (acknowledge inner allowance none) { d₁.launch ev with outside := x } = (.ok (), d') →
      exec (advance (echo notify inner allowance)) d = (.ok ev, d') := by
    intro d' hnone hacknowledge
    rw [exec_advance, hdecide]
    simp only [echo, exec_bind, htell, hacknowledge, goOn_of_untimed hnone]
  rcases hd₁ with ⟨htaken, hmidway⟩ | ⟨hhalt, hover⟩
  · obtain ⟨hmidway', hw⟩ := launch_midway hmidway hwaits₁ htaken
    rw [hp] at hw
    let d₂ : Desk σ := { d₁.launch ev with outside := x }
    have hw₂ : d₂.Waits false true true none := hw.outside x
    have hacknowledge : exec (acknowledge inner allowance none) d₂ = (.ok (), d₂.confirmed) := by
      rw [exec_acknowledge_inFlight hw₂.inFlight, hw₂.draining, Bool.or_true]
      rfl
    have hnone : d₂.confirmed.agenda = none := hw₂.agenda_eq_none
    refine ⟨ev, d₂.confirmed, hadvance _ hnone hacknowledge, ?_, Or.inl ?_⟩
    · exact ⟨hw.agenda, hw.draining, rfl, hw.pending, hw.jobs⟩
    · exact hmidway'.sameRun rfl rfl rfl
  · let d₂ : Desk σ := { d₁ with outside := x }
    rw [launch_of_halt hhalt] at hadvance
    have hacknowledge : exec (acknowledge inner allowance none) d₂ = (.ok (), d₂) :=
      exec_acknowledge_idle hwaits₁.inFlight
    have hnone : d₂.agenda = none := hwaits₁.agenda_eq_none
    exact ⟨ev, d₂, hadvance _ hnone hacknowledge, hwaits₁.outside x, Or.inr hover⟩

/-! ## What continues a run from outside -/

/-- The loop of a run whose steps have to be confirmed makes one step, unless the limit is
reached. -/
theorem exec_drainLoop_held (allowance : Nat) (hn : Passive notify) (hp : p.manualAck = true)
    (h : d.engine.Midway p n) (hwaits : d.Waits false true false none) :
    ∃ d' : Desk σ, exec (drainLoop notify (allowance + 2)) d = (.ok (), d') ∧
      (d'.engine.Midway p (n + 1) ∧ d'.Waits false true true none ∨
        d'.engine.Over p ∧ d'.Waits false true false none) := by
  rw [exec_drainLoop_succ, h.running, hwaits.inFlight, h.status]
  cases hlimit : d.engine.atLimit with
  | true => exact ⟨_, rfl, Or.inr (observeLimit_over h hlimit hwaits)⟩
  | false =>
    obtain ⟨ev, d', hadvance, hd'⟩ := exec_advance_held hn hp h hlimit hwaits
    have hstop : exec (drainLoop notify (allowance + 1)) d' = (.ok (), d') := by
      rcases hd' with ⟨-, hwaits'⟩ | ⟨hover, -⟩
      · rw [exec_drainLoop_succ, hwaits'.inFlight, Bool.not_true, Bool.and_false, Bool.false_and]
        rfl
      · exact exec_drainLoop_of_over hover allowance
    refine ⟨d', ?_, hd'⟩
    show exec (advance notify >>= fun _ => drainLoop notify (allowance + 1)) d = _
    rw [exec_bind, hadvance]
    exact hstop

/-- Without timers a run that is not waiting makes one step, unless the limit is reached. -/
theorem exec_drain_held (allowance : Nat) (hn : Passive notify) (hp : p.manualAck = true)
    (h : d.engine.Midway p n) (hwaits : d.Waits false false false none) :
    ∃ d' : Desk σ, exec (drain notify (allowance + 2)) d = (.ok (), d') ∧
      (d'.Held false p (n + 1) ∨ d'.Finished false p) := by
  obtain ⟨d', hloop, hd'⟩ := exec_drainLoop_held allowance hn hp
    (d := d.drains true) (h.sameRun rfl rfl rfl) (hwaits.drains true)
  refine ⟨d'.drains false, by rw [exec_drain, hloop], ?_⟩
  rcases hd' with ⟨hmidway, hwaits'⟩ | ⟨hover, hwaits'⟩
  · exact Or.inl ⟨hmidway.sameRun rfl rfl rfl, hwaits'.drains false⟩
  · exact Or.inr ⟨hover.sameRun rfl rfl rfl, hwaits'.drains false⟩

/-- One confirmation from outside is one more step, or the end. -/
theorem exec_acknowledge_held (allowance : Nat) (hn : Passive notify) (hp : p.manualAck = true)
    (h : d.Held false p n) :
    ∃ d' : Desk σ, exec (acknowledge notify (allowance + 2) none) d = (.ok (), d') ∧
      (d'.Held false p (n + 1) ∨ d'.Finished false p) := by
  obtain ⟨hmidway, hwaits⟩ := h
  have hgo : (!d.engine.running || d.engine.draining) = false := by
    rw [hmidway.running, hwaits.draining]
    rfl
  rw [exec_acknowledge_inFlight hwaits.inFlight, hgo, hwaits.agenda_eq_none]
  exact exec_drain_held allowance hn hp (d := d.confirmed) (hmidway.sameRun rfl rfl rfl)
    ⟨hwaits.agenda, hwaits.draining, rfl, hwaits.pending, hwaits.jobs⟩

/-- With timers a confirmation asks for the timer of the next step, unless the limit is reached. -/
theorem exec_acknowledge_timed (notify : Notify σ) (allowance : Nat) (h : d.Held true p n) :
    ∃ d' : Desk σ, exec (acknowledge notify allowance none) d = (.ok (), d') ∧
      (d'.Due p n ∨ d'.Finished true p) := by
  obtain ⟨hmidway, hwaits⟩ := h
  have hgo : (!d.engine.running || d.engine.draining) = false := by
    rw [hmidway.running, hwaits.draining]
    rfl
  obtain ⟨g, hg⟩ := Option.isSome_iff_exists.1 hwaits.agenda
  rw [exec_acknowledge_inFlight hwaits.inFlight, hgo, hg]
  exact ⟨_, rfl, scheduleNext_midway (d := d.confirmed) (hmidway.sameRun rfl rfl rfl)
    ⟨hwaits.agenda, hwaits.draining, rfl, hwaits.pending, hwaits.jobs⟩⟩

/-- Without timers nothing is due. -/
theorem exec_fire_of_jobs_eq_nil (notify : Notify σ) (h : d.jobs = []) :
    exec (fire notify none) d = (.ok none, d) := by
  rw [exec_fire]
  cases hg : d.agenda with
  | none => rfl
  | some g =>
    have hjobs : g.jobs = [] := by simpa [Desk.jobs, hg] using h
    simp [Agenda.oldest?, hjobs]

/-- The timer that is due makes the next step. -/
theorem exec_fire_due (notify : Notify σ) (h : d.Due p n) :
    ∃ j, ∃ d₀ : Desk σ, exec (fire notify none) d =
        ((exec (advance notify) d₀).1.map fun _ => some j, (exec (advance notify) d₀).2) ∧
      d₀.engine.Midway p n ∧ d₀.engine.atLimit = false ∧ d₀.Waits true false false none := by
  obtain ⟨hmidway, hlimit, j, hwaits, htask⟩ := h
  obtain ⟨g, hg⟩ := Option.isSome_iff_exists.1 hwaits.agenda
  have hjobs : g.jobs = [j] := by simpa [Desk.jobs, hg] using hwaits.jobs
  have hgeneration : p.generation = (d.elapsed j).engine.generation := by
    rw [← hmidway.plan]
    rfl
  have hrunning : (d.elapsed j).engine.running = true := hmidway.running
  have hflight : (d.elapsed j).engine.inFlight = false := hwaits.inFlight
  have hresume : exec (resume notify p.generation) (d.elapsed j) =
      ((exec (advance notify) (d.elapsed j).woken).1.map fun _ => (),
        (exec (advance notify) (d.elapsed j).woken).2) := by
    rw [exec_resume, hgeneration, hrunning, hflight]
    simp
  refine ⟨j.handle, (d.elapsed j).woken, ?_, hmidway.sameRun rfl rfl rfl, hlimit, ?_⟩
  · rw [exec_fire, hg]
    simp only [Option.bind_some, Option.elim_none, Agenda.oldest?, hjobs, List.head?_cons]
    rw [exec_due, htask]
    simp only [hresume]
    rcases exec (advance notify) (d.elapsed j).woken with ⟨_ | _, d'⟩ <;> rfl
  · refine ⟨?_, hwaits.draining, hwaits.inFlight, rfl, ?_⟩
    · simp [woken, elapsed, hg]
    · simp [Desk.jobs, woken, elapsed, hg, Agenda.elapse, Agenda.remove, hjobs]

/-- One timer is one more step, or the end. -/
theorem exec_fire_timed (hn : Passive notify) (hp : p.manualAck = false) (h : d.Due p n) :
    ∃ r, ∃ d' : Desk σ, exec (fire notify none) d = (.ok r, d') ∧
      (d'.Due p (n + 1) ∨ d'.Finished true p) := by
  obtain ⟨j, d₀, hfire, hmidway, hlimit, hwaits⟩ := exec_fire_due notify h
  obtain ⟨ev, d', hadvance, hd'⟩ := exec_advance_due hn hp hmidway hlimit hwaits
  exact ⟨some j, d', by rw [hfire, hadvance]; rfl, hd'⟩

/-- One timer is one more step, which is then held until it is confirmed. -/
theorem exec_fire_held (hn : Passive notify) (hp : p.manualAck = true) (h : d.Due p n) :
    ∃ r, ∃ d' : Desk σ, exec (fire notify none) d = (.ok r, d') ∧
      (d'.Held true p (n + 1) ∨ d'.Finished true p) := by
  obtain ⟨j, d₀, hfire, hmidway, hlimit, hwaits⟩ := exec_fire_due notify h
  obtain ⟨ev, d', hadvance, hd'⟩ := exec_advance_held hn hp hmidway hlimit hwaits
  exact ⟨some j, d', by rw [hfire, hadvance]; rfl, hd'⟩

/-! ## The ways -/

/-- The call is made again and again as long as the desk satisfies `going`, at most `rounds - 1`
times. -/
def repeatWhile (going : Desk σ → Bool) (call : Control σ Unit) : Nat → Control σ Unit
  | 0 => throw .exhausted
  | rounds + 1 => do
    if going (← get) then
      call
      repeatWhile going call rounds

/-- One more round, if there is to be one. -/
theorem exec_repeatWhile_succ (going : Desk σ → Bool) (call : Control σ Unit) (rounds : Nat)
    (d : Desk σ) :
    exec (repeatWhile going call (rounds + 1)) d =
      if going d then exec (call >>= fun _ => repeatWhile going call rounds) d
      else (.ok (), d) := by
  rw [repeatWhile, exec_bind, exec_get]
  simp only
  split <;> rfl

/-- A loop ends whose calls count up to a bound, or finish. -/
theorem exec_repeatWhile {going : Desk σ → Bool} {call : Control σ Unit} {B : Nat}
    {I : Nat → Desk σ → Prop} {F : Desk σ → Prop} (hbound : ∀ n d, I n d → n ≤ B)
    (hgoing : ∀ n d, I n d → going d = true) (hfinal : ∀ d, F d → going d = false)
    (hcall : ∀ n d, I n d → ∃ d', exec call d = (.ok (), d') ∧ (I (n + 1) d' ∨ F d')) :
    ∀ rounds n d, I n d ∨ F d → B + 2 ≤ rounds + n ∧ 1 ≤ rounds →
      ∃ d', exec (repeatWhile going call rounds) d = (.ok (), d') ∧ F d'
  | 0, _, _, _, hrounds => absurd hrounds.2 (by decide)
  | rounds + 1, n, d, h, hrounds => by
    rw [exec_repeatWhile_succ]
    rcases h with hat | hfinished
    · rw [if_pos (hgoing n d hat), exec_bind]
      obtain ⟨d', hd', hnext⟩ := hcall n d hat
      have hle := hbound n d hat
      rw [hd']
      exact exec_repeatWhile hbound hgoing hfinal hcall rounds (n + 1) d' hnext (by omega)
    · rw [hfinal d hfinished]
      exact ⟨d, rfl, hfinished⟩

end Control

/-- The ways of completing an automatic run. -/
inductive Way where
  /-- All steps are made at once. -/
  | atOnce
  /-- Each step is made by a timer. -/
  | timers
  /-- All steps are made at once, and a listener confirms each of them. -/
  | echo
  /-- Each step is confirmed from outside, which makes the next one. -/
  | confirmed
  /-- Each step is confirmed from outside, and the next one is made by a timer. -/
  | alternating
  deriving DecidableEq, Repr

namespace Way

open Control

variable {σ : Type}

/-- The way needs timers. -/
def timed : Way → Bool
  | timers => true
  | alternating => true
  | _ => false

/-- The way needs an engine whose steps have to be confirmed. -/
def manualAck : Way → Bool
  | atOnce => false
  | timers => false
  | _ => true

/-- An automatic run begins and is completed. The listeners `inner` would be told of steps made by
the confirmation of a step that is being told; there are none. -/
def complete (notify inner : Notify σ) (allowance : Nat) : Way → Control σ Unit
  | atOnce => do
    let _ ← run notify allowance
  | timers => do
    let _ ← run notify allowance
    repeatWhile (fun d => !d.jobs.isEmpty) (do let _ ← fire notify none) allowance
  | echo => do
    let _ ← run (Control.echo notify inner allowance) allowance
  | confirmed => do
    let _ ← run notify allowance
    repeatWhile (fun d => d.engine.inFlight) (acknowledge notify allowance none) allowance
  | alternating => do
    let _ ← run notify allowance
    repeatWhile (fun d => d.engine.inFlight || !d.jobs.isEmpty)
      (do acknowledge notify allowance none; let _ ← fire notify none) allowance

end Way

namespace Control

open Desk Engine

variable {σ : Type} {notify inner : Notify σ} {d : Desk σ} {p : Plan} {B allowance : Nat}

/-- With timers, the call that begins a run makes its first step. -/
theorem exec_run_timed (h : d.Fresh true p) :
    exec (run notify allowance) d = ((exec (advance notify) d.begun).1.map fun _ => true,
      (exec (advance notify) d.begun).2) := by
  obtain ⟨g, hg⟩ := Option.isSome_iff_exists.1 h.waits.agenda
  have hagenda : d.agenda = some g := hg
  rw [exec_run, h.idle, h.below, hagenda]
  rfl

/-- A run without timers and confirmations is completed within its call. -/
theorem exec_complete_atOnce (h : d.Fresh false p) (hp : p.manualAck = false) (hB : p.Bounded B)
    (hroom : B + 2 ≤ allowance) (hn : Passive notify) :
    ∃ d', exec (Way.atOnce.complete notify inner allowance) d = (.ok (), d') ∧
      d'.Finished false p := by
  obtain ⟨d', hrun, hfinished⟩ := exec_run_over h hB (leads_of_passive hn hp) hroom
  exact ⟨d', by rw [Way.complete, exec_bind, hrun]; rfl, hfinished⟩

/-- A run in which each listener confirms at once is completed within its call. -/
theorem exec_complete_echo (h : d.Fresh false p) (hp : p.manualAck = true) (hB : p.Bounded B)
    (hroom : B + 2 ≤ allowance) (hn : Passive notify) :
    ∃ d', exec (Way.echo.complete notify inner allowance) d = (.ok (), d') ∧
      d'.Finished false p := by
  obtain ⟨d', hrun, hfinished⟩ := exec_run_over h hB (leads_of_echo hn hp) hroom
  exact ⟨d', by rw [Way.complete, exec_bind, hrun]; rfl, hfinished⟩

/-- A run with timers is completed by firing them. -/
theorem exec_complete_timers (h : d.Fresh true p) (hp : p.manualAck = false) (hB : p.Bounded B)
    (hroom : B + 2 ≤ allowance) (hn : Passive notify) :
    ∃ d', exec (Way.timers.complete notify inner allowance) d = (.ok (), d') ∧
      d'.Finished true p := by
  obtain ⟨ev, d₁, hadvance, hd₁⟩ := exec_advance_due hn hp h.midway h.below h.waits
  have hrun : exec (run notify allowance) d = (.ok true, d₁) := by
    rw [exec_run_timed h, hadvance]
    rfl
  rw [Way.complete, exec_bind, hrun]
  refine exec_repeatWhile (B := B) (I := fun n d => d.Due p n) (F := fun d => d.Finished true p)
    ?_ ?_ ?_ ?_ allowance 1 d₁ hd₁ ⟨?_, ?_⟩
  · exact fun n d hdue => hdue.1.le_bound hB
  · rintro n d ⟨-, -, j, hwaits, -⟩
    simp [hwaits.jobs]
  · rintro d ⟨-, hwaits⟩
    simp [hwaits.jobs]
  · intro n d hdue
    obtain ⟨r, d', hfire, hd'⟩ := exec_fire_timed hn hp hdue
    exact ⟨d', by rw [exec_bind, hfire]; rfl, hd'⟩
  · omega
  · omega

/-- A run that waits for confirmations is completed by giving them. -/
theorem exec_complete_confirmed (h : d.Fresh false p) (hp : p.manualAck = true)
    (hB : p.Bounded B) (hroom : B + 2 ≤ allowance) (hn : Passive notify) :
    ∃ d', exec (Way.confirmed.complete notify inner allowance) d = (.ok (), d') ∧
      d'.Finished false p := by
  obtain ⟨allowance, rfl⟩ : ∃ m, allowance = m + 2 := ⟨allowance - 2, by omega⟩
  obtain ⟨d₁, hdrain, hd₁⟩ := exec_drain_held allowance hn hp h.midway h.waits
  have hrun : exec (run notify (allowance + 2)) d = (.ok true, d₁) := by
    rw [exec_run_untimed h, hdrain]
    rfl
  rw [Way.complete, exec_bind, hrun]
  refine exec_repeatWhile (B := B) (I := fun n d => d.Held false p n)
    (F := fun d => d.Finished false p) ?_ ?_ ?_ ?_ (allowance + 2) 1 d₁ hd₁ ⟨?_, ?_⟩
  · exact fun n d hheld => hheld.1.le_bound hB
  · exact fun n d hheld => hheld.2.inFlight
  · exact fun d hfinished => hfinished.2.inFlight
  · exact fun n d hheld => exec_acknowledge_held allowance hn hp hheld
  · omega
  · omega

/-- A run that waits for both is completed by giving them in turn. -/
theorem exec_complete_alternating (h : d.Fresh true p) (hp : p.manualAck = true)
    (hB : p.Bounded B) (hroom : B + 2 ≤ allowance) (hn : Passive notify) :
    ∃ d', exec (Way.alternating.complete notify inner allowance) d = (.ok (), d') ∧
      d'.Finished true p := by
  obtain ⟨ev, d₁, hadvance, hd₁⟩ := exec_advance_held hn hp h.midway h.below h.waits
  have hrun : exec (run notify allowance) d = (.ok true, d₁) := by
    rw [exec_run_timed h, hadvance]
    rfl
  rw [Way.complete, exec_bind, hrun]
  refine exec_repeatWhile (B := B) (I := fun n d => d.Held true p n)
    (F := fun d => d.Finished true p) ?_ ?_ ?_ ?_ allowance 1 d₁ hd₁ ⟨?_, ?_⟩
  · exact fun n d hheld => hheld.1.le_bound hB
  · intro n d hheld
    simp [hheld.2.inFlight]
  · intro d hfinished
    simp [hfinished.2.inFlight, hfinished.2.jobs]
  · intro n d hheld
    obtain ⟨d₂, hacknowledge, hd₂⟩ :=
      exec_acknowledge_timed notify allowance hheld
    rw [exec_bind, hacknowledge]
    simp only
    rcases hd₂ with hdue | hfinished
    · obtain ⟨r, d', hfire, hd'⟩ := exec_fire_held hn hp hdue
      exact ⟨d', by rw [exec_bind, hfire]; rfl, hd'⟩
    · have hfire := exec_fire_of_jobs_eq_nil notify hfinished.2.jobs
      exact ⟨d₂, by rw [exec_bind, hfire]; rfl, Or.inr hfinished⟩
  · omega
  · omega

/-- Every way comes to the end of the run, if its engine has timers and asks for confirmations as
the way needs. -/
theorem exec_complete (way : Way) (h : d.Fresh way.timed p) (hp : p.manualAck = way.manualAck)
    (hB : p.Bounded B) (hroom : B + 2 ≤ allowance) (hn : Passive notify) :
    ∃ d', exec (way.complete notify inner allowance) d = (.ok (), d') ∧
      d'.Finished way.timed p := by
  cases way with
  | atOnce => exact exec_complete_atOnce h hp hB hroom hn
  | timers => exact exec_complete_timers h hp hB hroom hn
  | echo => exact exec_complete_echo h hp hB hroom hn
  | confirmed => exact exec_complete_confirmed h hp hB hroom hn
  | alternating => exact exec_complete_alternating h hp hB hroom hn

end Control

/-- A run that has a limit, or whose computation halts, takes a bounded number of transitions. -/
theorem exists_bounded {a : Automaton} {w : Text} {maxSteps : Option Int} (ha : a.Typed)
    (hends : (∃ N ≥ 1, maxSteps = some N) ∨ maxSteps = none ∧ ∃ k v, Halts a w k v) :
    (∀ N, maxSteps = some N → 1 ≤ N) ∧
      ∃ B, ∀ manualAck, Engine.Plan.Bounded ⟨a, w, 1, maxSteps, manualAck⟩ B := by
  rcases hends with ⟨N, hN, rfl⟩ | ⟨rfl, k, v, hhalts⟩
  · refine ⟨fun M hM => ?_, N.toNat, fun _ => Engine.Plan.bounded_of_limit rfl⟩
    exact Option.some.inj hM ▸ hN
  · refine ⟨fun _ hN => ?_, k, fun _ => Engine.Plan.bounded_of_halts ha hhalts⟩
    cases hN

open Control in
/-- All ways of completing an automatic run of a well-formed automaton agree, if the run has a limit
or the computation halts : they return with the same events, status, counters and configuration, the
run no longer goes on, and neither a step in flight nor a timer is left. -/
theorem completions_agree {a : Automaton} {w : Text} {maxSteps : Option Int} (ha : a.Typed)
    (hv : a.validate = .ok ()) (hends : (∃ N ≥ 1, maxSteps = some N) ∨
      maxSteps = none ∧ ∃ k v, Halts a w k v) :
    ∃ es c v bound, Capped a w 1 maxSteps es c v ∧
      ∀ (way : Way) (allowance : Nat), bound ≤ allowance →
        ∀ {σ : Type} (delay : Int) (agenda : Option Agenda) (owner : Nat) (outside : σ)
          (notify inner : Notify σ), agenda.isSome = way.timed →
          (∀ g, agenda = some g → g.jobs = []) → Passive notify →
          ∃ d d', Desk.start a w delay way.manualAck maxSteps agenda owner outside = .ok d ∧
            exec (way.complete notify inner allowance) d = (.ok (), d') ∧
            d'.engine.history.toList = es ∧ d'.engine.status = v ∧ d'.engine.config = c ∧
            d'.engine.steps = Computation.transitions es ∧
            d'.engine.consumed = Engine.reach a.formalism es c ∧
            d'.engine.running = false ∧ d'.engine.inFlight = false ∧ d'.jobs = [] := by
  obtain ⟨hlimit, B, hB⟩ := exists_bounded ha hends
  obtain ⟨es, c, v, hcapped⟩ : ∃ es c v, Capped a w 1 maxSteps es c v := by
    have hfresh : Desk.Fresh false ⟨a, w, 1, maxSteps, false⟩
        (⟨.new a w 0 false maxSteps, none, 0, [], ()⟩ : Desk Unit) :=
      Desk.fresh_of_new ha hlimit rfl rfl rfl
    have hquiet : Passive (fun _ => pure () : Notify Unit) := fun _ d => ⟨d.outside, rfl⟩
    obtain ⟨d', -, hover, -⟩ :=
      exec_run_over hfresh (hB false) (leads_of_passive hquiet rfl) (Nat.le_refl _)
    exact ⟨_, _, _, hover.capped⟩
  refine ⟨es, c, v, B + 2, hcapped, ?_⟩
  intro way allowance hroom σ delay agenda owner outside notify inner hagenda hjobs hn
  let d : Desk σ := ⟨.new a w delay way.manualAck maxSteps, agenda, owner,
    [(Engine.new a w delay way.manualAck maxSteps).readyNote], outside⟩
  have hnil : d.jobs = [] := by
    cases hg : agenda with
    | none => simp [Desk.jobs, d, hg]
    | some g => simp [Desk.jobs, d, hg, hjobs g hg]
  have hfresh : d.Fresh way.timed ⟨a, w, 1, maxSteps, way.manualAck⟩ :=
    Desk.fresh_of_new ha hlimit rfl hagenda hnil
  obtain ⟨d', hcomplete, hover, hwaits⟩ := exec_complete way hfresh rfl (hB _) hroom hn
  obtain ⟨rfl, rfl, rfl⟩ := hcapped.unique ha hover.capped
  exact ⟨d, d', Desk.start_of_valid hv w delay _ maxSteps agenda owner outside, hcomplete, rfl, rfl,
    rfl, hover.steps, hover.consumed, hover.running, hwaits.inFlight, hwaits.jobs⟩

open Control in
/-- The limit is reached with the last letter, so that no way sees the computation halt. -/
theorem completions_agree_evenA :
    let quiet : Notify Unit := fun _ => pure ()
    let agenda (way : Way) : Option Agenda := if way.timed then some (.empty true) else none
    Catalog.evenA.automaton.Typed ∧ Catalog.evenA.automaton.validate = .ok () ∧
      ∃ es c v bound, Capped Catalog.evenA.automaton "aa" 1 (some 2) es c v ∧
        ∀ way : Way, ∀ allowance ≥ bound, ∃ d d',
          Desk.start Catalog.evenA.automaton "aa" 200 way.manualAck (some 2) (agenda way) 0 () =
            .ok d ∧
          exec (way.complete quiet quiet allowance) d = (.ok (), d') ∧
          d'.engine.history.toList = es ∧ d'.engine.status = v ∧ d'.engine.running = false := by
  intro quiet agenda
  have ha : Catalog.evenA.automaton.Typed := by decide
  have hv : Catalog.evenA.automaton.validate = .ok () := rfl
  have hquiet : Passive quiet := fun _ d => ⟨d.outside, rfl⟩
  obtain ⟨es, c, v, bound, hcapped, hways⟩ :=
    completions_agree (w := "aa") ha hv (Or.inl ⟨2, by decide, rfl⟩)
  refine ⟨ha, hv, es, c, v, bound, hcapped, fun way allowance hroom => ?_⟩
  have hagenda : (agenda way).isSome = way.timed := by cases way <;> rfl
  have hjobs : ∀ g, agenda way = some g → g.jobs = [] := by
    intro g hg
    cases way with
    | timers => obtain rfl := Option.some.inj hg; rfl
    | alternating => obtain rfl := Option.some.inj hg; rfl
    | atOnce => cases hg
    | echo => cases hg
    | confirmed => cases hg
  obtain ⟨d, d', hd, hcomplete, hes, hstatus, -, -, -, hrunning, -⟩ :=
    hways way allowance hroom 200 (agenda way) 0 () quiet quiet hagenda hjobs hquiet
  exact ⟨d, d', hd, hcomplete, hes, hstatus, hrunning⟩

end AutomatonLab
