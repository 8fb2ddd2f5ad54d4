import AutomatonLab.Engine.Run
import AutomatonLab.Proofs.Record

/-!
# Automatic runs and their limit

An automatic run follows the computation of its automaton until that halts or the run has as many
transitions as its limit allows. The limit is looked at before the next decision, so a computation
that halts right after the last transition that is allowed is not seen to halt (`Capped`).

In the middle of an automatic run (`Engine.Midway`) the next decision leads to the middle of the run
again, or to its end (`Engine.Midway.moved`), and at the limit the run is at its end
(`Engine.Midway.over`). There is a last decision if the computation halts or there is a limit
(`Engine.Plan.Bounded`). So the loop of a run without timers returns at the end of the run
(`Control.exec_drainLoop_over`), which is the only one there is (`Capped.unique`) : `Run.history`
gives the events of the computation up to there (`history_eq_computation`).
-/

namespace AutomatonLab

/-- Where an automatic run of `a` on `w` ends : where the computation halts with fewer transitions
than the limit, or where it has as many and goes on. -/
inductive Capped (a : Automaton) (w : Text) (g : Nat) (limit : Option Int) :
    List Event → Configuration → Status → Prop where
  | halted {es : List Event} {c : Configuration} {v : Status} : Computation a w g es c v →
      v.isTerminal = true → (∀ N, limit = some N → (Computation.transitions es : Int) < N) →
      Capped a w g limit es c v
  | paused {es : List Event} {c : Configuration} : Computation a w g es c .running →
      limit = some (es.length : Int) → Capped a w g limit es c .running

/-- A run that is paused at its limit has no fewer events than one that halts below the limit. -/
theorem Computation.length_eq_of_limit {a : Automaton} {w : Text} {g : Nat} {es es' : List Event}
    {c c' : Configuration} {v : Status} (ha : a.Typed) (h : Computation a w g es c v)
    (hv : v.isTerminal = true) (hlimit : transitions es < es'.length)
    (h' : Computation a w g es' c' .running) : es.length = es'.length := by
  have hlength := h.transitions_succ_eq_length hv
  have hle := h.length_le_of_terminal ha hv h'
  omega

/-- A computation up to a limit is determined by automaton, input and limit. -/
theorem Capped.unique {a : Automaton} {w : Text} {g : Nat} {limit : Option Int}
    {es es' : List Event} {c c' : Configuration} {s s' : Status} (ha : a.Typed)
    (h : Capped a w g limit es c s) (h' : Capped a w g limit es' c' s') :
    es = es' ∧ c = c' ∧ s = s' := by
  cases h with
  | halted h hv hlimit =>
    cases h' with
    | halted h' hv' _ =>
      have hle := h.length_le_of_terminal ha hv h'
      have hge := h'.length_le_of_terminal ha hv' h
      exact h.unique ha h' (by omega)
    | paused h' hlimit' =>
      have hlt := hlimit _ hlimit'
      exact h.unique ha h' (h.length_eq_of_limit ha hv (by omega) h')
  | paused h hlimit =>
    cases h' with
    | halted h' hv' hlimit' =>
      have hlt := hlimit' _ hlimit
      exact h.unique ha h' (h'.length_eq_of_limit ha hv' (by omega) h).symm
    | paused h' hlimit' =>
      have heq := Option.some.inj (hlimit.symm.trans hlimit')
      exact h.unique ha h' (by omega)

/-- A run without a limit ends where its computation halts. -/
theorem Capped.halted_of_unlimited {a : Automaton} {w : Text} {g : Nat} {es : List Event}
    {c : Configuration} {v : Status} (h : Capped a w g none es c v) :
    Computation a w g es c v ∧ v.isTerminal = true := by
  cases h with
  | halted h hv _ => exact ⟨h, hv⟩
  | paused _ hlimit => cases hlimit

namespace Engine

/-- What a run is about, which stays the same while it lasts. -/
structure Plan where
  automaton : Automaton
  input : Text
  generation : Nat
  maxSteps : Option Int
  manualAck : Bool

/-- What an automatic run of the engine goes by. -/
def plan (e : Engine) : Plan :=
  ⟨e.automaton, e.input, e.generation, e.maxSteps, e.manualAck⟩

/-- No more than `B` transitions can be taken before the computation halts or the limit is
reached. -/
def Plan.Bounded (p : Plan) (B : Nat) : Prop :=
  ∀ {es c s}, Computation p.automaton p.input p.generation es c s → s.isTerminal = false →
    (∀ N, p.maxSteps = some N → (es.length : Int) ≤ N) → es.length ≤ B

/-- The engine is in the middle of an automatic run, after `n` transitions. -/
structure Midway (p : Plan) (n : Nat) (e : Engine) : Prop where
  plan : e.plan = p
  records : ∃ s, e.Records s ∧ s.isTerminal = false
  running : e.running = true
  status : e.status = .running
  size : e.history.size = n
  within : ∀ N, p.maxSteps = some N → 1 ≤ N ∧ (n : Int) ≤ N

/-- The engine is at the end of an automatic run. -/
structure Over (p : Plan) (e : Engine) : Prop where
  plan : e.plan = p
  running : e.running = false
  capped : Capped p.automaton p.input p.generation p.maxSteps e.history.toList e.config e.status
  steps : e.steps = Computation.transitions e.history.toList
  consumed : e.consumed = reach p.automaton.formalism e.history.toList e.config

variable {p : Plan} {B n : Nat} {e e' : Engine}

/-- A limit bounds the number of transitions. -/
theorem Plan.bounded_of_limit {N : Int} (hp : p.maxSteps = some N) : p.Bounded N.toNat := by
  intro es c s _ _ hwithin
  have := hwithin N hp
  omega

/-- A plan is bounded if its automaton halts on the input. -/
theorem Plan.bounded_of_halts {k : Nat} {v : Status} (ha : p.automaton.Typed)
    (h : Halts p.automaton p.input k v) : p.Bounded k := by
  obtain ⟨g, es, c, hes, hv, hlength⟩ := h
  intro es' c' s' h' hs' _
  have hes' := hes.retag p.generation
  have hle := hes'.length_le_of_terminal ha hv h'
  rw [List.length_map] at hle
  rcases Nat.lt_or_ge es'.length es.length with hlt | hge
  · omega
  · obtain ⟨-, -, rfl⟩ := hes'.unique ha h' (by rw [List.length_map]; omega)
    exact absurd hv (by simp [hs'])

/-- The record of a run on its way is the beginning of the computation. -/
theorem Midway.computation (h : e.Midway p n) :
    ∃ s, Computation p.automaton p.input p.generation e.history.toList e.config s ∧
      s.isTerminal = false ∧ e.history.toList.length = n ∧ e.steps = n := by
  obtain ⟨s, hrecords, hs⟩ := h.records
  have hlength : e.history.toList.length = n := by simpa using h.size
  obtain rfl := h.plan
  refine ⟨s, hrecords.computation, hs, hlength, ?_⟩
  rw [hrecords.steps, hrecords.computation.transitions_eq_length hs, hlength]

/-- A run on its way has not passed its bound. -/
theorem Midway.le_bound (h : e.Midway p n) (hB : p.Bounded B) : n ≤ B := by
  obtain ⟨s, hcomputation, hs, hlength, -⟩ := h.computation
  rw [← hlength]
  refine hB hcomputation hs fun N hN => ?_
  rw [hlength]
  exact (h.within N hN).2

theorem Midway.sameRun (h : e.Midway p n) (hrun : e.SameRun e') (hrunning : e'.running = e.running)
    (hstatus : e'.status = e.status) : e'.Midway p n := by
  obtain ⟨s, hrecords, hs⟩ := h.records
  have hplan : e'.plan = e.plan := by rw [hrun]; rfl
  have hsize : e'.history.size = e.history.size := by rw [hrun]
  exact ⟨hplan.trans h.plan, ⟨s, hrecords.sameRun hrun, hs⟩, hrunning.trans h.running,
    hstatus.trans h.status, hsize.trans h.size, h.within⟩

theorem Over.sameRun (h : e.Over p) (hrun : e.SameRun e') (hrunning : e'.running = e.running)
    (hstatus : e'.status = e.status) : e'.Over p := by
  rw [hrun, hrunning, hstatus]
  exact ⟨h.plan, h.running, h.capped, h.steps, h.consumed⟩

/-- At the limit the run is at its end, once it does not go on. -/
theorem Midway.over (h : e.Midway p n) (hlimit : e.atLimit = true) :
    ({ e with running := false }).Over p := by
  obtain ⟨s, hcomputation, hs, hlength, hsteps⟩ := h.computation
  have hplan := h.plan
  obtain ⟨N, hN, hle⟩ : ∃ N, p.maxSteps = some N ∧ N ≤ (n : Int) := by
    rw [atLimit, hsteps, Option.any_eq_true] at hlimit
    obtain ⟨N, hN, hle⟩ := hlimit
    exact ⟨N, by rw [← hplan]; exact hN, by simpa using hle⟩
  obtain ⟨hone, hge⟩ := h.within N hN
  obtain rfl : N = n := by omega
  have hrunning : s = .running := by
    rcases Status.eq_of_not_terminal hs with rfl | rfl
    · have hempty := hcomputation.ready_iff.1 rfl
      rw [hempty] at hlength
      simp only [List.length_nil] at hlength
      omega
    · rfl
  obtain ⟨s', hrecords, -⟩ := h.records
  rw [hrunning] at hcomputation
  refine ⟨hplan, rfl, ?_, hrecords.steps, ?_⟩
  · have hstatus : ({ e with running := false } : Engine).status = .running := h.status
    rw [hstatus]
    exact .paused hcomputation (by rw [hN, hlength])
  · rw [← hplan]
    exact hrecords.consumed

/-- A decision below the limit leads to the middle of the run again, or to its end. -/
theorem Midway.moved (h : e.Midway p n) (hlimit : e.atLimit = false) {t : Option Transition}
    {c' : Configuration} {s' : Status} (hstep : Step e.automaton e.config t c' s') :
    t.isSome = true ∧ (e.moved t c' s').Midway p (n + 1) ∨
      t = none ∧ (e.moved t c' s').Over p := by
  obtain ⟨s, hrecords, hs⟩ := h.records
  obtain ⟨-, -, -, -, hsteps⟩ := h.computation
  have hmoved := hrecords.moved hs hstep
  have hplan : (e.moved t c' s').plan = p := by
    rw [← h.plan]
    simp only [Engine.plan, Engine.input, Engine.moved, hstep.input_eq]
  have hbelow : ∀ N, p.maxSteps = some N → 1 ≤ N ∧ (n : Int) < N := by
    intro N hN
    refine ⟨(h.within N hN).1, ?_⟩
    rw [← h.plan] at hN
    have hN' : e.maxSteps = some N := hN
    simpa [atLimit, hN', hsteps] using hlimit
  rcases hstep.status_cases with ⟨⟨u, rfl⟩, rfl⟩ | ⟨rfl, hterminal, rfl⟩
  · refine Or.inl ⟨rfl, hplan, ⟨.running, hmoved, rfl⟩, ?_, rfl, ?_, ?_⟩
    · simpa [Engine.moved, Status.isTerminal] using h.running
    · simp [Engine.moved, h.size]
    · intro N hN
      have := hbelow N hN
      omega
  · have hstill : (e.moved none e.config s').steps = n := by simp [Engine.moved, hsteps]
    have hended : (e.moved none e.config s').running = false := by simp [Engine.moved, hterminal]
    obtain rfl := hplan
    refine Or.inr ⟨rfl, rfl, hended, .halted hmoved.computation hterminal ?_, hmoved.steps,
      hmoved.consumed⟩
    intro N hN
    rw [← hmoved.steps, hstill]
    exact (hbelow N hN).2

end Engine

namespace Desk

open Engine

variable {σ : Type} {d : Desk σ} {p : Plan} {n : Nat}

/-- What a run waits for : the step in flight, and the timer. -/
structure Waits (timed looping inFlight : Bool) (timer : Option Job) (d : Desk σ) : Prop where
  agenda : d.agenda.isSome = timed
  draining : d.engine.draining = looping
  inFlight : d.engine.inFlight = inFlight
  pending : d.engine.pending = timer.map Job.handle
  jobs : d.jobs = timer.toList

variable {timed looping inFlight : Bool} {timer : Option Job}

theorem Waits.agenda_eq_none (h : d.Waits false looping inFlight timer) : d.agenda = none :=
  Option.isSome_eq_false_iff.1 h.agenda |> Option.isNone_iff_eq_none.1

theorem Waits.drains (h : d.Waits timed looping inFlight timer) (b : Bool) :
    (d.drains b).Waits timed b inFlight timer :=
  ⟨h.agenda, rfl, h.inFlight, h.pending, h.jobs⟩

theorem Waits.outside (h : d.Waits timed looping inFlight timer) (x : σ) :
    ({ d with outside := x } : Desk σ).Waits timed looping inFlight timer :=
  ⟨h.agenda, h.draining, h.inFlight, h.pending, h.jobs⟩

/-- A decision on the way leads on by a transition, or to the end of the run. -/
theorem decide_midway (h : d.engine.Midway p n) (hlimit : d.engine.atLimit = false)
    (hwaits : d.Waits timed looping inFlight timer) :
    ∃ ev d', d.decide = (.ok ev, d') ∧ d'.Waits timed looping inFlight timer ∧
      (ev.transition.isSome = true ∧ d'.engine.Midway p (n + 1) ∨
        ev.transition = none ∧ d'.engine.Over p) := by
  obtain ⟨s, hrecords, hs⟩ := h.records
  obtain ⟨t, c', s', log, hstep, hdecide⟩ := exists_decide hrecords (by rw [h.status]; rfl)
  have hmoved := h.moved hlimit hstep
  refine ⟨_, _, hdecide, ?_, hmoved⟩
  exact ⟨hwaits.agenda, hwaits.draining, hwaits.inFlight, hwaits.pending, hwaits.jobs⟩

/-- At the limit an automatic run that waits for nothing ends. -/
theorem observeLimit_over (h : d.engine.Midway p n) (hlimit : d.engine.atLimit = true)
    (hwaits : d.Waits timed looping false none) :
    d.observeLimit.engine.Over p ∧ d.observeLimit.Waits timed looping false none := by
  rw [observeLimit, if_pos hlimit]
  refine ⟨h.over hlimit, ?_⟩
  exact ⟨hwaits.agenda, hwaits.draining, hwaits.inFlight, hwaits.pending, hwaits.jobs⟩

theorem goOn_of_untimed (h : d.agenda = none) : d.goOn = d := by
  rw [goOn, scheduleNext, h]
  exact ite_self d

theorem launch_of_not_manualAck (h : d.engine.manualAck = false) (ev : Event) :
    d.launch ev = d := by
  rw [launch, h, Bool.and_false]
  rfl

theorem launch_of_transition (h : d.engine.manualAck = true) {ev : Event}
    (hev : ev.transition.isSome = true) :
    d.launch ev = { d with engine := { d.engine with inFlight := true } } := by
  rw [launch, h, hev]
  rfl

theorem launch_of_halt {ev : Event} (hev : ev.transition = none) : d.launch ev = d := by
  rw [launch, hev]
  rfl

/-- A transition is in flight from now on if it has to be confirmed. -/
theorem launch_midway (h : d.engine.Midway p n) (hwaits : d.Waits timed looping false none)
    {ev : Event} (hev : ev.transition.isSome = true) :
    (d.launch ev).engine.Midway p n ∧ (d.launch ev).Waits timed looping p.manualAck none := by
  have hack : d.engine.manualAck = p.manualAck := by rw [← h.plan]; rfl
  cases hmanual : p.manualAck with
  | false =>
    rw [launch_of_not_manualAck (hack.trans hmanual)]
    exact ⟨h, hwaits⟩
  | true =>
    rw [launch_of_transition (hack.trans hmanual) hev]
    refine ⟨h.sameRun rfl rfl rfl, ?_⟩
    exact ⟨hwaits.agenda, hwaits.draining, rfl, hwaits.pending, hwaits.jobs⟩

/-! ## The beginning of a run -/

/-- The engine is at the start of a run whose limit allows a step, and waits for nothing. -/
structure Fresh (timed : Bool) (p : Plan) (d : Desk σ) : Prop where
  midway : d.begun.engine.Midway p 0
  waits : d.begun.Waits timed false false none
  idle : (d.engine.inFlight || d.engine.running || d.engine.status.isTerminal) = false
  below : d.engine.atLimit = false

/-- A new engine has its run before it. -/
theorem fresh_of_new {a : Automaton} {w : Text} {delay : Int} {manualAck : Bool}
    {maxSteps : Option Int} (ha : a.Typed) (hlimit : ∀ N, maxSteps = some N → 1 ≤ N)
    (hd : d.engine = .new a w delay manualAck maxSteps) (hagenda : d.agenda.isSome = timed)
    (hjobs : d.jobs = []) : d.Fresh timed ⟨a, w, 1, maxSteps, manualAck⟩ := by
  have hrecords : d.engine.Records .ready := by
    rw [hd]
    exact records_start ha rfl rfl rfl rfl
  refine ⟨⟨?_, ⟨.ready, hrecords.sameRun rfl, rfl⟩, rfl, rfl, ?_, ?_⟩, ⟨hagenda, ?_, ?_, ?_, hjobs⟩,
    ?_, ?_⟩
  · simp only [begun, note, hd]
    rfl
  · simp only [begun, note, hd]
    rfl
  · intro N hN
    have := hlimit N hN
    exact ⟨this, by omega⟩
  · simp [begun, note, hd, Engine.new]
  · simp [begun, note, hd, Engine.new]
  · simp [begun, note, hd, Engine.new]
  · rw [hd]
    rfl
  · rw [hd]
    cases maxSteps with
    | none => rfl
    | some N =>
      have := hlimit N rfl
      exact decide_eq_false (show ¬N ≤ ((0 : Nat) : Int) by omega)

end Desk

namespace Control

open Desk Engine

variable {σ : Type} {notify : Notify σ} {p : Plan} {B : Nat}

/-- Without timers the events of a step lead an automatic run on, and nobody interferes. -/
def Leads (p : Plan) (notify : Notify σ) : Prop :=
  ∀ {d : Desk σ} {n : Nat}, d.engine.Midway p n → d.engine.atLimit = false →
    d.Waits false true false none →
    ∃ ev d', exec (advance notify) d = (.ok ev, d') ∧ d'.Waits false true false none ∧
      (d'.engine.Midway p (n + 1) ∨ d'.engine.Over p)

/-- The listener at most keeps notes of its own. -/
def Passive (notify : Notify σ) : Prop :=
  ∀ ev d, ∃ x, exec (notify ev) d = (.ok (), { d with outside := x })

/-- A step of which passive listeners are told, before the run goes on. -/
theorem exec_advance_passive {d : Desk σ} {n : Nat} {timed looping : Bool} (hn : Passive notify)
    (h : d.engine.Midway p n) (hlimit : d.engine.atLimit = false)
    (hwaits : d.Waits timed looping false none) :
    ∃ ev, ∃ d' : Desk σ, exec (advance notify) d = (.ok ev, d'.goOn) ∧
      (d'.engine.Midway p (n + 1) ∧ d'.Waits timed looping p.manualAck none ∨
        d'.engine.Over p ∧ d'.Waits timed looping false none) := by
  obtain ⟨ev, d₁, hdecide, hwaits₁, hd₁⟩ := decide_midway h hlimit hwaits
  obtain ⟨x, htell⟩ := hn ev (d₁.launch ev)
  refine ⟨ev, { d₁.launch ev with outside := x }, ?_, ?_⟩
  · rw [exec_advance, hdecide]
    simp only [htell]
  · rcases hd₁ with ⟨htaken, hmidway⟩ | ⟨hhalt, hover⟩
    · obtain ⟨hmidway', hw⟩ := launch_midway hmidway hwaits₁ htaken
      exact Or.inl ⟨hmidway', hw.outside x⟩
    · rw [launch_of_halt hhalt]
      exact Or.inr ⟨hover, hwaits₁.outside x⟩

/-- Listeners that do nothing are no obstacle for a run that needs no confirmations. -/
theorem leads_of_passive (hn : Passive notify) (hp : p.manualAck = false) : Leads p notify := by
  intro d n h hlimit hwaits
  obtain ⟨ev, d', hadvance, hd'⟩ := exec_advance_passive hn h hlimit hwaits
  rw [hp] at hd'
  have hwaits' : d'.Waits false true false none := by
    rcases hd' with ⟨-, hw⟩ | ⟨-, hw⟩ <;> exact hw
  rw [goOn_of_untimed hwaits'.agenda_eq_none] at hadvance
  refine ⟨ev, d', hadvance, hwaits', ?_⟩
  rcases hd' with ⟨hmidway, -⟩ | ⟨hover, -⟩
  · exact Or.inl hmidway
  · exact Or.inr hover

/-- At the end of a run there is nothing to go on with. -/
theorem exec_drainLoop_of_over {d : Desk σ} (h : d.engine.Over p) (allowance : Nat) :
    exec (drainLoop notify (allowance + 1)) d = (.ok (), d) := by
  rw [exec_drainLoop_succ, h.running]
  rfl

/-- The loop of a run without timers returns at the end of the run. Each round uses up one of the
allowance and takes one transition. -/
theorem exec_drainLoop_over (hB : p.Bounded B) (hn : Leads p notify) :
    ∀ (allowance n : Nat) (d : Desk σ), d.engine.Midway p n → d.Waits false true false none →
      B + 2 ≤ allowance + n →
      ∃ d', exec (drainLoop notify allowance) d = (.ok (), d') ∧ d'.engine.Over p ∧
        d'.Waits false true false none
  | 0, n, d, h, _, hroom => by
    have := h.le_bound hB
    omega
  | allowance + 1, n, d, h, hwaits, hroom => by
    have hle := h.le_bound hB
    rw [exec_drainLoop_succ, h.running, hwaits.inFlight, h.status]
    cases hlimit : d.engine.atLimit with
    | true =>
      obtain ⟨hover, hwaits'⟩ := observeLimit_over h hlimit hwaits
      exact ⟨_, rfl, hover, hwaits'⟩
    | false =>
      obtain ⟨ev, d₁, hadvance, hwaits₁, hd₁⟩ := hn h hlimit hwaits
      have hloop : exec (advance notify >>= fun _ => drainLoop notify allowance) d =
          exec (drainLoop notify allowance) d₁ := by rw [exec_bind, hadvance]
      show ∃ d', exec (advance notify >>= fun _ => drainLoop notify allowance) d = _ ∧ _
      rw [hloop]
      rcases hd₁ with hmidway | hover
      · exact exec_drainLoop_over hB hn allowance (n + 1) d₁ hmidway hwaits₁ (by omega)
      · obtain ⟨allowance, rfl⟩ : ∃ k, allowance = k + 1 := ⟨allowance - 1, by omega⟩
        exact ⟨d₁, exec_drainLoop_of_over hover allowance, hover, hwaits₁⟩

/-- The loop of a run without timers returns nowhere else, however small its allowance is. -/
theorem over_of_exec_drainLoop (hn : Leads p notify) :
    ∀ (allowance n : Nat) (d d' : Desk σ), d.engine.Midway p n → d.Waits false true false none →
      exec (drainLoop notify allowance) d = (.ok (), d') → d'.engine.Over p
  | 0, _, _, _, _, _, hloop => nomatch congrArg Prod.fst hloop
  | allowance + 1, n, d, d', h, hwaits, hloop => by
    rw [exec_drainLoop_succ, h.running, hwaits.inFlight, h.status] at hloop
    cases hlimit : d.engine.atLimit with
    | true =>
      rw [hlimit] at hloop
      obtain rfl := congrArg Prod.snd hloop
      exact (observeLimit_over h hlimit hwaits).1
    | false =>
      obtain ⟨ev, d₁, hadvance, hwaits₁, hd₁⟩ := hn h hlimit hwaits
      rw [hlimit] at hloop
      have hrest : exec (drainLoop notify allowance) d₁ = (.ok (), d') := by
        rw [← hloop]
        show _ = exec (advance notify >>= fun _ => drainLoop notify allowance) d
        rw [exec_bind, hadvance]
      rcases hd₁ with hmidway | hover
      · exact over_of_exec_drainLoop hn allowance (n + 1) d₁ d' hmidway hwaits₁ hrest
      · cases allowance with
        | zero => exact nomatch congrArg Prod.fst hrest
        | succ allowance =>
          rw [exec_drainLoop_of_over hover] at hrest
          obtain rfl := congrArg Prod.snd hrest
          exact hover

/-- Without timers, a run makes all its steps within the call. -/
theorem exec_run_untimed {d : Desk σ} {allowance : Nat} (h : d.Fresh false p) :
    exec (run notify allowance) d = ((exec (drain notify allowance) d.begun).1.map fun _ => true,
      (exec (drain notify allowance) d.begun).2) := by
  have hagenda : d.agenda = none := h.waits.agenda_eq_none
  rw [exec_run, h.idle, h.below, hagenda]
  rfl

/-- An automatic run without timers, whose steps nobody has to confirm from outside, returns at its
end. -/
theorem exec_run_over {d : Desk σ} {allowance : Nat} (h : d.Fresh false p) (hB : p.Bounded B)
    (hn : Leads p notify) (hroom : B + 2 ≤ allowance) :
    ∃ d', exec (run notify allowance) d = (.ok true, d') ∧ d'.engine.Over p ∧
      d'.Waits false false false none := by
  obtain ⟨d', hloop, hover, hwaits⟩ := exec_drainLoop_over hB hn allowance 0 (d.begun.drains true)
    (h.midway.sameRun rfl rfl rfl) (h.waits.drains true) hroom
  refine ⟨d'.drains false, ?_, hover.sameRun rfl rfl rfl, hwaits.drains false⟩
  rw [exec_run_untimed h, exec_drain, hloop]
  rfl

/-- A call that returns has brought the run to its end. -/
theorem over_of_exec_run {d d' : Desk σ} {allowance : Nat} {r : Bool} (h : d.Fresh false p)
    (hn : Leads p notify) (hrun : exec (run notify allowance) d = (.ok r, d')) :
    d'.engine.Over p := by
  rw [exec_run_untimed h, exec_drain] at hrun
  rcases hloop : exec (drainLoop notify allowance) (d.begun.drains true) with ⟨fault | ⟨⟩, d₁⟩
  · rw [hloop] at hrun
    exact nomatch congrArg Prod.fst hrun
  · have hover := over_of_exec_drainLoop hn allowance 0 (d.begun.drains true) d₁
      (h.midway.sameRun rfl rfl rfl) (h.waits.drains true) hloop
    rw [hloop] at hrun
    obtain rfl := congrArg Prod.snd hrun
    exact hover.sameRun rfl rfl rfl

end Control

/-! ## Whole runs -/

section History

variable {a : Automaton} {w : Text} {maxSteps : Option Int} {allowance : Nat}

/-- The history of a run is that of the engine when the call has returned. -/
theorem history_of_run (hv : a.validate = .ok ()) {r : Bool} {d' : Desk Unit}
    (hrun : Control.exec (Control.run (fun _ => pure ())
        (maxSteps.elim allowance Run.allowanceFor))
      (.new a w Engine.defaultDelay false maxSteps none 0 ()) = (.ok r, d')) :
    (Run.history allowance a w maxSteps).result =
      .ok (d'.engine.history.toList, d'.engine.status) := by
  rw [Run.history, Desk.start_of_valid hv]
  simp only [hrun]
  rfl

/-- A run that comes to its end gives the events of the capped computation. -/
theorem history_over {B : Nat} (ha : a.Typed) (hv : a.validate = .ok ())
    (hlimit : ∀ N, maxSteps = some N → 1 ≤ N)
    (hB : Engine.Plan.Bounded ⟨a, w, 1, maxSteps, false⟩ B)
    (hroom : B + 2 ≤ maxSteps.elim allowance Run.allowanceFor) :
    ∃ es c v, Capped a w 1 maxSteps es c v ∧
      (Run.history allowance a w maxSteps).result = .ok (es, v) := by
  have hquiet : Control.Passive (fun _ => pure () : Control.Notify Unit) :=
    fun _ d => ⟨d.outside, rfl⟩
  have hfresh : Desk.Fresh false ⟨a, w, 1, maxSteps, false⟩
      (.new a w Engine.defaultDelay false maxSteps none 0 () : Desk Unit) :=
    Desk.fresh_of_new ha hlimit rfl rfl rfl
  obtain ⟨d', hrun, hover, -⟩ :=
    Control.exec_run_over hfresh hB (Control.leads_of_passive hquiet rfl) hroom
  exact ⟨_, _, _, hover.capped, history_of_run hv hrun⟩

/-- Whatever its allowance is, a run without a limit only returns the events of a computation that
has halted. -/
theorem computation_of_history (ha : a.Typed) (hv : a.validate = .ok ()) {es : List Event}
    {v : Status} (hresult : (Run.history allowance a w none).result = .ok (es, v)) :
    ∃ c, Computation a w 1 es c v ∧ v.isTerminal = true := by
  have hquiet : Control.Passive (fun _ => pure () : Control.Notify Unit) :=
    fun _ d => ⟨d.outside, rfl⟩
  have hfresh : Desk.Fresh false ⟨a, w, 1, none, false⟩
      (.new a w Engine.defaultDelay false none none 0 () : Desk Unit) :=
    Desk.fresh_of_new ha (fun _ hN => nomatch hN) rfl rfl rfl
  rw [Run.history, Desk.start_of_valid hv] at hresult
  rcases hrun : Control.exec (Control.run (fun _ => pure ()) allowance)
    (.new a w Engine.defaultDelay false none none 0 () : Desk Unit) with ⟨fault | r, d'⟩
  · simp only [Option.elim_none, hrun] at hresult
    cases hresult
  · have hover := Control.over_of_exec_run hfresh (Control.leads_of_passive hquiet rfl) hrun
    simp only [Option.elim_none, hrun] at hresult
    obtain ⟨rfl, rfl⟩ := Prod.mk.inj (Except.ok.inj hresult)
    exact ⟨_, hover.capped.halted_of_unlimited⟩

/-- With a positive limit, a run always returns with the computation up to that limit. -/
theorem history_of_limit {N : Int} (allowance : Nat) (w : Text) (ha : a.Typed)
    (hv : a.validate = .ok ()) (hN : 1 ≤ N) :
    ∃ es c v, Capped a w 1 (some N) es c v ∧
      (Run.history allowance a w (some N)).result = .ok (es, v) := by
  have hlimit : ∀ M, some N = some M → 1 ≤ M := fun M hM => Option.some.inj hM ▸ hN
  exact history_over ha hv hlimit (Engine.Plan.bounded_of_limit rfl) (Nat.le_refl _)

/-- A run with a limit gives the events of the capped computation. -/
theorem history_of_capped {N : Int} (ha : a.Typed) (hv : a.validate = .ok ()) (hN : 1 ≤ N)
    {es : List Event} {c : Configuration} {v : Status} (h : Capped a w 1 (some N) es c v) :
    (Run.history allowance a w (some N)).result = .ok (es, v) := by
  obtain ⟨es', c', v', h', hresult⟩ := history_of_limit allowance w ha hv hN
  obtain ⟨rfl, -, rfl⟩ := h.unique ha h'
  exact hresult

/-- A run without a limit gives the events of the computation, if that halts. -/
theorem history_of_halts {k : Nat} (ha : a.Typed) (hv : a.validate = .ok ())
    (hroom : k + 2 ≤ allowance) {es : List Event} {c : Configuration} {v : Status}
    (h : Computation a w 1 es c v) (hterminal : v.isTerminal = true) (hlength : es.length = k + 1) :
    (Run.history allowance a w none).result = .ok (es, v) := by
  have hB : Engine.Plan.Bounded ⟨a, w, 1, none, false⟩ k :=
    Engine.Plan.bounded_of_halts ha ⟨1, es, c, h, hterminal, hlength⟩
  have hlimit : ∀ N : Int, none = some N → 1 ≤ N := fun _ hN => nomatch hN
  obtain ⟨es', c', v', h', hresult⟩ := history_over ha hv hlimit hB hroom
  have hcapped : Capped a w 1 none es c v := .halted h hterminal fun _ hN => nomatch hN
  obtain ⟨rfl, -, rfl⟩ := hcapped.unique ha h'
  exact hresult

/-- Without a single transition allowed, the run does not begin. -/
theorem history_of_nonpos {N : Int} (hv : a.validate = .ok ()) (hN : N ≤ 0) :
    (Run.history allowance a w (some N)).result = .ok ([], .ready) := by
  have hlimit : (Engine.new a w Engine.defaultDelay false (some N)).atLimit = true :=
    decide_eq_true hN
  let d : Desk Unit := ⟨.new a w Engine.defaultDelay false (some N), none, 0,
    [(Engine.new a w Engine.defaultDelay false (some N)).readyNote], ()⟩
  have hrun : Control.exec (Control.run (fun _ => pure ())
      ((some N).elim allowance Run.allowanceFor)) d = (.ok false, d.observeLimit) := by
    rw [Control.exec_run]
    simp only [d, hlimit]
    rfl
  have hstay : d.observeLimit.engine = { d.engine with running := false } := by
    rw [Desk.observeLimit, if_pos hlimit]
    rfl
  rw [history_of_run hv hrun, hstay]
  rfl

/-- The generation of the events does not matter for the end of a computation. -/
theorem halts_iff {k : Nat} {v : Status} : Halts a w k v ↔
    ∃ es c, Computation a w 1 es c v ∧ v.isTerminal = true ∧ es.length = k + 1 := by
  constructor
  · rintro ⟨g, es, c, h, hv, hlength⟩
    exact ⟨_, c, h.retag 1, hv, by rw [List.length_map, hlength]⟩
  · rintro ⟨es, c, h, hv, hlength⟩
    exact ⟨1, es, c, h, hv, hlength⟩

/-- A word is accepted if the computation accepts it before the usual limit is seen. -/
theorem accepts_iff (ha : a.Typed) (hv : a.validate = .ok ()) :
    ∃ b, (Run.accepts a w).result = .ok b ∧ (b = true ↔ ∃ k ≤ 999, Halts a w k .accepted) := by
  obtain ⟨es, c, v, h, hresult⟩ :=
    history_of_limit 0 w ha hv (show 1 ≤ Engine.defaultMaxSteps by decide)
  refine ⟨v == .accepted, ?_, ?_⟩
  · simp only [Run.accepts, bind, hresult]
    rfl
  · rw [beq_iff_eq]
    constructor
    · rintro rfl
      cases h with
      | halted h hterminal hlimit =>
        have hlt := hlimit _ rfl
        have hlength := h.transitions_succ_eq_length hterminal
        simp only [Engine.defaultMaxSteps] at hlt
        exact ⟨_, by omega, halts_iff.2 ⟨es, c, h, hterminal, hlength.symm⟩⟩
    · rintro ⟨k, hk, hhalts⟩
      obtain ⟨es', c', h', hterminal, hlength⟩ := halts_iff.1 hhalts
      have hlength' := h'.transitions_succ_eq_length hterminal
      have hcapped : Capped a w 1 (some Engine.defaultMaxSteps) es' c' .accepted := by
        refine .halted h' hterminal fun N hN => ?_
        obtain rfl := Option.some.inj hN
        simp only [Engine.defaultMaxSteps]
        omega
      exact (h.unique ha hcapped).2.2

/-- A run with a limit of `N` transitions, or without a limit, follows the computation : with no
transition allowed nothing happens, a computation that halts after fewer than `N` transitions is
followed to its verdict, and any other one up to the transition number `N`. -/
theorem history_eq_computation (ha : a.Typed) (hv : a.validate = .ok ()) (w : Text) :
    (∀ allowance, ∀ N ≤ 0,
      (Run.history allowance a w (some N)).result = .ok ([], .ready)) ∧
    (∀ allowance limit k es c v, Computation a w 1 es c v → v.isTerminal = true →
      es.length = k + 1 →
      (limit = none ∧ k + 2 ≤ allowance ∨ ∃ N, limit = some N ∧ (k : Int) < N) →
      (Run.history allowance a w limit).result = .ok (es, v) ∧
        ∃ init, es = init ++ [⟨none, c.snapshot, v, 1⟩] ∧ init.length = k ∧
          ∀ ev ∈ init, ev.transition.isSome = true ∧ ev.status = .running) ∧
    (∀ allowance, ∀ N ≥ 1, ∀ es c, Computation a w 1 es c .running → (es.length : Int) = N →
      (Run.history allowance a w (some N)).result = .ok (es, .running)) ∧
    ∃ b, (Run.accepts a w).result = .ok b ∧ (b = true ↔ ∃ k ≤ 999, Halts a w k .accepted) := by
  refine ⟨?_, ?_, ?_, accepts_iff ha hv⟩
  · exact fun allowance N hN => history_of_nonpos hv hN
  · intro allowance limit k es c v h hterminal hlength hroom
    have htransitions := h.transitions_succ_eq_length hterminal
    constructor
    · rcases hroom with ⟨rfl, hroom⟩ | ⟨N, rfl, hN⟩
      · exact history_of_halts ha hv hroom h hterminal hlength
      · refine history_of_capped ha hv (by omega) (.halted h hterminal fun M hM => ?_)
        obtain rfl := Option.some.inj hM
        omega
    · obtain ⟨init, s₀, rfl, h₀, hs₀⟩ := h.last_of_terminal hterminal
      exact ⟨init, rfl, by simpa using hlength, h₀.transitions_of_not_terminal hs₀⟩
  · intro allowance N hN es c h hlength
    exact history_of_capped ha hv hN (.paused h (by rw [hlength]))

/-- Two letters of `a` : no step without a limit above zero, and the whole computation with the
usual one. -/
theorem history_eq_computation_evenA :
    Catalog.evenA.automaton.Typed ∧ Catalog.evenA.automaton.validate = .ok () ∧
      (∀ N ≤ 0, (Run.history 0 Catalog.evenA.automaton "aa" (some N)).result = .ok ([], .ready)) ∧
      (Run.accepts Catalog.evenA.automaton "aa").result = .ok true ∧
      ∃ k ≤ 999, Halts Catalog.evenA.automaton "aa" k .accepted := by
  have ha : Catalog.evenA.automaton.Typed := by decide
  have hv : Catalog.evenA.automaton.validate = .ok () := rfl
  obtain ⟨hnone, -, -, b, haccepts, hiff⟩ := history_eq_computation ha hv "aa"
  have hrun : (Run.accepts Catalog.evenA.automaton "aa").result = .ok true := by rfl
  refine ⟨ha, hv, hnone 0, hrun, ?_⟩
  exact hiff.1 (Except.ok.inj (haccepts.symm.trans hrun))

end History

end AutomatonLab
