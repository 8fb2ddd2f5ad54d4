import AutomatonLab.Proofs.Continuation
import AutomatonLab.Proofs.Renumbering
import AutomatonLab.Proofs.Routine

/-!
# A new run remembers nothing

A `Program` drives an engine by what it sees of it : the results of its calls, the events that its
listeners are told of, and the state of the engine (`View`). It counts the runs and the timers from
an origin, so that it may be played on an engine that has gone through other runs before
(`Program.play`).

At rest, the timers of an engine are those of the present run, whatever was played before, and even
if faults cut a run short (`Program.regular`). A reset cancels them and sets all the rest back, so
what is left of the past are the numbers that were given. Hence a program finds no difference
between an engine that was reset and a new one (`renewed_of_play`).
-/

namespace AutomatonLab

/-- What can be seen of an engine and of its timers. -/
structure View (σ : Type) where
  automaton : Automaton
  config : Configuration
  status : Status
  running : Bool
  inFlight : Bool
  steps : Nat
  consumed : Int
  generation : Nat
  history : List Event
  /-- The handles of the timers, with the times when they are due. -/
  timers : List (Nat × Int)
  outside : σ

/-- The event, with its generation counted from the origin. -/
def Origin.since (o : Origin) (ev : Event) : Event :=
  { ev with generation := ev.generation - o.generation }

namespace Desk

variable {σ : Type}

/-- The numbers that were given so far. -/
def origin (d : Desk σ) : Origin where
  generation := d.engine.generation
  handle := (d.agenda.map Agenda.issued).getD 0
  clock := (d.agenda.map Agenda.clock).getD 0
  delays := (d.agenda.map Agenda.delays).getD []

/-- What is seen of the desk, counted from the origin. -/
def view (d : Desk σ) (o : Origin) : View σ where
  automaton := d.engine.automaton
  config := d.engine.config
  status := d.engine.status
  running := d.engine.running
  inFlight := d.engine.inFlight
  steps := d.engine.steps
  consumed := d.engine.consumed
  generation := d.engine.generation - o.generation
  history := d.engine.history.toList.map o.since
  timers := d.jobs.map fun j => (j.handle - o.handle, j.due - o.clock)
  outside := d.outside

end Desk

/-- A computation made of calls on an engine, which chooses its next call by what it sees. Each call
comes with a listener, who may drive the engine too; the allowance is for the steps that an
automatic run without timers makes at once. -/
inductive Program (σ : Type) : Type → Type 1 where
  | ret {α : Type} (a : α) : Program σ α
  | bind {α β : Type} (x : Program σ α) (f : α → Program σ β) : Program σ β
  | fail {α : Type} (fault : Fault) : Program σ α
  | attempt {α : Type} (x : Program σ α) (handle : Fault → Program σ α) : Program σ α
  | look : Program σ (View σ)
  | keep (f : σ → σ) : Program σ Unit
  | decide : Program σ Event
  | step (listener : Event → Program σ Unit) : Program σ (Option Event)
  | run (listener : Event → Program σ Unit) (allowance : Nat) : Program σ Bool
  | pause : Program σ Unit
  | reset (input : Option Text) : Program σ Unit
  | acknowledge (listener : Event → Program σ Unit) (allowance : Nat) (generation : Option Int) :
      Program σ Unit
  | load (a : Automaton) (input : Option Text) : Program σ Unit
  | fire (listener : Event → Program σ Unit) (handle : Option Nat) : Program σ (Option Nat)

namespace Program

variable {σ : Type}

/-- The program is played on an engine, and counts from the origin. -/
def play (o : Origin) {α : Type} : Program σ α → Control σ α
  | ret a => pure a
  | bind x f => x.play o >>= fun a => (f a).play o
  | fail fault => throw fault
  | attempt x handle => tryCatch (x.play o) fun fault => (handle fault).play o
  | look => (Desk.view · o) <$> get
  | keep f => Control.update fun d => { d with outside := f d.outside }
  | decide => o.since <$> Control.decide
  | step listener => Option.map o.since <$> Control.step fun ev => (listener (o.since ev)).play o
  | run listener allowance => Control.run (fun ev => (listener (o.since ev)).play o) allowance
  | pause => Control.pause
  | reset input => Control.reset input
  | acknowledge listener allowance generation =>
    Control.acknowledge (fun ev => (listener (o.since ev)).play o) allowance (o.stated generation)
  | load a input => Control.load a input
  | fire listener handle =>
    Option.map (· - o.handle) <$>
      Control.fire (fun ev => (listener (o.since ev)).play o) (handle.map (o.handle + ·))

end Program

/-! ## What is left at rest -/

namespace Desk

variable {σ : Type} {d d' : Desk σ}

/-- The timers are those of the present run, and the automaton is well-formed. -/
structure Regular (d : Desk σ) : Prop where
  tracked : d.Tracked
  valid : d.engine.automaton.validate = .ok ()

/-- Nothing is said of the rest. -/
theorem Regular.same (h : d.Regular) (hagenda : d'.agenda = d.agenda)
    (hpending : d'.engine.pending = d.engine.pending)
    (hgeneration : d'.engine.generation = d.engine.generation)
    (hautomaton : d'.engine.automaton = d.engine.automaton) : d'.Regular := by
  have hjobs : d'.jobs = d.jobs := by rw [jobs, jobs, hagenda]
  refine ⟨⟨?_, ?_⟩, hautomaton ▸ h.valid⟩
  · rw [hjobs, hpending, hgeneration]
    exact h.tracked.jobs
  · rw [hagenda]
    exact h.tracked.cancels

/-- A loaded automaton leaves a regular desk. -/
theorem regular_loaded (h : d.Tracked) {a : Automaton} (ha : a.validate = .ok ())
    (input : Option Text) : (d.loaded a input).Regular :=
  ⟨tracked_of_jobs_eq_nil h.jobs_cancelPending rfl h.cancels_cancelPending, ha⟩

/-- A call leaves a regular desk, and does not leave the loop of an automatic run active. -/
theorem routine_regular : Control.Routine fun d d' : Desk σ =>
    (d.Regular → d'.Regular) ∧ (d'.engine.draining = true → d.engine.draining = true) where
  refl _ := ⟨id, id⟩
  trans h h' := ⟨h'.1 ∘ h.1, h.2 ∘ h'.2⟩
  outside _ _ := ⟨fun h => h.same rfl rfl rfl rfl, id⟩
  note _ _ := ⟨fun h => h.same rfl rfl rfl rfl, id⟩
  decide d := ⟨fun h => h.same d.leaves_decide.agenda d.leaves_decide.pending
    d.leaves_decide.generation d.leaves_decide.automaton, fun h => d.leaves_decide.draining ▸ h⟩
  launch d ev := by
    unfold launch
    split
    · exact ⟨fun h => h.same rfl rfl rfl rfl, id⟩
    · exact ⟨id, id⟩
  observeLimit d := by
    unfold observeLimit
    split
    · exact ⟨fun h => h.same rfl rfl rfl rfl, id⟩
    · exact ⟨id, id⟩
  askTimer hg hp := ⟨fun h => ⟨h.tracked.askTimer hg hp, h.valid⟩, id⟩
  begun _ := ⟨fun h => h.same rfl rfl rfl rfl, id⟩
  drains h := ⟨fun h' => (h.1 (h'.same rfl rfl rfl rfl)).same rfl rfl rfl rfl, nofun⟩
  confirmed _ := ⟨fun h => h.same rfl rfl rfl rfl, id⟩
  pause _ := ⟨fun h => ⟨Tracked.cancelPending ⟨h.tracked.jobs, h.tracked.cancels⟩, h.valid⟩, id⟩
  reset _ input := ⟨fun h => regular_loaded h.tracked h.valid input, id⟩
  load ha := ⟨fun h => regular_loaded h.tracked ha _, id⟩
  resumed hj _ := ⟨fun h => ⟨h.tracked.elapsed hj, h.valid⟩, id⟩
  settled hj htask := by
    refine ⟨fun h => ?_, id⟩
    have := (h.tracked.eq_of_mem_jobs hj).2.2
    rw [htask] at this
    cases this

end Desk

namespace Program

open Control Desk

variable {σ α : Type}

/-- What holds across each change of a desk holds across every program. -/
theorem across {R : Desk σ → Desk σ → Prop} (hR : Routine R) (o : Origin) (p : Program σ α) :
    Across R (p.play o) := by
  induction p with
  | ret => exact hR.refl
  | bind _ _ ihx ihf => exact hR.bind ihx ihf
  | fail => exact hR.refl
  | attempt _ _ ihx ihh => exact hR.tryCatch ihx ihh
  | look => exact hR.map (x := get) hR.refl _
  | keep f => exact fun d => hR.outside d (f d.outside)
  | decide => exact hR.map hR.decide _
  | step _ ih => exact hR.map (hR.step fun ev => ih (o.since ev)) _
  | run _ allowance ih => exact hR.run (fun ev => ih (o.since ev)) allowance
  | pause => exact hR.pause
  | reset input => exact fun d => hR.reset d input
  | acknowledge _ allowance generation ih =>
    exact hR.acknowledge (fun ev => ih (o.since ev)) allowance _
  | load a input => exact hR.install a input
  | fire _ handle ih => exact hR.map (hR.fire (fun ev => ih (o.since ev)) _) _

end Program

/-! ## Programs on a copy -/

namespace Origin

variable {o : Origin}

theorem since_event (ev : Event) : o.since (o.event ev) = ev := by
  simp [since, event]

theorem stated_zero (generation : Option Int) : zero.stated generation = generation := by
  simp [stated, zero]

end Origin

namespace Desk

variable {σ : Type} {o : Origin} {d e : Desk σ}

/-- A copy looks the same, counted from its origin. -/
theorem view_eq (h : Copies o d e) : d.view o = e.view .zero := by
  obtain ⟨log, rfl⟩ := h
  have hgeneration : o.generation + e.engine.generation - o.generation = e.engine.generation :=
    Nat.add_sub_cancel_left ..
  have hhistory : (e.engine.history.map o.event).toList.map o.since =
      e.engine.history.toList.map Origin.zero.since := by
    rw [Array.toList_map, List.map_map]
    exact List.map_congr_left fun ev _ => Origin.since_event ev
  have htimers : (o.desk e log).jobs.map (fun j => (j.handle - o.handle, j.due - o.clock)) =
      e.jobs.map fun j => (j.handle - Origin.zero.handle, j.due - Origin.zero.clock) := by
    cases hg : e.agenda with
    | none => simp [jobs, Origin.desk, hg]
    | some g =>
      have hjobs : (o.desk e log).jobs = e.jobs.map o.job := by
        simp [jobs, Origin.desk, hg, Origin.agenda]
      rw [hjobs, List.map_map]
      refine List.map_congr_left fun j _ => Prod.ext (Nat.add_sub_cancel_left ..) ?_
      show o.clock + j.due - o.clock = j.due - 0
      omega
  exact (View.mk.injEq ..).mpr
    ⟨rfl, rfl, rfl, rfl, rfl, rfl, rfl, hgeneration, hhistory, htimers, rfl⟩

end Desk

namespace Program

open Control Desk

variable {σ α : Type} {o : Origin}

/-- Listeners are told of the same events, counted from the origin. -/
theorem alikeTold {listener : Event → Program σ Unit}
    (h : ∀ ev, Alike o id ((listener ev).play o) ((listener ev).play .zero)) :
    AlikeTold o (fun ev => (listener (o.since ev)).play o)
      (fun ev => (listener (Origin.zero.since ev)).play .zero) := by
  intro ev
  simp only [Origin.since_event]
  exact h ev

/-- A program plays on a copy as it does on the other desk. -/
theorem alike (o : Origin) (p : Program σ α) : Alike o id (p.play o) (p.play .zero) := by
  induction p with
  | ret a => exact alike_pure id a
  | bind _ _ ihx ihf => exact alike_bind ihx ihf
  | fail fault => exact alike_throw id fault
  | attempt _ _ ihx ihh => exact alike_tryCatch ihx ihh
  | look =>
    intro d e h
    rw [play, play, exec_map, exec_map, exec_get, exec_get]
    exact ⟨congrArg Except.ok (view_eq h), h⟩
  | keep f =>
    refine alike_update fun d e h => ?_
    obtain ⟨log, rfl⟩ := h
    exact ⟨log, rfl⟩
  | decide => exact alike_map alike_decide fun ev => Origin.since_event ev
  | step _ ih =>
    refine alike_map (alike_step (alikeTold ih)) fun ev => ?_
    cases ev with
    | none => rfl
    | some ev => exact congrArg some (Origin.since_event ev)
  | run _ allowance ih => exact alike_run (alikeTold ih) allowance
  | pause => exact alike_pause
  | reset input => exact alike_reset input
  | acknowledge _ allowance generation ih =>
    rw [play, play, Origin.stated_zero]
    exact alike_acknowledge (alikeTold ih) allowance generation
  | load a input => exact alike_load a input
  | fire _ handle ih =>
    have hzero : handle.map (Origin.zero.handle + ·) = handle := by simp [Origin.zero]
    rw [play, play, hzero]
    refine alike_map (alike_fire (alikeTold ih) handle) fun n => ?_
    cases n with
    | none => rfl
    | some n => exact congrArg some (Nat.add_sub_cancel_left ..)

end Program

/-! ## Engines that begin a new run -/

namespace Desk

open Control

variable {σ : Type} {d : Desk σ}

/-- The desk `d'`, which is that of `d` when a run of `a` on `w` has begun, behaves like the desk of
a new engine on `a` and `w` that has the settings of `d` : every program plays on both with the same
result, and leaves both with the same look, if it counts from the numbers that `d` had given. -/
def Renewed (d d' : Desk σ) (a : Automaton) (w : Text) : Prop :=
  ∃ e, start a w d.engine.delay d.engine.manualAck d.engine.maxSteps
      (d.agenda.map fun g => .empty g.cancels) d.owner d.outside = .ok e ∧
    ∀ {α : Type} (p : Program σ α),
      (exec (p.play d.origin) d').1 = (exec (p.play .zero) e).1 ∧
      (exec (p.play d.origin) d').2.view d.origin = (exec (p.play .zero) e).2.view .zero

/-- Of the past, only the numbers are left when a new run begins. -/
theorem copies_new (h : d.Tracked) (hdraining : d.engine.draining = false) (a : Automaton)
    (input : Option Text) :
    Copies d.origin (d.loaded a input) (new a (input.getD d.engine.input) d.engine.delay
      d.engine.manualAck d.engine.maxSteps (d.agenda.map fun g => .empty g.cancels) d.owner
      d.outside) := by
  have hengine : (d.loaded a input).engine = d.origin.engine
      (.new a (input.getD d.engine.input) d.engine.delay d.engine.manualAck d.engine.maxSteps) := by
    simp [loaded, reset, note, cancelPending, Origin.engine, Engine.restarted, Engine.new, origin,
      hdraining, Engine.input]
  have hagenda : (d.loaded a input).agenda =
      (d.agenda.map fun g => .empty g.cancels).map d.origin.agenda := by
    refine h.agenda_cancelPending.trans ?_
    cases hg : d.agenda with
    | none => rfl
    | some g => simp [Origin.agenda, Agenda.empty, origin, hg]
  exact ⟨(d.loaded a input).log, (Desk.mk.injEq ..).mpr ⟨hengine, hagenda, rfl, rfl, rfl⟩⟩

/-- A desk that is loaded is as good as a new one. -/
theorem Regular.renewed (h : d.Regular) (hdraining : d.engine.draining = false) {a : Automaton}
    (ha : a.validate = .ok ()) (input : Option Text) :
    d.Renewed (d.loaded a input) a (input.getD d.engine.input) := by
  refine ⟨_, start_of_valid ha .., fun p => ?_⟩
  obtain ⟨hresult, hleft⟩ := p.alike d.origin _ _ (copies_new h.tracked hdraining a input)
  rw [Except.map_id] at hresult
  exact ⟨hresult, view_eq hleft⟩

/-- A second reset changes nothing but the generation, and is logged. -/
theorem reset_reset (d : Desk σ) (input : Option Text) :
    ∃ log, (d.reset input).reset none = { d.reset input with
      engine := { (d.reset input).engine with
        generation := (d.reset input).engine.generation + 1 }
      log := log } :=
  ⟨_, rfl⟩

end Desk

open Control in
/-- Whatever was played on an engine without timers, or with timers that can be cancelled, and even
if it ended in a fault : once the engine is reset, or another automaton is loaded, it behaves like a
new one. A second reset changes nothing but the generation, and an automaton that is not well-formed
is refused without any change. -/
theorem renewed_of_play {σ β : Type} {a : Automaton} {w : Text} {delay : Int} {manualAck : Bool}
    {maxSteps : Option Int} {agenda : Option Agenda} {owner : Nat} {outside : σ} {d₀ : Desk σ}
    (past : Program σ β) (hagenda : ∀ g, agenda = some g → g.cancels = true ∧ g.jobs = [])
    (hd : Desk.start a w delay manualAck maxSteps agenda owner outside = .ok d₀) :
    let d := (exec (past.play .zero) d₀).2
    (∀ input, ∃ d', exec (reset input) d = (.ok (), d') ∧
      d.Renewed d' d.engine.automaton (input.getD d.engine.input) ∧
      ∃ log, exec (reset none) d' = (.ok (), { d' with
        engine := { d'.engine with generation := d'.engine.generation + 1 }
        log := log })) ∧
    (∀ b input, b.validate = .ok () → ∃ d', exec (load b input) d = (.ok (), d') ∧
      d.Renewed d' b (input.getD d.engine.input)) ∧
    (∀ b input defect, b.validate = .error defect →
      exec (load b input) d = (.error (.malformed defect), d)) := by
  intro d
  obtain ⟨ha, rfl⟩ := Desk.start_ok hd
  obtain ⟨hregular, hdraining⟩ := past.across Desk.routine_regular .zero
    (Desk.new a w delay manualAck maxSteps agenda owner outside)
  have hd : d.Regular := by
    refine hregular ⟨Desk.tracked_of_jobs_eq_nil ?_ rfl fun g hg => (hagenda g hg).1, ha⟩
    cases hg : agenda with
    | none => rfl
    | some g => exact (hagenda g hg).2
  have hrest : d.engine.draining = false := Bool.eq_false_iff.2 (mt hdraining nofun)
  refine ⟨fun input => ⟨d.reset input, exec_reset input d, ?_, ?_⟩, fun b input hb => ?_, ?_⟩
  · exact hd.renewed hrest hd.valid input
  · obtain ⟨log, hlog⟩ := d.reset_reset input
    exact ⟨log, by rw [exec_reset, hlog]⟩
  · exact ⟨d.loaded b input, exec_load_of_valid hb input d, hd.renewed hrest hb input⟩
  · exact fun b input defect hb => exec_load_of_invalid hb input d

open Control in
/-- The listener begins another run inside the first event and then refuses it, so that a timer is
left and the run is cut short. After the reset, the second generation counts as the first one. -/
theorem renewed_of_play_evenA :
    let quiet : Event → Program Unit Unit := fun _ => .ret ()
    let refuse : Event → Program Unit Unit := fun _ =>
      .bind .pause fun _ => .bind (.run quiet 1) fun _ => .fail (.listener "não")
    ∃ d₀, Desk.start Catalog.evenA.automaton "aabb" 200 false none (some (.empty true)) 0 () =
        .ok d₀ ∧
      let d := (exec ((Program.run refuse 1).play .zero) d₀).2
      d.engine.running = true ∧ d.jobs.map Job.handle = [1] ∧
        ∃ d', exec (reset (some "ab")) d = (.ok (), d') ∧ d'.jobs = [] ∧
          d.Renewed d' Catalog.evenA.automaton "ab" ∧
          (exec (Program.decide.play .zero) d').1.map Event.generation = .ok 2 ∧
          (exec (Program.decide.play d.origin) d').1.map Event.generation = .ok 1 := by
  intro quiet refuse
  obtain ⟨d₀, hd⟩ : ∃ d₀, Desk.start Catalog.evenA.automaton "aabb" 200 false none
      (some (.empty true)) 0 () = .ok d₀ := ⟨_, rfl⟩
  refine ⟨d₀, hd, ?_⟩
  have hcancels : ∀ g, some (Agenda.empty true) = some g → g.cancels = true ∧ g.jobs = [] := by
    intro g hg
    obtain rfl := Option.some.inj hg
    exact ⟨rfl, rfl⟩
  obtain ⟨d', hreset, hrenewed, -⟩ :=
    (renewed_of_play (Program.run refuse 1) hcancels hd).1 (some "ab")
  cases hd
  intro d
  refine ⟨rfl, rfl, d', hreset, ?_, hrenewed, ?_, ?_⟩
  all_goals
    cases hreset
    rfl

end AutomatonLab
