import AutomatonLab.Engine.Control
import AutomatonLab.Proofs.Step

/-!
# Calls on an engine, from outside and from listeners

A `Play` is a computation made of calls on an engine. It may look at the desk, keep notes of its
own, and choose its next call by what it sees; the events of its calls are told to listeners, who
answer each event by a play of their own. So a play is a finite sequence of calls in which any
listener may call the engine again while an event is told, to any depth. If `raising` is true, a
play may also raise faults and catch those of its calls; the fault of a refused automaton it may
always catch.

The equations `exec_step`, `exec_run` and so on say what each call does to a desk, in terms of the
one decision that `exec_advance` makes and tells. Proofs about plays go by induction on the play and
use these equations.
-/

namespace AutomatonLab

namespace Desk

variable {σ : Type}

/-- The timers that have been asked for and are still there. -/
def jobs (d : Desk σ) : List Job :=
  (d.agenda.map Agenda.jobs).getD []

/-- The desk when an automatic run begins. -/
def begun (d : Desk σ) : Desk σ :=
  { d with engine := { d.engine with running := true, status := .running } }.note
    [runNote d.engine]

/-- The desk when the loop that makes all steps at once begins or ends. -/
def drains (d : Desk σ) (b : Bool) : Desk σ :=
  { d with engine := { d.engine with draining := b } }

/-- The desk when the step in flight is confirmed. -/
def confirmed (d : Desk σ) : Desk σ :=
  { d with engine := { d.engine with inFlight := false } }

/-- The desk when the timer that continues the automatic run is due. -/
def woken (d : Desk σ) : Desk σ :=
  { d with engine := { d.engine with pending := none } }

/-- The desk when the job `j` is done. -/
def elapsed (d : Desk σ) (j : Job) : Desk σ :=
  { d with agenda := d.agenda.map fun g => g.elapse j }

/-- The desk when a run of another automaton begins. -/
def loaded (d : Desk σ) (a : Automaton) (input : Option Text) : Desk σ :=
  ({ d with engine := { d.engine with automaton := a } } : Desk σ).reset input

/-- The desk of a new engine. -/
def new (a : Automaton) (w : Text) (delay : Int) (manualAck : Bool) (maxSteps : Option Int)
    (agenda : Option Agenda) (owner : Nat) (outside : σ) : Desk σ where
  engine := .new a w delay manualAck maxSteps
  agenda := agenda
  owner := owner
  log := [(Engine.new a w delay manualAck maxSteps).readyNote]
  outside := outside

variable {d d' : Desk σ} {a : Automaton} {input : Option Text} {w : Text} {delay : Int}
  {manualAck : Bool} {maxSteps : Option Int} {agenda : Option Agenda} {owner : Nat} {outside : σ}

/-- An engine is started on a well-formed automaton. -/
theorem start_of_valid (ha : a.validate = .ok ()) (w : Text) (delay : Int) (manualAck : Bool)
    (maxSteps : Option Int) (agenda : Option Agenda) (owner : Nat) (outside : σ) :
    start a w delay manualAck maxSteps agenda owner outside =
      .ok (new a w delay manualAck maxSteps agenda owner outside) := by
  rw [start, ha]
  rfl

/-- Only an engine on a well-formed automaton is started. -/
theorem start_ok (h : start a w delay manualAck maxSteps agenda owner outside = .ok d) :
    a.validate = .ok () ∧ d = new a w delay manualAck maxSteps agenda owner outside := by
  rcases ha : a.validate with defect | ⟨⟩
  · rw [start, ha] at h
    cases h
  · rw [start_of_valid ha] at h
    exact ⟨rfl, (Except.ok.inj h).symm⟩

/-- A well-formed automaton is loaded at any time. -/
theorem load_of_valid (ha : a.validate = .ok ()) (input : Option Text) (d : Desk σ) :
    d.load a input = .ok (d.loaded a input) := by
  rw [load, ha]
  rfl

/-- The first defect of an automaton is the reason why it is not loaded. -/
theorem load_of_invalid {defect : Defect} (ha : a.validate = .error defect)
    (input : Option Text) (d : Desk σ) : d.load a input = .error (.malformed defect) := by
  rw [load, ha]
  rfl

/-- Only a well-formed automaton is loaded. -/
theorem load_ok (h : d.load a input = .ok d') : a.validate = .ok () ∧ d' = d.loaded a input := by
  rcases ha : a.validate with defect | ⟨⟩
  · rw [load_of_invalid ha] at h
    cases h
  · rw [load_of_valid ha] at h
    exact ⟨rfl, (Except.ok.inj h).symm⟩

end Desk

namespace Control

variable {σ α β : Type} {d : Desk σ} {notify : Notify σ}

/-! ## What a computation does to a desk -/

@[simp] theorem exec_pure (a : α) (d : Desk σ) : exec (pure a) d = (.ok a, d) :=
  rfl

@[simp] theorem exec_throw (fault : Fault) (d : Desk σ) :
    exec (throw fault : Control σ α) d = (.error fault, d) :=
  rfl

@[simp] theorem exec_update (f : Desk σ → Desk σ) (d : Desk σ) :
    exec (update f) d = (.ok (), f d) :=
  rfl

@[simp] theorem exec_updateEngine (f : Engine → Engine) (d : Desk σ) :
    exec (updateEngine f) d = (.ok (), { d with engine := f d.engine }) :=
  rfl

@[simp] theorem exec_engine (d : Desk σ) : exec engine d = (.ok d.engine, d) :=
  rfl

@[simp] theorem exec_get (d : Desk σ) : exec get d = (.ok d, d) :=
  rfl

@[simp] theorem exec_set (d d' : Desk σ) : exec (set d') d = (.ok (), d') :=
  rfl

@[simp] theorem exec_decide (d : Desk σ) : exec decide d = d.decide :=
  rfl

/-- The second call starts where the first one has ended, and only if it has not failed. -/
theorem exec_bind (x : Control σ α) (f : α → Control σ β) (d : Desk σ) :
    exec (x >>= f) d = match exec x d with
      | (.ok a, d') => exec (f a) d'
      | (.error fault, d') => (.error fault, d') := by
  show ExceptT.bindCont f (exec x d).1 (exec x d).2 = _
  rcases exec x d with ⟨_ | _, d'⟩ <;> rfl

theorem exec_bind_of_ok {x : Control σ α} {a : α} {d' : Desk σ} (h : exec x d = (.ok a, d'))
    (f : α → Control σ β) : exec (x >>= f) d = exec (f a) d' := by
  rw [exec_bind, h]

theorem exec_bind_pure (x : Control σ α) (b : β) (d : Desk σ) :
    exec (x >>= fun _ => pure b) d = ((exec x d).1.map fun _ => b, (exec x d).2) := by
  rw [exec_bind]
  rcases exec x d with ⟨_ | _, d'⟩ <;> rfl

/-- What is computed from an answer does not touch the desk. -/
theorem exec_map (g : α → β) (x : Control σ α) (d : Desk σ) :
    exec (g <$> x) d = ((exec x d).1.map g, (exec x d).2) := by
  rw [map_eq_pure_bind, exec_bind]
  rcases exec x d with ⟨_ | _, d'⟩ <;> rfl

/-- What the first computation leaves and the second one keeps, if it gets to work. -/
theorem holds_bind {P : Desk σ → Prop} {x : Control σ α} {f : α → Control σ β}
    (hx : P (exec x d).2) (hf : ∀ a d', P d' → P (exec (f a) d').2) :
    P (exec (x >>= f) d).2 := by
  rw [exec_bind]
  rcases hr : exec x d with ⟨fault | a, d'⟩
  · rwa [hr] at hx
  · rw [hr] at hx
    exact hf a d' hx

/-- Only a computation that returns has a result to go on with. -/
theorem exec_ok_of_map {p : Except Fault α × Desk σ} {g : α → β} {b : β} {d' : Desk σ}
    (h : (p.1.map g, p.2) = (.ok b, d')) : ∃ a, p = (.ok a, d') := by
  rcases p with ⟨fault | a, d₁⟩
  · cases h
  · obtain ⟨-, rfl⟩ := Prod.mk.inj h
    exact ⟨a, rfl⟩

/-- If two calls in a row have an answer, so has each of them. -/
theorem exec_ok_of_bind {x : Control σ α} {f : α → Control σ β} {b : β} {d' : Desk σ}
    (h : exec (x >>= f) d = (.ok b, d')) :
    ∃ a d₁, exec x d = (.ok a, d₁) ∧ exec (f a) d₁ = (.ok b, d') := by
  rw [exec_bind] at h
  rcases hx : exec x d with ⟨fault | a, d₁⟩
  · rw [hx] at h
    cases h
  · rw [hx] at h
    exact ⟨a, d₁, rfl, h⟩

/-- A fault is handled where the call has broken off, and not where it began. -/
theorem exec_tryCatch (x : Control σ α) (handle : Fault → Control σ α) (d : Desk σ) :
    exec (tryCatch x handle) d = match exec x d with
      | (.ok a, d') => (.ok a, d')
      | (.error fault, d') => exec (handle fault) d' := by
  simp only [exec, ExceptT.run, tryCatch, tryCatchThe, MonadExceptOf.tryCatch, ExceptT.tryCatch,
    ExceptT.mk, bind, StateT.bind]
  rcases x d with ⟨_ | _, d'⟩ <;> rfl

/-! ## What each call does -/

/-- A step is decided, told to the listeners, and followed by the next one if there is to be one. -/
theorem exec_advance (notify : Notify σ) (d : Desk σ) :
    exec (advance notify) d = match d.decide with
      | (.error fault, d') => (.error fault, d')
      | (.ok ev, d') => match exec (notify ev) (d'.launch ev) with
        | (.error fault, d'') => (.error fault, d'')
        | (.ok _, d'') => (.ok ev, d''.goOn) := by
  rw [advance, exec_bind, exec_decide]
  rcases d.decide with ⟨_ | ev, d'⟩
  · rfl
  · simp only [exec_bind, exec_update]
    rcases exec (notify ev) (d'.launch ev) with ⟨_ | _, d''⟩ <;> rfl

/-- What a decision that fails leaves, and what the listeners leave otherwise, if the run that goes
on keeps it. -/
theorem holds_advance {P : Desk σ → Prop}
    (hfault : ∀ fault d₁, d.decide = (.error fault, d₁) → P d₁)
    (htold : ∀ ev d₁, d.decide = (.ok ev, d₁) → P (exec (notify ev) (d₁.launch ev)).2)
    (hgoOn : ∀ d, P d → P d.goOn) : P (exec (advance notify) d).2 := by
  rw [exec_advance]
  rcases hdecide : d.decide with ⟨fault | ev, d₁⟩
  · exact hfault fault d₁ hdecide
  · have htold' := htold ev d₁ hdecide
    simp only
    rcases hx : exec (notify ev) (d₁.launch ev) with ⟨fault | _, d₂⟩
    · rwa [hx] at htold'
    · rw [hx] at htold'
      exact hgoOn d₂ htold'

/-- A step that returns has been decided on, and all were told. -/
theorem exec_ok_of_advance {ev : Event} {d' : Desk σ}
    (h : exec (advance notify) d = (.ok ev, d')) :
    ∃ d₁ d₂, d.decide = (.ok ev, d₁) ∧ exec (notify ev) (d₁.launch ev) = (.ok (), d₂) ∧
      d' = d₂.goOn := by
  rw [exec_advance] at h
  rcases hdecide : d.decide with ⟨fault | ev₁, d₁⟩
  · rw [hdecide] at h
    cases h
  · rw [hdecide] at h
    simp only at h
    rcases htell : exec (notify ev₁) (d₁.launch ev₁) with ⟨fault | _, d₂⟩
    · rw [htell] at h
      cases h
    · rw [htell] at h
      obtain ⟨hev, rfl⟩ := Prod.mk.inj h
      obtain rfl := Except.ok.inj hev
      exact ⟨d₁, d₂, rfl, htell, rfl⟩

/-- One more round of a run without timers : it ends, reaches its limit, or makes a step. -/
theorem exec_drainLoop_succ (notify : Notify σ) (allowance : Nat) (d : Desk σ) :
    exec (drainLoop notify (allowance + 1)) d =
      if d.engine.running && !d.engine.inFlight && !d.engine.status.isTerminal then
        if d.engine.atLimit then (.ok (), d.observeLimit)
        else exec (advance notify >>= fun _ => drainLoop notify allowance) d
      else (.ok (), d) := by
  rw [drainLoop, exec_bind, exec_engine]
  simp only
  split
  · split <;> rfl
  · rfl

/-- The loop of a run without timers is marked while it goes on. -/
theorem exec_drain (notify : Notify σ) (allowance : Nat) (d : Desk σ) :
    exec (drain notify allowance) d =
      ((exec (drainLoop notify allowance) (d.drains true)).1,
        (exec (drainLoop notify allowance) (d.drains true)).2.drains false) :=
  rfl

/-- A step by hand is refused while another one is in flight, and does nothing at the end. -/
theorem exec_step (notify : Notify σ) (d : Desk σ) :
    exec (step notify) d =
      if d.engine.inFlight then (.ok none, d.note [Desk.busyNote])
      else if d.engine.status.isTerminal then (.ok none, d)
      else ((exec (advance notify) d.pause).1.map some, (exec (advance notify) d.pause).2) := by
  rw [step, exec_bind, exec_engine]
  simp only
  split
  · rfl
  · split
    · rfl
    · rw [exec_bind, exec_update]
      exact exec_map some _ _

/-- An automatic run does not begin while another one goes on, and not beyond the limit. -/
theorem exec_run (notify : Notify σ) (allowance : Nat) (d : Desk σ) :
    exec (run notify allowance) d =
      if d.engine.inFlight || d.engine.running || d.engine.status.isTerminal then (.ok false, d)
      else if d.engine.atLimit then (.ok false, d.observeLimit)
      else if d.agenda.isNone then
        ((exec (drain notify allowance) d.begun).1.map fun _ => true,
          (exec (drain notify allowance) d.begun).2)
      else
        ((exec (advance notify) d.begun).1.map fun _ => true,
          (exec (advance notify) d.begun).2) := by
  rw [run, exec_bind, exec_engine]
  simp only
  split
  · rfl
  · split
    · rfl
    · simp only [exec_bind, exec_updateEngine, exec_update, exec_get]
      show exec (if d.agenda.isNone then drain notify allowance >>= fun _ => pure true
        else advance notify >>= fun _ => pure true) d.begun = _
      split
      · exact exec_bind_pure _ _ _
      · exact exec_bind_pure _ _ _

theorem exec_pause (d : Desk σ) : exec pause d = (.ok (), d.pause) :=
  rfl

theorem exec_reset (input : Option Text) (d : Desk σ) :
    exec (reset input) d = (.ok (), d.reset input) :=
  rfl

/-- Loading answers a defect with a fault and leaves the desk as it was. -/
theorem exec_load (a : Automaton) (input : Option Text) (d : Desk σ) :
    exec (load a input) d = match d.load a input with
      | .ok d' => (.ok (), d')
      | .error fault => (.error fault, d) := by
  rw [load, exec_bind, exec_get]
  simp only
  rcases d.load a input with fault | d'
  · exact exec_throw fault d
  · exact exec_set d d'

theorem exec_load_of_valid {a : Automaton} (ha : a.validate = .ok ()) (input : Option Text)
    (d : Desk σ) : exec (load a input) d = (.ok (), d.loaded a input) := by
  rw [exec_load, Desk.load_of_valid ha]

/-- An automaton that is not well-formed is refused, and nothing changes. -/
theorem exec_load_of_invalid {a : Automaton} {defect : Defect} (ha : a.validate = .error defect)
    (input : Option Text) (d : Desk σ) :
    exec (load a input) d = (.error (.malformed defect), d) := by
  rw [exec_load, Desk.load_of_invalid ha]

/-- A confirmation counts if a step is in flight and, where a generation is named, if it is the
present one. Then the automatic run goes on. -/
theorem exec_acknowledge (notify : Notify σ) (allowance : Nat) (generation : Option Int)
    (d : Desk σ) :
    exec (acknowledge notify allowance generation) d =
      if !d.engine.inFlight then (.ok (), d)
      else match generation.filter (· ≠ (d.engine.generation : Int)) with
        | some other => (.ok (), d.note [Desk.staleNote other])
        | none =>
          if !d.engine.running || d.engine.draining then (.ok (), d.confirmed)
          else if d.agenda.isNone then exec (drain notify allowance) d.confirmed
          else (.ok (), d.confirmed.scheduleNext) := by
  rw [acknowledge, exec_bind, exec_engine]
  simp only
  split
  · rfl
  · generalize generation.filter (· ≠ (d.engine.generation : Int)) = stale
    cases stale with
    | some other => rfl
    | none =>
      simp only [exec_bind, exec_updateEngine]
      split
      · rfl
      · show exec (if d.agenda.isNone then drain notify allowance
          else update Desk.scheduleNext) d.confirmed = _
        split <;> rfl

/-- A timer of an older run, or one that comes when the run is paused, does nothing but end. -/
theorem exec_resume (notify : Notify σ) (generation : Nat) (d : Desk σ) :
    exec (resume notify generation) d =
      if generation ≠ d.engine.generation || !d.engine.running || d.engine.inFlight then
        (.ok (), d.woken)
      else
        ((exec (advance notify) d.woken).1.map fun _ => (),
          (exec (advance notify) d.woken).2) := by
  rw [resume, exec_bind, exec_updateEngine]
  simp only [exec_bind, exec_engine]
  split
  · rfl
  · exact exec_bind_pure _ _ _

/-- A timer of an engine alone is one that continues its run. -/
theorem exec_due (notify : Notify σ) (j : Job) (d : Desk σ) :
    exec (due notify j) d = match j.task with
      | .resume generation => exec (resume notify generation) (d.elapsed j)
      | .settle _ => (.ok (), d.elapsed j) := by
  rw [due, exec_bind, exec_update]
  rcases j.task with _ | _ <;> rfl

/-- The timer that is due is the given one, or else the one with the least handle. -/
theorem exec_fire (notify : Notify σ) (handle : Option Nat) (d : Desk σ) :
    exec (fire notify handle) d =
      match d.agenda.bind fun g => handle.elim g.oldest? g.job? with
      | none => (.ok none, d)
      | some j => ((exec (due notify j) d).1.map fun _ => some j.handle,
          (exec (due notify j) d).2) := by
  rw [fire, exec_bind, exec_get]
  simp only
  generalize (d.agenda.bind fun g => handle.elim g.oldest? g.job?) = job
  cases job with
  | none => rfl
  | some j => exact exec_bind_pure _ _ _

/-! ## Plays -/

/-- A computation made of calls on an engine and of calls that listeners make. If `raising` is
false, nobody raises a fault. An automaton that is loaded may be malformed, but its labels are of
its own formalism. An automatic run without timers may make at least one step at once. -/
inductive Play (raising : Bool) : {α : Type} → Control σ α → Prop where
  | ret {α : Type} (a : α) : Play raising (pure a)
  | bind {α β : Type} {x : Control σ α} {f : α → Control σ β} :
      Play raising x → (∀ a, Play raising (f a)) → Play raising (x >>= f)
  | fail {α : Type} (fault : Fault) : raising = true → Play raising (throw fault : Control σ α)
  | attempt {α : Type} {x : Control σ α} {handle : Fault → Control σ α} : raising = true →
      Play raising x → (∀ fault, Play raising (handle fault)) → Play raising (tryCatch x handle)
  | look : Play raising (get : Control σ (Desk σ))
  | keep (f : σ → σ) : Play raising (update fun d => { d with outside := f d.outside })
  | log (entries : List LogEntry) : Play raising (update fun d => d.note entries)
  | decide : Play raising (decide : Control σ Event)
  | step {notify : Notify σ} : (∀ ev, Play raising (notify ev)) → Play raising (step notify)
  | run {notify : Notify σ} (allowance : Nat) : (∀ ev, Play raising (notify ev)) →
      Play raising (run notify (allowance + 1))
  | pause : Play raising (pause : Control σ Unit)
  | reset (input : Option Text) : Play raising (reset input : Control σ Unit)
  | acknowledge {notify : Notify σ} (allowance : Nat) (generation : Option Int) :
      (∀ ev, Play raising (notify ev)) → Play raising (acknowledge notify allowance generation)
  | load {a : Automaton} (input : Option Text) : raising = true → a.Typed →
      Play raising (load a input : Control σ Unit)
  | tryLoad {a : Automaton} (input : Option Text) {handle : Fault → Control σ Unit} : a.Typed →
      (∀ fault, Play raising (handle fault)) → Play raising (tryCatch (load a input) handle)
  | fire {notify : Notify σ} (handle : Option Nat) : (∀ ev, Play raising (notify ev)) →
      Play raising (fire notify handle)

end Control

end AutomatonLab
