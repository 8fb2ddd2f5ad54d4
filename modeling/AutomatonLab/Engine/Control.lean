import AutomatonLab.Engine.Desk

/-!
# Driving an engine

The calls of this module move an engine on and tell the outside of every event through `notify`,
which may call the engine again. A call may end in a fault, and what it changed before stays
changed (`Control`). An automatic run with timers makes one step and asks for a timer; without
timers `Control.drain` makes all steps at once, as many as its allowance permits.
-/

namespace AutomatonLab

/-- A call on an engine at its desk. -/
abbrev Control (σ : Type) := ExceptT Fault (StateM (Desk σ))

namespace Control

variable {σ : Type}

/-- The result of a call at a desk, with the desk afterwards. -/
def exec {α : Type} (call : Control σ α) (d : Desk σ) : Except Fault α × Desk σ :=
  ExceptT.run call d

/-- The desk changes, and nobody is told. -/
def update (f : Desk σ → Desk σ) : Control σ Unit :=
  modify f

/-- The engine changes, and nobody is told. -/
def updateEngine (f : Engine → Engine) : Control σ Unit :=
  modify fun d => { d with engine := f d.engine }

/-- The engine as it stands. -/
def engine : Control σ Engine :=
  Desk.engine <$> get

/-- The result of an operation that may log, with its log. -/
def ofOutcome {α : Type} (o : Outcome α) : Control σ α := do
  update fun d => d.note o.log
  match o.result with
  | .ok a => return a
  | .error fault => throw fault

/-- A decision is made and recorded, and nobody is told. -/
def decide : Control σ Event :=
  ExceptT.mk fun d => d.decide

/-- What the outside does with an event. -/
abbrev Notify (σ : Type) := Event → Control σ Unit

/-- One decision, of which the outside is told; then an automatic run goes on. -/
def advance (notify : Notify σ) : Control σ Event := do
  let ev ← decide
  update fun d => d.launch ev
  notify ev
  update Desk.goOn
  return ev

/-- The steps of an automatic run without timers. The allowance counts the steps. -/
def drainLoop (notify : Notify σ) : Nat → Control σ Unit
  | 0 => throw .exhausted
  | allowance + 1 => do
    let e ← engine
    if e.running && !e.inFlight && !e.status.isTerminal then
      if e.atLimit then update Desk.observeLimit
      else
        let _ ← advance notify
        drainLoop notify allowance

/-- The steps of an automatic run without timers, however they end. -/
def drain (notify : Notify σ) (allowance : Nat) : Control σ Unit :=
  ExceptT.mk do
    modify fun d => { d with engine := { d.engine with draining := true } }
    let result ← ExceptT.run (drainLoop notify allowance)
    modify fun d => { d with engine := { d.engine with draining := false } }
    return result

/-- One step by hand, which ends an automatic run. Nothing happens while a step is in flight or
after the end. -/
def step (notify : Notify σ) : Control σ (Option Event) := do
  let e ← engine
  if e.inFlight then
    update fun d => d.note [Desk.busyNote]
    return none
  else if e.status.isTerminal then return none
  else
    update Desk.pause
    some <$> advance notify

/-- An automatic run begins; the answer says whether it does. -/
def run (notify : Notify σ) (allowance : Nat) : Control σ Bool := do
  let e ← engine
  if e.inFlight || e.running || e.status.isTerminal then return false
  else if e.atLimit then
    update Desk.observeLimit
    return false
  else
    updateEngine fun e => { e with running := true, status := .running }
    update fun d => d.note [Desk.runNote e]
    if (← get).agenda.isNone then drain notify allowance
    else let _ ← advance notify
    return true

/-- The automatic run is interrupted, and the timer for its next step is given up. -/
def pause : Control σ Unit := update Desk.pause

/-- A new run begins, on the given input or on the old one. -/
def reset (input : Option Text) : Control σ Unit := update fun d => d.reset input

/-- Another automaton is installed; if it is not well-formed, nothing changes. -/
def load (a : Automaton) (input : Option Text) : Control σ Unit := do
  match (← get).load a input with
  | .ok d => set d
  | .error fault => throw fault

/-- The step in flight is confirmed, if it is of the generation that is given; an automatic run goes
on, unless the loop of `drain` is active and will go on by itself. -/
def acknowledge (notify : Notify σ) (allowance : Nat) (generation : Option Int) :
    Control σ Unit := do
  let e ← engine
  if !e.inFlight then return
  else match generation.filter (· ≠ (e.generation : Int)) with
    | some other => update fun d => d.note [Desk.staleNote other]
    | none =>
      updateEngine fun e => { e with inFlight := false }
      if !e.running || e.draining then return
      else if (← get).agenda.isNone then drain notify allowance
      else update Desk.scheduleNext

/-- The timer of a generation is due : its automatic run makes one step, if it is still going on. -/
def resume (notify : Notify σ) (generation : Nat) : Control σ Unit := do
  updateEngine fun e => { e with pending := none }
  let e ← engine
  if generation ≠ e.generation || !e.running || e.inFlight then return
  else
    let _ ← advance notify

/-- A timer is due. -/
def due (notify : Notify σ) (j : Job) : Control σ Unit := do
  update fun d => { d with agenda := d.agenda.map fun g => g.elapse j }
  match j.task with
  | .resume generation => resume notify generation
  | .settle _ => return

/-- The timer with the given handle is due, or the one with the smallest; the answer is its handle,
if there is such a timer. -/
def fire (notify : Notify σ) (handle : Option Nat) : Control σ (Option Nat) := do
  match (← get).agenda.bind fun g => handle.elim g.oldest? g.job? with
  | none => return none
  | some j =>
    due notify j
    return some j.handle

/-- The oldest timers are due one after the other, at most `limit` of them; the answer is their
number. -/
def fireAll (notify : Notify σ) : Nat → Control σ Nat
  | 0 => return 0
  | limit + 1 => do
    match ← fire notify none with
    | none => return 0
    | some _ => return (← fireAll notify limit) + 1

end Control

end AutomatonLab
