import AutomatonLab.Decision

/-!
# The engine

An `Engine` runs an automaton on an input, one decision at a time : it keeps the configuration, the
status, the history of its events, and where it stands between two steps. A step is *in flight* from
the moment it was made until it is confirmed, if confirmation is asked for. The *generation* counts
the runs, so that what belongs to an earlier run can be told. `Engine.restarted` begins a new run,
`Engine.taking` and `Engine.halting` are the two outcomes of a decision.
-/

namespace AutomatonLab

/-- What happened in one step : a transition, or none if the run halted, and where it led. -/
structure Event where
  transition : Option Transition
  snapshot : Snapshot
  status : Status
  generation : Nat
  deriving DecidableEq, Repr

/-- The state of an engine : its automaton, where the run stands, and how it goes on. -/
structure Engine where
  automaton : Automaton
  /-- The time between two automatic steps, in milliseconds. -/
  delay : Int
  /-- A transition stays in flight until it is acknowledged. -/
  manualAck : Bool
  /-- The number of transitions that an automatic run may reach, if there is one. -/
  maxSteps : Option Int
  config : Configuration
  status : Status
  inFlight : Bool
  /-- An automatic run is going on. -/
  running : Bool
  /-- The loop that makes the steps of an automatic run without timers is active. -/
  draining : Bool
  /-- The handle of the timer that continues the automatic run. -/
  pending : Option Nat
  generation : Nat
  /-- The number of transitions made in this run. -/
  steps : Nat
  /-- How far the input was read, or the tape. -/
  consumed : Int
  history : Array Event
  deriving Repr

namespace Engine

/-- The time between two automatic steps unless another one is given, in milliseconds. -/
def defaultDelay : Int := 200

/-- The limit of an automatic run unless another one is given. -/
def defaultMaxSteps : Int := 1000

/-- An engine at the start of its first run. -/
def new (a : Automaton) (input : Text) (delay : Int) (manualAck : Bool) (maxSteps : Option Int) :
    Engine where
  automaton := a
  delay := delay
  manualAck := manualAck
  maxSteps := maxSteps
  config := .start a input
  status := .ready
  inFlight := false
  running := false
  draining := false
  pending := none
  generation := 1
  steps := 0
  consumed := 0
  history := #[]

/-- The text that the run is about. -/
def input (e : Engine) : Text := e.config.input

/-- The engine at the start of a new run, on the same input if none is given. -/
def restarted (e : Engine) (input : Option Text) : Engine :=
  { e with
    config := .start e.automaton (input.getD e.input)
    status := .ready
    inFlight := false
    running := false
    generation := e.generation + 1
    steps := 0
    consumed := 0
    history := #[] }

/-- What the log says at the start of a run. -/
def readyNote (e : Engine) : LogEntry :=
  Decision.debug ("Pronto no modo " ++ Text.upperCase e.automaton.formalism.code ++ " a partir de "
    ++ e.config.stateText ++ ".")

/-- The event that shows the engine as it is. -/
def event (e : Engine) (t : Option Transition) : Event :=
  ⟨t, e.config.snapshot, e.status, e.generation⟩

/-- The engine with one more event in its history. -/
def record (e : Engine) (ev : Event) : Engine :=
  { e with history := e.history.push ev }

/-- How far a run has come when it stands in the configuration `c`. -/
def progress (e : Engine) (c : Configuration) : Int :=
  if e.automaton.formalism = .tm then max e.consumed c.head else c.cursor

/-- The engine after a transition, not yet recorded. -/
def taking (e : Engine) (t : Transition) : Engine :=
  let config := e.config.apply t
  { e with
    config := config
    status := .running
    steps := e.steps + 1
    consumed := e.progress config }

/-- The engine after its run has halted, not yet recorded. -/
def halting (e : Engine) (status : Status) : Engine :=
  { e with status := status, running := false }

/-- The number of transitions has reached the limit. -/
def atLimit (e : Engine) : Bool :=
  e.maxSteps.any fun n => n ≤ (e.steps : Int)

/-- The transitions that apply where the engine stands. -/
def applicable (e : Engine) : Except Fault (List Transition) :=
  e.config.applicable e.automaton

end Engine

end AutomatonLab
