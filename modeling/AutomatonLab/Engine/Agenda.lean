/-!
# Timers

An `Agenda` keeps what is to be done later : a `Job` has a handle, the time it is due, the engine it
belongs to, and a task. Handles count up from one and are never used again. A cancelled job is taken
out, unless the agenda cannot cancel, and then it is done in its time all the same.
-/

namespace AutomatonLab

/-- What a timer does : it continues the automatic run of a generation, or it ends the display of a
step of a generation. -/
inductive Task where
  | resume (generation : Nat)
  | settle (generation : Nat)
  deriving DecidableEq, Repr

/-- A timer that was asked for, with the time at which it is due and whom it belongs to. -/
structure Job where
  handle : Nat
  due : Int
  owner : Nat
  task : Task
  deriving DecidableEq, Repr

/-- The timers of everybody, and the time that has passed. -/
structure Agenda where
  cancels : Bool
  clock : Int
  /-- The number of handles given so far. -/
  issued : Nat
  /-- The jobs in the order of their handles. -/
  jobs : List Job
  /-- The delays asked for so far. -/
  delays : List Int
  deriving DecidableEq, Repr

namespace Agenda

/-- No timer has been asked for. -/
def empty (cancels : Bool) : Agenda := ⟨cancels, 0, 0, [], []⟩

/-- The agenda with one more job, due `delay` later; its handle is the new `issued`. -/
def add (g : Agenda) (delay : Int) (owner : Nat) (task : Task) : Agenda :=
  { g with
    issued := g.issued + 1
    jobs := g.jobs ++ [⟨g.issued + 1, g.clock + delay, owner, task⟩]
    delays := g.delays ++ [delay] }

/-- The agenda without the job of the given handle. -/
def remove (g : Agenda) (handle : Nat) : Agenda :=
  { g with jobs := g.jobs.filter fun j => j.handle != handle }

/-- A job is cancelled. -/
def cancel (g : Agenda) (handle : Nat) : Agenda :=
  if g.cancels then g.remove handle else g

/-- The agenda without the jobs of an owner. -/
def dismiss (g : Agenda) (owner : Nat) : Agenda :=
  { g with jobs := g.jobs.filter fun j => j.owner != owner }

/-- The timer with the given handle, if it is neither over nor cancelled. -/
def job? (g : Agenda) (handle : Nat) : Option Job :=
  g.jobs.find? fun j => j.handle == handle

/-- The job with the smallest handle. -/
def oldest? (g : Agenda) : Option Job :=
  g.jobs.head?

/-- The earlier of two jobs, and the first one if they are due at the same time. -/
def earlier (j k : Job) : Job :=
  if k.due < j.due then k else j

/-- The job that is due first, and of several the one with the smallest handle. -/
def soonest? (g : Agenda) : Option Job :=
  match g.jobs with
  | [] => none
  | j :: rest => some (rest.foldl earlier j)

/-- The agenda when the job `j` is done : its time has come, and it is there no longer. -/
def elapse (g : Agenda) (j : Job) : Agenda :=
  { g.remove j.handle with clock := max g.clock j.due }

end Agenda

end AutomatonLab
