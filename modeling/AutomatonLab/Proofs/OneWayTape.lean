import AutomatonLab.Proofs.Record
import AutomatonLab.Proofs.Tape
import AutomatonLab.Proofs.WellFormed
import Mathlib.Logic.Function.Basic

/-!
# Turing machines on an infinite tape

A `TapeMachine` is the machine of the textbooks : its tape is a function from the natural numbers,
of which all but the input is blank at first, and its head stays at the left end when it is to move
left of it. `TapeMachine.next` is one step, where the machine halts in a final state, and where no
transition applies.

An engine that runs a Turing machine keeps a list of cells instead, which grows where it is written
into. It mirrors the machine all the same : the two agree in the state, the head, the verdict and
in every cell (`Engine.Mirrors`), since a step of the engine is a step of the machine
(`Step.mirrors`). So they agree after any number of decisions (`mirrors_of_decisions`). The cells
that were not filled are blank, and thus the content of the tape does not depend on them.
-/

namespace AutomatonLab

/-- A machine with a tape that has a left end and no right one. -/
structure TapeMachine where
  state : Text
  head : Nat
  cells : Nat → Text
  /-- How the machine has halted, if it has. -/
  verdict : Option Status

namespace TapeMachine

/-- The machine in the state at the left end of `w`, which has a cell for each code point. -/
def start (state w : Text) : TapeMachine where
  state := state
  head := 0
  cells i := (w[i]?.map fun x => [x]).getD "_"
  verdict := none

/-- The head goes to the next cell on one side. -/
def shift (head : Nat) (direction : Text) : Nat :=
  if direction = "R" then head + 1 else if direction = "L" then head - 1 else head

/-- The transition is for the state and for the symbol under the head. -/
def applies (m : TapeMachine) (t : Transition) : Bool :=
  t.source == m.state &&
    match t.label with
    | .tm read _ _ => read == m.cells m.head
    | _ => false

/-- The machine writes and moves as the transition says. -/
def perform (m : TapeMachine) (t : Transition) : TapeMachine :=
  match t.label with
  | .tm _ write direction =>
    { m with
      state := t.target
      cells := Function.update m.cells m.head write
      head := shift m.head direction }
  | _ => m

/-- One step, with the transition that is applied. The machine accepts in a final state, and is
stuck where no transition applies; of several the first one counts. -/
def next (a : Automaton) (m : TapeMachine) : Option Transition × TapeMachine :=
  if m.verdict.isSome then (none, m)
  else if a.states.any fun s => s.name == m.state && s.final then
    (none, { m with verdict := some .accepted })
  else match a.transitions.find? m.applies with
    | some t => (some t, m.perform t)
    | none => (none, { m with verdict := some .stuck })

/-- Several steps, with the transitions that are applied. -/
def run (a : Automaton) (m : TapeMachine) : Nat → List (Option Transition) × TapeMachine
  | 0 => ([], m)
  | n + 1 =>
    let (applied, m) := m.run a n
    let (t, m) := m.next a
    (applied ++ [t], m)

end TapeMachine

/-- The configuration shows the state, the head and the cells of the machine. -/
structure Configuration.Mirrors (c : Configuration) (m : TapeMachine) : Prop where
  state : c.state = some m.state
  head : c.head = m.head
  cells : ∀ i : Nat, c.tape.read i = m.cells i
  blank : c.tape.blank = "_"

/-- The verdict of a run that has ended. -/
def Status.verdict? (s : Status) : Option Status :=
  if s.isTerminal then some s else none

namespace Configuration

variable {a : Automaton} {c : Configuration} {m : TapeMachine}

/-- At the start the tapes hold the same word. -/
theorem mirrors_start (ha : a.WellFormed) (hf : a.formalism = .tm) (w : Text) :
    ∃ s ∈ a.states, s.initial = true ∧
      (Configuration.start a w).Mirrors (TapeMachine.start s.name w) := by
  obtain ⟨s, hs, hstart⟩ := ha.exists_start
  obtain ⟨s', hs', hname, hinitial⟩ := ha.start?_eq_some_iff.1 hstart
  refine ⟨s', hs', hinitial, ?_, rfl, fun i => ?_, rfl⟩
  · rw [hname]
    exact hstart
  · simp [Configuration.start, hf, Tape.read_ofNat, Tape.ofInput, Text.singletons,
      TapeMachine.start, Tape.defaultBlank]

namespace Mirrors

/-- The states that are final are the same. -/
theorem isFinal_eq (h : c.Mirrors m) (ha : a.WellFormed) :
    c.isFinal a = a.states.any fun s => s.name == m.state && s.final := by
  rw [Configuration.isFinal, h.state, Bool.eq_iff_iff]
  simp [ha.isFinal_iff]

theorem scanned_eq (h : c.Mirrors m) : c.scanned = m.cells m.head := by
  rw [Configuration.scanned, h.head, h.cells]

/-- The transition that is taken is the first one that applies in the machine. -/
theorem firstEligible?_eq (h : c.Mirrors m) (ha : a.Typed) (hf : a.formalism = .tm) :
    c.firstEligible? a c.scanned = a.transitions.find? m.applies := by
  have hfind : a.transitions.find? (c.eligible c.scanned) = a.transitions.find? m.applies := by
    rw [← List.head?_filter, ← List.head?_filter]
    refine congrArg List.head? (List.filter_congr fun t ht => ?_)
    have htyped := (ha.labels t ht).trans hf
    cases hl : t.label with
    | fa symbol => simp [hl, Label.formalism] at htyped
    | pda input pop push => simp [hl, Label.formalism] at htyped
    | tm read write direction =>
      simp only [Configuration.eligible, TapeMachine.applies, hl, h.state, h.scanned_eq]
      rw [Bool.eq_iff_iff]
      simp only [Bool.and_eq_true, beq_iff_eq, Option.some_inj]
      exact and_congr_left' eq_comm
  simpa [Configuration.firstEligible?, hf] using hfind

/-- Both heads stay where they are at the left end. -/
theorem shift_eq (head : Nat) (direction : Text) :
    Tape.move head direction = (TapeMachine.shift head direction : Nat) := by
  rw [Tape.move, TapeMachine.shift, Label.right, Label.left]
  split
  · rfl
  · split <;> omega

/-- A write changes the cell under the head, in the list as in the function. -/
theorem perform (h : c.Mirrors m) {u : Transition} {read write direction : Text}
    (hl : u.label = .tm read write direction) :
    Mirrors
      { c with
        state := some u.target
        tape := c.tape.write c.head write
        head := Tape.move c.head direction } (m.perform u) := by
  simp only [TapeMachine.perform, hl]
  refine ⟨rfl, ?_, fun i => ?_, h.blank⟩
  · rw [h.head]
    exact shift_eq m.head direction
  · show (c.tape.write c.head write).read i = Function.update m.cells m.head write i
    have hcell : (i : Int) = max 0 c.head ↔ i = m.head := by
      rw [h.head]
      omega
    rw [Tape.read_write, h.cells, Function.update_apply]
    exact if_congr hcell rfl rfl

/-- Beyond the cells that were filled the machine has blanks. -/
theorem cells_of_size_le (h : c.Mirrors m) {i : Nat} (hi : c.tape.size ≤ i) : m.cells i = "_" := by
  rw [← h.cells, Tape.read_of_size_le (Int.ofNat_le.2 hi), h.blank]

/-- What is written on the tape is what the machine has on its own, without the blanks at the
ends. -/
theorem content_eq (h : c.Mirrors m) {n : Nat} (hn : ∀ i ≥ n, m.cells i = "_") :
    c.tape.content = Text.stripEnds (· == '_') ((List.range n).flatMap m.cells) := by
  have hcells : (fun i : Nat => c.tape.read i) = m.cells := funext h.cells
  have hclass : (fun x => c.tape.blank.contains x) = fun x : CodePoint => x == '_' := by
    rw [h.blank]
    funext x
    show List.contains [CodePoint.char '_'] x = _
    rw [List.contains_cons, List.contains_nil, Bool.or_false]
  rw [Tape.content_eq fun i hi => by rw [h.cells, hn i hi, h.blank], hcells, hclass]

end Mirrors

end Configuration

/-- A step of a Turing machine is the step of the machine that it mirrors. -/
theorem Step.mirrors {a : Automaton} {c c' : Configuration} {m : TapeMachine}
    {t : Option Transition} {s : Status} (ha : a.Typed) (hwf : a.WellFormed)
    (hf : a.formalism = .tm) (h : Step a c t c' s) (hm : c.Mirrors m) (hv : m.verdict = none) :
    (m.next a).1 = t ∧ c'.Mirrors (m.next a).2 ∧ (m.next a).2.verdict = s.verdict? := by
  have hfinal := hm.isFinal_eq hwf
  have hchoice := hm.firstEligible?_eq ha hf
  cases h with
  | endOfInput hf' => exact absurd hf hf'
  | blocked hf' => exact absurd hf hf'
  | readFa hf' => simp [hf] at hf'
  | readPda hf' => simp [hf] at hf'
  | final _ hhalt =>
    have hnext : m.next a = (none, { m with verdict := some .accepted }) := by
      simp [TapeMachine.next, hv, ← hfinal, hhalt]
    rw [hnext]
    exact ⟨rfl, ⟨hm.state, hm.head, hm.cells, hm.blank⟩, rfl⟩
  | stuck _ hgo hnone =>
    have hnext : m.next a = (none, { m with verdict := some .stuck }) := by
      simp [TapeMachine.next, hv, ← hfinal, hgo, ← hchoice, hnone]
    rw [hnext]
    exact ⟨rfl, ⟨hm.state, hm.head, hm.cells, hm.blank⟩, rfl⟩
  | @readTm read write direction u _ hgo hu hl =>
    have hnext : m.next a = (some u, m.perform u) := by
      simp [TapeMachine.next, hv, ← hfinal, hgo, ← hchoice, hu]
    rw [hnext]
    refine ⟨rfl, hm.perform hl, ?_⟩
    simp only [TapeMachine.perform, hl]
    exact hv

/-! ## Decisions -/

/-- The engine shows the machine, with its verdict and the content of its tape. -/
structure Engine.Mirrors (e : Engine) (m : TapeMachine) : Prop where
  state : e.config.state = some m.state
  head : e.config.head = m.head
  verdict : e.status.verdict? = m.verdict
  cells : ∀ i : Nat, e.config.tape.read i = m.cells i
  blank : ∀ i ≥ e.config.tape.size, m.cells i = "_"
  content : ∀ n, (∀ i ≥ n, m.cells i = "_") →
    e.config.tape.content = Text.stripEnds (· == '_') ((List.range n).flatMap m.cells)

namespace Control

open Desk

variable {σ : Type}

/-- Several decisions, one after the other. -/
def decisions : Nat → Control σ (List Event)
  | 0 => return []
  | n + 1 => do
    let evs ← decisions n
    let ev ← decide
    return evs ++ [ev]

/-- After a decision the engine mirrors the machine after its step. -/
theorem exists_decide_mirrors {d : Desk σ} {m : TapeMachine} {timed : Bool}
    (hd : d.Recorded timed) (hwf : d.engine.automaton.WellFormed)
    (hf : d.engine.automaton.formalism = .tm) (hm : d.engine.config.Mirrors m)
    (hv : d.engine.status.verdict? = m.verdict) :
    ∃ ev d', d.decide = (.ok ev, d') ∧ ev.transition = (m.next d.engine.automaton).1 ∧
      d'.Recorded timed ∧ d'.engine.automaton = d.engine.automaton ∧
      d'.engine.config.Mirrors (m.next d.engine.automaton).2 ∧
      d'.engine.status.verdict? = (m.next d.engine.automaton).2.verdict := by
  cases hs : d.engine.status.isTerminal with
  | true =>
    have hsome : m.verdict.isSome = true := by rw [← hv, Status.verdict?, hs]; rfl
    have hstay : m.next d.engine.automaton = (none, m) := by rw [TapeMachine.next, hsome]; rfl
    rw [hstay]
    exact ⟨_, d, decide_of_terminal hs, rfl, hd, rfl, hm, hv⟩
  | false =>
    have hnone : m.verdict = none := by rw [← hv, Status.verdict?, hs]; rfl
    obtain ⟨t, c', s', log, hstep, hdecide⟩ := exists_decide hd.records hs
    obtain ⟨ht, hmirrors, hverdict⟩ := hstep.mirrors hd.records.typed hwf hf hm hnone
    exact ⟨_, _, hdecide, ht.symm, ⟨hd.records.moved hs hstep, hd.agenda⟩, rfl, hmirrors,
      hverdict.symm⟩

/-- The last of several decisions is made where the others have led. -/
theorem exec_decisions_succ {d d' : Desk σ} {n : Nat} {evs : List Event} {ev : Event}
    {d'' : Desk σ} (hfirst : exec (decisions n) d = (.ok evs, d'))
    (hlast : d'.decide = (.ok ev, d'')) :
    exec (decisions (n + 1)) d = (.ok (evs ++ [ev]), d'') := by
  rw [decisions, exec_bind, hfirst]
  simp only [exec_bind, exec_decide, hlast, exec_pure]

/-- After any number of decisions the engine mirrors the machine after as many steps. -/
theorem exists_decisions_mirrors {d : Desk σ} {m : TapeMachine} {timed : Bool}
    (hd : d.Recorded timed) (hwf : d.engine.automaton.WellFormed)
    (hf : d.engine.automaton.formalism = .tm) (hm : d.engine.config.Mirrors m)
    (hv : d.engine.status.verdict? = m.verdict) (n : Nat) :
    ∃ evs d', exec (decisions n) d = (.ok evs, d') ∧
      evs.map Event.transition = (m.run d.engine.automaton n).1 ∧
      d'.Recorded timed ∧ d'.engine.automaton = d.engine.automaton ∧
      d'.engine.config.Mirrors (m.run d.engine.automaton n).2 ∧
      d'.engine.status.verdict? = (m.run d.engine.automaton n).2.verdict := by
  induction n with
  | zero => exact ⟨[], d, rfl, rfl, hd, rfl, hm, hv⟩
  | succ n ih =>
    obtain ⟨evs, d', hfirst, hevs, hd', ha', hm', hv'⟩ := ih
    rw [← ha'] at hwf hf
    obtain ⟨ev, d'', hlast, hev, hd'', ha'', hm'', hv''⟩ :=
      exists_decide_mirrors hd' hwf hf hm' hv'
    rw [ha'] at hev ha'' hm'' hv''
    refine ⟨_, d'', exec_decisions_succ hfirst hlast, ?_, hd'', ha'', hm'', hv''⟩
    rw [List.map_append, hevs, List.map_singleton, hev]
    rfl

end Control

/-- An engine mirrors a machine if its configuration and its verdict do. -/
theorem Configuration.Mirrors.engine {e : Engine} {m : TapeMachine} (h : e.config.Mirrors m)
    (hv : e.status.verdict? = m.verdict) : e.Mirrors m where
  state := h.state
  head := h.head
  verdict := hv
  cells := h.cells
  blank _ hi := h.cells_of_size_le hi
  content _ hn := h.content_eq hn

open Control in
/-- An engine that runs a Turing machine makes the steps of the machine on the infinite tape : after
any number of decisions the same transitions have been applied, and the engine shows the machine. -/
theorem mirrors_of_decisions {σ : Type} {a : Automaton} {w : Text} {delay : Int} {manualAck : Bool}
    {maxSteps : Option Int} {agenda : Option Agenda} {owner : Nat} {outside : σ} {d : Desk σ}
    (ha : a.Typed) (hf : a.formalism = .tm)
    (hd : Desk.start a w delay manualAck maxSteps agenda owner outside = .ok d) :
    ∃ s ∈ a.states, s.initial = true ∧ ∀ n, ∃ evs d', exec (decisions n) d = (.ok evs, d') ∧
      evs.map Event.transition = ((TapeMachine.start s.name w).run a n).1 ∧
      d'.engine.Mirrors ((TapeMachine.start s.name w).run a n).2 := by
  have hrecorded := Desk.recorded_start ha hd
  obtain ⟨hv, rfl⟩ := Desk.start_ok hd
  have hwf := Automaton.validate_eq_ok_iff.1 hv
  obtain ⟨s, hs, hinitial, hmirrors⟩ := Configuration.mirrors_start hwf hf w
  refine ⟨s, hs, hinitial, fun n => ?_⟩
  obtain ⟨evs, d', hexec, hevs, -, -, hm', hv'⟩ :=
    exists_decisions_mirrors hrecorded hwf hf hmirrors rfl n
  exact ⟨evs, d', hexec, hevs, hm'.engine hv'⟩

open Control in
/-- The carry of `11` gets to the left end and overwrites the first cell there. -/
theorem mirrors_of_decisions_binaryIncrement :
    let a := Catalog.binaryIncrement.automaton
    a.Typed ∧ a.formalism = .tm ∧
      ∃ d, Desk.start a "11" 200 false none none 0 () = .ok d ∧
        ∃ evs d', exec (decisions 7) d = (.ok evs, d') ∧
          d'.engine.Mirrors ((TapeMachine.start "q0" "11").run a 7).2 ∧
          d'.engine.status = .accepted ∧ d'.engine.config.tape.content = "10" := by
  intro a
  have ha : a.Typed := by decide
  have hd : Desk.start a "11" 200 false none none 0 () = .ok _ := rfl
  refine ⟨ha, rfl, _, hd, ?_⟩
  obtain ⟨s, hs, hinitial, hall⟩ := mirrors_of_decisions ha rfl hd
  have hname : s.name = "q0" := by
    have honly : ∀ s ∈ a.states, s.initial = true → s.name = "q0" := by decide
    exact honly s hs hinitial
  obtain ⟨evs, d', hexec, -, hmirrors⟩ := hall 7
  have hd' : (exec (decisions 7) _).2 = d' := congrArg Prod.snd hexec
  rw [hname] at hmirrors
  refine ⟨evs, d', hexec, hmirrors, ?_, ?_⟩
  · rw [← hd']
    decide +kernel
  · rw [← hd']
    decide +kernel

end AutomatonLab
