import AutomatonLab.Proofs.Tape
import AutomatonLab.Proofs.Verdict
import AutomatonLab.Proofs.WellFormed
import Mathlib.Data.List.Chain

/-!
# Where a run can stand

A run stands in a declared state, and only moves what its formalism uses. A finite automaton has
read as many symbols as it has made steps (`BoundsFa`). The stack of a pushdown automaton is what
its labels make of the empty stack, where each pop finds its symbol on the top (`Stack.replay?`,
`BoundsPda`). The head of a Turing machine is on the filled cells or right behind them, so that a
write adds at most one cell, and the cells reach no farther than the input and the head have been
(`BoundsTm`).

A step keeps the bounds, so they hold along every computation (`Computation.boundsFa` and so on). An
engine records a computation of the automaton that is loaded,
which is well-formed after every play (`Desk.routine_wellFormed`); hence its bounds
(`inBounds_of_play`).
-/

namespace AutomatonLab

/-! ## What labels do to a stack -/

namespace Label

/-- The symbol of the input that is read. A Turing machine reads its tape instead. -/
def input? : Label → Option Text
  | fa symbol => some symbol
  | pda input _ _ => if input = epsilon then none else some input
  | tm .. => none

/-- The symbol that is taken from the stack. -/
def pop? : Label → Option Text
  | pda _ pop _ => if pop = epsilon then none else some pop
  | _ => none

/-- The symbol that is put on the stack. -/
def push? : Label → Option Text
  | pda _ _ push => if push = epsilon then none else some push
  | _ => none

end Label

/-- Every transition of a finite automaton reads. -/
theorem Automaton.Typed.reads_of_fa {a : Automaton} (ha : a.Typed) (hf : a.formalism = .fa) :
    ∀ t ∈ a.transitions, t.label.input? ≠ none := by
  intro t ht
  have hlabel := (ha.labels t ht).trans hf
  cases hl : t.label with
  | fa symbol => exact Option.some_ne_none symbol
  | pda input pop push => simp [hl, Label.formalism] at hlabel
  | tm read write direction => simp [hl, Label.formalism] at hlabel

namespace Stack

variable {s s' : Stack} {symbol : Text} {l : Label}

/-- The stack without its top, which must be `symbol`. -/
def take? (s : Stack) (symbol : Text) : Option Stack :=
  if s.top? = some symbol then some s.pop else none

/-- The stack after a label, which must find the symbol that it pops on the top. -/
def replay? (s : Stack) (l : Label) : Option Stack :=
  (l.pop?.elim (some s) s.take?).map fun popped => l.push?.elim popped popped.push

theorem size_push (s : Stack) (symbol : Text) : (s.push symbol).size = s.size + 1 :=
  List.length_append

theorem size_take? (h : s.take? symbol = some s') : s'.size + 1 = s.size := by
  unfold take? at h
  split at h
  case isTrue htop =>
    have hne : s.items ≠ [] := by
      intro hnil
      simp [top?, hnil] at htop
    obtain rfl := Option.some.inj h
    have hpos := List.length_pos_iff.2 hne
    simp only [size, pop, List.length_dropLast]
    omega
  case isFalse => cases h

/-- What a label pushes and pops is all that changes the size of the stack. -/
theorem size_replay? (h : s.replay? l = some s') :
    s'.size + l.pop?.toList.length = s.size + l.push?.toList.length := by
  obtain ⟨popped, hpopped, rfl⟩ := Option.map_eq_some_iff.1 h
  have htaken : popped.size + l.pop?.toList.length = s.size := by
    cases hpop : l.pop? with
    | none =>
      rw [hpop] at hpopped
      obtain rfl := Option.some.inj hpopped
      rfl
    | some symbol =>
      rw [hpop] at hpopped
      exact size_take? hpopped
  cases l.push? with
  | none => exact htaken
  | some symbol =>
    show (popped.push symbol).size + _ = s.size + 1
    rw [size_push]
    omega

/-- The depth of a stack counts the pushes and the pops. -/
theorem size_foldlM_replay? {ls : List Label} (h : ls.foldlM replay? s = some s') :
    s'.size + (ls.filterMap Label.pop?).length = s.size + (ls.filterMap Label.push?).length := by
  induction ls generalizing s with
  | nil =>
    obtain rfl := Option.some.inj h
    rfl
  | cons l ls ih =>
    obtain ⟨s₁, hfirst, hrest⟩ := Option.bind_eq_some_iff.1 h
    have hone := size_replay? hfirst
    have hmany := ih hrest
    rw [List.filterMap_cons, List.filterMap_cons]
    cases hpop : l.pop? <;> cases hpush : l.push? <;> simp [hpop, hpush] at hone ⊢ <;> omega

end Stack

/-! ## What one step changes -/

section Step

variable {a : Automaton} {c c' : Configuration} {t : Option Transition} {u : Transition}
  {s : Status}

/-- A transition moves the position by the symbols it reads, one or none. -/
theorem Step.cursor_eq (h : Step a c (some u) c' s) :
    c'.cursor = c.cursor + (u.label.input?.toList.length : Int) := by
  cases h with
  | readFa _ _ _ hl =>
    rw [hl]
    rfl
  | readPda _ _ _ hl _ =>
    rw [hl, Label.input?]
    split <;> simp [*]
  | readTm _ _ _ hl =>
    rw [hl]
    exact (Int.add_zero _).symm

/-- The symbol that is popped has been found on the top. -/
theorem Step.replay?_stack (h : Step a c (some u) c' s) :
    c.stack.replay? u.label = some c'.stack := by
  by_cases hf : a.formalism = .pda
  · obtain ⟨input, pop, push, hl, -, -, hpop, rfl⟩ := h.taken_pda hf
    have htaken : u.label.pop?.elim (some c.stack) c.stack.take? =
        some (if pop = Label.epsilon then c.stack else c.stack.pop) := by
      rw [hl, Label.pop?]
      split
      case isTrue => rfl
      case isFalse hne => simp [Stack.take?, hpop.resolve_left hne]
    rw [Stack.replay?, htaken, Configuration.apply, hl, Label.push?]
    split <;> simp [*]
  · cases h with
    | readFa _ _ _ hl =>
      rw [hl]
      rfl
    | readPda hf' => exact absurd hf' hf
    | readTm _ _ _ hl =>
      rw [hl]
      rfl

/-- Only a pushdown automaton has a stack. -/
theorem Step.stack_eq (hf : a.formalism ≠ .pda) (h : Step a c t c' s) : c'.stack = c.stack := by
  cases h with
  | readPda hf' => exact absurd hf' hf
  | _ => rfl

/-- Only a Turing machine has a tape. -/
theorem Step.tape_eq (hf : a.formalism ≠ .tm) (h : Step a c t c' s) :
    c'.tape = c.tape ∧ c'.head = c.head := by
  cases h with
  | readTm hf' => exact absurd hf' hf
  | _ => exact ⟨rfl, rfl⟩

end Step

/-! ## What a run has shown -/

namespace Computation

/-- The labels of the transitions, in their order. -/
def labels (es : List Event) : List Label :=
  (es.filterMap Event.transition).map Transition.label

@[simp] theorem labels_taken (es : List Event) (u : Transition) (sn : Snapshot) (s : Status)
    (g : Nat) : labels (es ++ [⟨some u, sn, s, g⟩]) = labels es ++ [u.label] := by
  simp [labels]

@[simp] theorem labels_halted (es : List Event) (sn : Snapshot) (s : Status) (g : Nat) :
    labels (es ++ [⟨none, sn, s, g⟩]) = labels es := by
  simp [labels]

/-- The start, and where each event has led. -/
def snapshots (a : Automaton) (w : Text) (es : List Event) : List Snapshot :=
  (Configuration.start a w).snapshot :: es.map Event.snapshot

theorem snapshots_snoc (a : Automaton) (w : Text) (es : List Event) (ev : Event) :
    snapshots a w (es ++ [ev]) = snapshots a w es ++ [ev.snapshot] := by
  simp [snapshots]

/-- The rightmost of the position zero and of all where the head has been. -/
def farthest (es : List Event) : Int :=
  (es.map fun ev => ev.snapshot.head).foldl max 0

/-- The farthest place of the head is taken over all events. -/
theorem farthest_snoc (es : List Event) (ev : Event) :
    farthest (es ++ [ev]) = max (farthest es) ev.snapshot.head := by
  simp [farthest]

variable {a : Automaton} {w : Text} {g : Nat} {es : List Event} {c : Configuration} {s : Status}

/-- The last snapshot is that of the configuration where the run stands. -/
theorem getLast?_snapshots (h : Computation a w g es c s) :
    (snapshots a w es).getLast? = some c.snapshot := by
  cases h with
  | start => rfl
  | step => rw [snapshots_snoc, List.getLast?_concat]

/-- A computation stands in a declared state. -/
theorem declared (ha : a.WellFormed) (h : Computation a w g es c s) :
    ∃ state ∈ a.states, c.state = some state.name := by
  induction h with
  | start => exact ha.exists_start
  | step _ _ hstep ih =>
    rcases hstep.status_cases with ⟨⟨u, rfl⟩, -⟩ | ⟨rfl, -, rfl⟩
    · obtain ⟨hu, -, htarget⟩ := hstep.joins
      obtain ⟨state, hstate, hname⟩ := List.mem_map.1 (ha.endpoints u hu).2
      exact ⟨state, hstate, by rw [htarget, hname]⟩
    · exact ih

/-- The cursor counts the symbols that were read. -/
theorem cursor_eq (h : Computation a w g es c s) :
    c.cursor = ((labels es).filterMap Label.input?).length := by
  induction h with
  | start => rfl
  | step _ _ hstep ih =>
    rcases hstep.status_cases with ⟨⟨u, rfl⟩, -⟩ | ⟨rfl, -, rfl⟩
    · rw [hstep.cursor_eq, ih, labels_taken, List.filterMap_append, List.length_append]
      cases hread : u.label.input? <;> simp [hread]
    · rw [ih, labels_halted]

/-- The stack is what the labels taken so far push and pop. -/
theorem replay_stack (h : Computation a w g es c s) :
    (labels es).foldlM Stack.replay? .empty = some c.stack := by
  induction h with
  | start => rfl
  | step _ _ hstep ih =>
    rcases hstep.status_cases with ⟨⟨u, rfl⟩, -⟩ | ⟨rfl, -, rfl⟩
    · simp [List.foldlM_append, ih, hstep.replay?_stack]
    · rw [labels_halted, ih]

theorem stack_eq_empty (hf : a.formalism ≠ .pda) (h : Computation a w g es c s) :
    c.stack = .empty := by
  induction h with
  | start => rfl
  | step _ _ hstep ih => rw [hstep.stack_eq hf, ih]

/-- Only a Turing machine uses the tape. -/
theorem tape_eq_nil (hf : a.formalism ≠ .tm) (h : Computation a w g es c s) :
    c.tape.cells = [] ∧ c.head = 0 := by
  induction h with
  | start =>
    simp [Configuration.start, hf, Tape.ofInput, Text.singletons, Text.ofString, Text.ofChars]
  | step _ _ hstep ih =>
    obtain ⟨htape, hhead⟩ := hstep.tape_eq hf
    rwa [htape, hhead]

/-- A finite automaton reads a symbol with each transition. -/
theorem cursor_eq_transitions (hf : a.formalism = .fa) (h : Computation a w g es c s) :
    c.cursor = transitions es := by
  induction h with
  | start => rfl
  | step _ _ hstep ih =>
    rw [transitions_snoc]
    rcases hstep.status_cases with ⟨⟨u, rfl⟩, -⟩ | ⟨rfl, -, rfl⟩
    · obtain ⟨symbol, -, -, rfl⟩ := hstep.taken_fa hf
      simp [ih]
    · simpa using ih

theorem cursor_eq_zero (hf : a.formalism = .tm) (h : Computation a w g es c s) : c.cursor = 0 := by
  induction h with
  | start => rfl
  | step _ _ hstep ih =>
    rcases hstep.status_cases with ⟨⟨u, rfl⟩, -⟩ | ⟨rfl, -, rfl⟩
    · obtain ⟨read, write, direction, -, rfl⟩ := hstep.taken_tm hf
      exact ih
    · exact ih

end Computation

/-! ## The bounds -/

open AutomatonLab.Computation

/-- Where a finite automaton stands on `w` after a number of transitions, with the counter of what
it has consumed. -/
structure BoundsFa (w : Text) (c : Configuration) (steps : Nat) (consumed : Int) : Prop where
  cursor : c.cursor = steps
  consumed_eq : consumed = c.cursor
  within : c.cursor ≤ w.length
  stack : c.stack = .empty
  tape : c.tape.cells = []
  head : c.head = 0

/-- Where a pushdown automaton stands on `w` after the events `es`. -/
structure BoundsPda (w : Text) (es : List Event) (c : Configuration) (consumed : Int) :
    Prop where
  cursor : c.cursor = ((labels es).filterMap Label.input?).length
  consumed_eq : consumed = c.cursor
  within : c.cursor ≤ w.length
  stack : (labels es).foldlM Stack.replay? .empty = some c.stack
  depth : (c.stack.size : Int) =
    ((labels es).filterMap Label.push?).length - ((labels es).filterMap Label.pop?).length
  tape : c.tape.cells = []
  head : c.head = 0

/-- Where the head and the cells of a tape are that held `w` at first, after a number of transitions
and with the counter of how far the head has been. -/
structure OnTape (w : Text) (c : Configuration) (steps : Nat) (consumed : Int) : Prop where
  nonneg : 0 ≤ c.head
  le_size : c.head ≤ c.tape.size
  le_consumed : c.head ≤ consumed
  le_steps : consumed ≤ steps
  input_le : w.length ≤ c.tape.size
  size_le : (c.tape.size : Int) ≤ max (w.length : Int) (consumed + 1)

/-- From one snapshot to the next the machine writes on its cells or right behind them. -/
structure Snapshot.WritesNear (p q : Snapshot) : Prop where
  nonneg : 0 ≤ p.head
  le_length : p.head ≤ p.tape.length
  grows : q.tape.length ≤ p.tape.length + 1

/-- Where a Turing machine stands on `w` after the events `es`. -/
structure BoundsTm (a : Automaton) (w : Text) (es : List Event) (c : Configuration) (steps : Nat)
    (consumed : Int) : Prop extends OnTape w c steps consumed where
  cursor : c.cursor = 0
  stack : c.stack = .empty
  consumed_eq : consumed = farthest es
  writes : (snapshots a w es).IsChain Snapshot.WritesNear

/-- A write that adds a cell moves the bound on the cells with it, since it adds the one under the
head. -/
theorem OnTape.written {w : Text} {c : Configuration} {steps : Nat} {consumed : Int}
    (h : OnTape w c steps consumed) (write direction : Text) (state : Option Text) :
    OnTape w
      { c with
        state := state
        tape := c.tape.write c.head write
        head := Tape.move c.head direction }
      (steps + 1) (max consumed (Tape.move c.head direction)) := by
  obtain ⟨hnonneg, hsize, hconsumed, hsteps, hinput, hcells⟩ := h
  have hmoved : 0 ≤ Tape.move c.head direction := Tape.move_nonneg hnonneg
  have hnear : Tape.move c.head direction ≤ c.head + 1 := Tape.move_le hnonneg
  have hgrown := c.tape.size_write c.head write
  refine ⟨hmoved, ?_, Int.le_max_right _ _, by omega, ?_, ?_⟩
  · show Tape.move c.head direction ≤ (c.tape.write c.head write).size
    omega
  · show w.length ≤ (c.tape.write c.head write).size
    omega
  · show ((c.tape.write c.head write).size : Int) ≤ _
    omega

/-- A machine on its tape writes near its head, if its tape gets at most one cell more. -/
theorem OnTape.writesNear {w : Text} {c c' : Configuration} {steps : Nat} {consumed : Int}
    (h : OnTape w c steps consumed) (hsize : c'.tape.size ≤ c.tape.size + 1) :
    c.snapshot.WritesNear c'.snapshot :=
  ⟨h.nonneg, h.le_size, hsize⟩

/-- One step fills at most one more cell. -/
theorem Step.size_tape_le {a : Automaton} {c c' : Configuration} {t : Option Transition}
    {s : Status} (h : Step a c t c' s) (hhead : c.head ≤ c.tape.size) :
    c'.tape.size ≤ c.tape.size + 1 := by
  cases h with
  | @readTm read write direction u _ _ _ hl =>
    have hgrown := c.tape.size_write c.head write
    show (c.tape.write c.head write).size ≤ c.tape.size + 1
    omega
  | _ => exact Nat.le_add_right _ 1

namespace Computation

variable {a : Automaton} {w : Text} {g : Nat} {es : List Event} {c : Configuration} {s : Status}

/-- No run reads past the end of its input. -/
theorem within (h : Computation a w g es c s) : c.cursor ≤ w.length := by
  rw [← h.input_eq]
  exact h.cursor_le_length

/-- A finite automaton has read one symbol for each transition. -/
theorem boundsFa (hf : a.formalism = .fa) (h : Computation a w g es c s) :
    BoundsFa w c (transitions es) c.cursor := by
  obtain ⟨htape, hhead⟩ := h.tape_eq_nil (by simp [hf])
  exact ⟨h.cursor_eq_transitions hf, rfl, h.within, h.stack_eq_empty (by simp [hf]), htape, hhead⟩

/-- A pushdown automaton has read at most one symbol for each transition. -/
theorem boundsPda (hf : a.formalism = .pda) (h : Computation a w g es c s) :
    BoundsPda w es c c.cursor := by
  obtain ⟨htape, hhead⟩ := h.tape_eq_nil (by simp [hf])
  refine ⟨h.cursor_eq, rfl, h.within, h.replay_stack, ?_, htape, hhead⟩
  have hdepth := Stack.size_foldlM_replay? h.replay_stack
  have hempty : Stack.empty.size = 0 := rfl
  omega

/-- The head has moved by at most one cell for each transition. -/
theorem onTape (hf : a.formalism = .tm) (h : Computation a w g es c s) :
    OnTape w c (transitions es) (farthest es) := by
  induction h with
  | start =>
    have hsize : (Configuration.start a w).tape.size = w.length := by
      simp [Configuration.start, hf, Tape.size_ofInput]
    exact ⟨Int.le_refl 0, Int.natCast_nonneg _, Int.le_refl 0, Int.le_refl 0, hsize.ge, by omega⟩
  | step _ _ hstep ih =>
    rw [transitions_snoc, farthest_snoc]
    rcases hstep.status_cases with ⟨⟨u, rfl⟩, -⟩ | ⟨rfl, -, rfl⟩
    · obtain ⟨read, write, direction, -, rfl⟩ := hstep.taken_tm hf
      exact ih.written write direction _
    · have hstay := Int.max_eq_left ih.le_consumed
      simpa [Configuration.snapshot, hstay] using ih

/-- From each snapshot to the next the machine writes on its cells or right behind them. -/
theorem writes (hf : a.formalism = .tm) (h : Computation a w g es c s) :
    (snapshots a w es).IsChain Snapshot.WritesNear := by
  induction h with
  | start => exact List.isChain_singleton _
  | @step _ c c' _ _ _ h₀ _ hstep ih =>
    have hnear : c.snapshot.WritesNear c'.snapshot :=
      (h₀.onTape hf).writesNear (hstep.size_tape_le (h₀.onTape hf).le_size)
    rw [snapshots_snoc]
    refine List.isChain_append.2 ⟨ih, List.isChain_singleton _, fun p hp q hq => ?_⟩
    obtain rfl : p = c.snapshot := Option.some.inj (hp.symm.trans h₀.getLast?_snapshots)
    obtain rfl : c'.snapshot = q := Option.some.inj hq
    exact hnear

/-- A Turing machine has filled at most the cells that its head has seen. -/
theorem boundsTm (hf : a.formalism = .tm) (h : Computation a w g es c s) :
    BoundsTm a w es c (transitions es) (farthest es) where
  toOnTape := h.onTape hf
  cursor := h.cursor_eq_zero hf
  stack := h.stack_eq_empty (by simp [hf])
  consumed_eq := rfl
  writes := h.writes hf

end Computation

/-! ## The bounds of an engine -/

/-- Where an engine stands, for the formalism of its automaton. -/
structure Engine.InBounds (e : Engine) : Prop where
  declared : ∃ state ∈ e.automaton.states, e.config.state = some state.name
  fa : e.automaton.formalism = .fa → BoundsFa e.input e.config e.steps e.consumed
  pda : e.automaton.formalism = .pda →
    BoundsPda e.input e.history.toList e.config e.consumed
  tm : e.automaton.formalism = .tm →
    BoundsTm e.automaton e.input e.history.toList e.config e.steps e.consumed

/-- An engine with the record of a run is in bounds. -/
theorem Engine.Records.inBounds {e : Engine} {s : Status} (h : e.Records s)
    (ha : e.automaton.WellFormed) : e.InBounds where
  declared := h.computation.declared ha
  fa hf := by
    have hconsumed : e.consumed = e.config.cursor := by rw [h.consumed, hf]; rfl
    rw [h.steps, hconsumed]
    exact h.computation.boundsFa hf
  pda hf := by
    have hconsumed : e.consumed = e.config.cursor := by rw [h.consumed, hf]; rfl
    rw [hconsumed]
    exact h.computation.boundsPda hf
  tm hf := by
    have hconsumed : e.consumed = farthest e.history.toList := by rw [h.consumed, hf]; rfl
    rw [h.steps, hconsumed]
    exact h.computation.boundsTm hf

namespace Desk

open Control

variable {σ : Type} {d : Desk σ}

/-- Only a well-formed automaton takes the place of another one. -/
theorem routine_wellFormed : Routine fun d d' : Desk σ =>
    d.engine.automaton.WellFormed → d'.engine.automaton.WellFormed where
  refl _ := id
  trans h h' := h' ∘ h
  outside _ _ := id
  note _ _ := id
  decide d h := d.leaves_decide.automaton ▸ h
  launch d ev h := by
    unfold Desk.launch
    split <;> exact h
  observeLimit d h := by
    unfold Desk.observeLimit
    split <;> exact h
  askTimer _ _ := id
  begun _ := id
  drains h := h
  confirmed _ := id
  pause _ := id
  reset _ _ := id
  load ha _ := Automaton.validate_eq_ok_iff.1 ha
  resumed _ _ := id
  settled _ _ := id

end Desk

open Control in
/-- However an engine is driven, whether calls fail and automata are refused or not, it stands
within the bounds of its formalism. -/
theorem inBounds_of_play {σ α : Type} {a : Automaton} {w : Text} {delay : Int} {manualAck : Bool}
    {maxSteps : Option Int} {agenda : Option Agenda} {owner : Nat} {outside : σ} {d : Desk σ}
    {raising : Bool} {call : Control σ α} (ha : a.Typed)
    (hd : Desk.start a w delay manualAck maxSteps agenda owner outside = .ok d)
    (hplay : Play raising call) : (exec call d).2.engine.InBounds := by
  have hrecorded := (hplay.keeps d (Desk.recorded_start ha hd)).recorded
  refine hrecorded.records.inBounds (hplay.routine Desk.routine_wellFormed d ?_)
  obtain ⟨hv, rfl⟩ := Desk.start_ok hd
  exact Automaton.validate_eq_ok_iff.1 hv

open Control in
/-- A run of the pushdown automaton is given up for a Turing machine, whose head comes right behind
its cells; the automaton without states is refused. -/
theorem inBounds_of_play_binaryIncrement :
    let quiet : Notify Unit := fun _ => pure ()
    let call : Control Unit Event := do
      let _ ← run quiet 1
      tryCatch (load (.empty .fa) none) fun _ => pure ()
      load Catalog.binaryIncrement.automaton (some "1")
      let _ ← step quiet
      decide
    Catalog.anbn.automaton.Typed ∧ Play true call ∧
      ∃ d, Desk.start Catalog.anbn.automaton "ab" 200 false none (some (.empty true)) 0 () = .ok d ∧
        (exec call d).2.engine.InBounds ∧ (exec call d).2.engine.config.tape.size = 2 := by
  intro quiet call
  have hquiet : ∀ ev, Play true (quiet ev) := fun _ => .ret ()
  have ha : Catalog.anbn.automaton.Typed := by decide
  have hplay : Play true call :=
    .bind (.run 0 hquiet) fun _ => .bind (.tryLoad none (by decide) fun _ => .ret ()) fun _ =>
      .bind (.load _ rfl (by decide)) fun _ => .bind (.step hquiet) fun _ => .decide
  exact ⟨ha, hplay, _, rfl, inBounds_of_play ha rfl hplay, rfl⟩

end AutomatonLab
