import AutomatonLab.Proofs.Record
import AutomatonLab.Proofs.Routine

/-!
# Verdicts

A run that has ended stands where one of the conditions holds under which its verdict is given
(`Configuration.Ends`), since the last step of a computation that has halted is a step of that
configuration (`Computation.halting_step`), and the cursor never passes the end of the input
(`Computation.cursor_le_length`). From then on it rests : every call but a reset and the loading of
a well-formed automaton leaves it as it is and tells nobody (`Desk.Concluded`). Conversely a
decision that is made where such a condition holds gives that verdict (`Desk.exists_decide_ends`).
-/

namespace AutomatonLab

namespace Configuration

variable {a : Automaton} {c : Configuration}

/-- No transition is eligible for the symbol. A pushdown automaton has none that reads nothing
either. -/
def Blocked (a : Automaton) (c : Configuration) (symbol : Text) : Prop :=
  ∀ t ∈ a.transitions, c.eligible symbol t = false ∧
    (a.formalism = .pda → c.eligible Label.epsilon t = false)

/-- No transition is chosen exactly if all are blocked. -/
theorem firstEligible?_eq_none_iff {symbol : Text} :
    c.firstEligible? a symbol = none ↔ c.Blocked a symbol := by
  simp only [firstEligible?, Blocked]
  split
  case isTrue hf => simp [hf, forall_and]
  case isFalse hf => simp [hf]

/-- The condition under which a run ends with the status. -/
def Ends (a : Automaton) (c : Configuration) : Status → Prop
  | .accepted => c.isFinal a = true ∧ (a.formalism ≠ .tm → c.cursor = c.input.length)
  | .rejected => a.formalism ≠ .tm ∧
    (c.cursor = c.input.length ∧ c.isFinal a = false ∨
      c.cursor < c.input.length ∧ ∃ symbol, c.next? = some symbol ∧ c.Blocked a symbol)
  | .stuck => a.formalism = .tm ∧ c.isFinal a = false ∧ c.Blocked a c.scanned
  | .ready => False
  | .running => False

/-- There is no next symbol exactly if the cursor is at the end. -/
theorem next?_eq_none_iff (hc : 0 ≤ c.cursor) :
    c.next? = none ↔ (c.input.length : Int) ≤ c.cursor := by
  obtain ⟨n, hn⟩ := Int.eq_ofNat_of_zero_le hc
  simp [next?, hn]

end Configuration

variable {a : Automaton} {c c' : Configuration} {t : Option Transition} {s v : Status}

/-- A step that halts does so where the condition for its status holds. -/
theorem Step.ends (h : Step a c none c' v) (hc : 0 ≤ c.cursor)
    (hle : c.cursor ≤ c.input.length) : c.Ends a v := by
  cases h with
  | endOfInput hf hn =>
    have hend : c.cursor = c.input.length :=
      Int.le_antisymm hle ((Configuration.next?_eq_none_iff hc).1 hn)
    cases hfinal : c.isFinal a with
    | true => exact ⟨hfinal, fun _ => hend⟩
    | false => exact ⟨hf, Or.inl ⟨hend, hfinal⟩⟩
  | blocked hf hn hu =>
    have hlt : c.cursor < c.input.length := by
      have := mt (Configuration.next?_eq_none_iff hc).2 (by simp [hn])
      omega
    exact ⟨hf, Or.inr ⟨hlt, _, hn, Configuration.firstEligible?_eq_none_iff.1 hu⟩⟩
  | final hf hfinal => exact ⟨hfinal, fun hf' => absurd hf hf'⟩
  | stuck hf hfinal hu => exact ⟨hf, hfinal, Configuration.firstEligible?_eq_none_iff.1 hu⟩

/-- Where the condition for a status holds, a step halts with that status. -/
theorem Configuration.Ends.step (h : c.Ends a v) (hc : 0 ≤ c.cursor) : Step a c none c v := by
  cases v with
  | ready => exact h.elim
  | running => exact h.elim
  | accepted =>
    obtain ⟨hfinal, hend⟩ := h
    by_cases hf : a.formalism = .tm
    · exact .final hf hfinal
    · have hstep := Step.endOfInput hf ((next?_eq_none_iff hc).2 (Int.le_of_eq (hend hf).symm))
      rwa [hfinal] at hstep
  | rejected =>
    obtain ⟨hf, ⟨hend, hfinal⟩ | ⟨-, symbol, hn, hblocked⟩⟩ := h
    · have hstep := Step.endOfInput hf ((next?_eq_none_iff hc).2 (Int.le_of_eq hend.symm))
      rwa [hfinal] at hstep
    · exact .blocked hf hn (firstEligible?_eq_none_iff.2 hblocked)
  | stuck =>
    obtain ⟨hf, hfinal, hblocked⟩ := h
    exact .stuck hf hfinal (firstEligible?_eq_none_iff.2 hblocked)

/-- A step reads at most one symbol, and none at the end of the input. -/
theorem Step.cursor_le_length (h : Step a c t c' s) (hc : 0 ≤ c.cursor)
    (hle : c.cursor ≤ c.input.length) : c'.cursor ≤ c'.input.length := by
  have hread : ∀ {symbol}, c.next? = some symbol → c.cursor + 1 ≤ c.input.length := by
    intro symbol hn
    have := mt (Configuration.next?_eq_none_iff hc).2 (by simp [hn])
    omega
  cases h with
  | readFa _ hn => exact hread hn
  | readPda _ hn =>
    have := hread hn
    simp only
    split <;> omega
  | _ => exact hle

namespace Computation

variable {w : Text} {g : Nat} {es : List Event}

/-- The cursor does not pass the end of the input. -/
theorem cursor_le_length (h : Computation a w g es c s) : c.cursor ≤ c.input.length := by
  induction h with
  | start => exact Int.natCast_nonneg _
  | step h₀ _ hstep ih => exact hstep.cursor_le_length h₀.cursor_nonneg ih

/-- A computation that has halted stands where its last step has left it. -/
theorem halting_step (h : Computation a w g es c s) (hs : s.isTerminal = true) :
    Step a c none c s := by
  cases h with
  | start => exact absurd hs (by decide)
  | step h₀ _ hstep =>
    rcases hstep.status_cases with ⟨-, rfl⟩ | ⟨rfl, -, rfl⟩
    · exact absurd hs (by decide)
    · exact hstep

/-- A computation with a verdict ends as that verdict says. -/
theorem ends (h : Computation a w g es c s) (hs : s.isTerminal = true) : c.Ends a s :=
  (h.halting_step hs).ends h.cursor_nonneg h.cursor_le_length

end Computation

/-! ## A run that has ended rests -/

namespace Control

open Desk

variable {σ α : Type} {d : Desk σ}

/-- The call leaves the run of the desk as it is, and tells nobody : what it does is the same for
all listeners. -/
def Inert (d : Desk σ) (call : Notify σ → Control σ α) : Prop :=
  ∃ r d', (∀ notify, exec (call notify) d = (r, d')) ∧ d.SameRun d' ∧ d'.outside = d.outside

/-- A call is inert if it changes nothing whoever listens. -/
theorem inert_of_eq {call : Notify σ → Control σ α} {r : Except Fault α}
    (h : ∀ notify, exec (call notify) d = (r, d)) : Inert d call :=
  ⟨r, d, h, ⟨rfl, rfl, rfl⟩, rfl⟩

theorem inert_pause (d : Desk σ) : Inert d fun _ => pause :=
  ⟨_, _, fun _ => exec_pause d, d.sameRun_pause, rfl⟩

/-- Loading is inert if the automaton is refused. -/
theorem inert_load {a : Automaton} (input : Option Text) (ha : a.validate ≠ .ok ())
    (d : Desk σ) : Inert d fun _ => load a input := by
  rcases hv : a.validate with defect | ⟨⟩
  · exact inert_of_eq fun _ => exec_load_of_invalid hv input d
  · exact absurd hv ha

theorem inert_decide (hs : d.engine.status.isTerminal = true) : Inert d fun _ => decide :=
  inert_of_eq fun _ => decide_of_terminal hs

/-- After the verdict a step by hand is inert. -/
theorem inert_step (hs : d.engine.status.isTerminal = true) : Inert d step := by
  cases hflight : d.engine.inFlight with
  | true =>
    refine ⟨.ok none, d.note [busyNote], fun notify => ?_, d.sameRun_note _, rfl⟩
    rw [exec_step, hflight]
    rfl
  | false =>
    refine inert_of_eq (r := .ok none) fun notify => ?_
    rw [exec_step, hflight, hs]
    rfl

/-- After the verdict an automatic run is inert. -/
theorem inert_run (hs : d.engine.status.isTerminal = true) (allowance : Nat) :
    Inert d fun notify => run notify allowance := by
  refine inert_of_eq (r := .ok false) fun notify => ?_
  rw [exec_run, hs, Bool.or_true]
  rfl

/-- A run that does not go on by itself makes no step when its step in flight is confirmed. -/
theorem inert_acknowledge (hrunning : d.engine.running = false) (allowance : Nat)
    (generation : Option Int) :
    Inert d fun notify => acknowledge notify allowance generation := by
  cases hflight : d.engine.inFlight with
  | false =>
    refine inert_of_eq (r := .ok ()) fun notify => ?_
    rw [exec_acknowledge, hflight]
    rfl
  | true =>
    cases hstale : generation.filter (· ≠ (d.engine.generation : Int)) with
    | some other =>
      refine ⟨.ok (), d.note [staleNote other], fun notify => ?_, d.sameRun_note _, rfl⟩
      rw [exec_acknowledge, hflight, hstale]
      rfl
    | none =>
      refine ⟨.ok (), d.confirmed, fun notify => ?_, d.sameRun_confirmed, rfl⟩
      rw [exec_acknowledge, hflight, hstale, hrunning]
      rfl

/-- A timer that is due does not continue a run that does not go on by itself. -/
theorem inert_fire (hrunning : d.engine.running = false) (handle : Option Nat) :
    Inert d fun notify => fire notify handle := by
  cases hjob : d.agenda.bind fun g => handle.elim g.oldest? g.job? with
  | none =>
    refine inert_of_eq (r := .ok none) fun notify => ?_
    rw [exec_fire, hjob]
  | some j =>
    have helapsed : d.SameRun (d.elapsed j) := d.sameRun_elapsed j
    cases htask : j.task with
    | settle generation =>
      refine ⟨.ok (some j.handle), d.elapsed j, fun notify => ?_, helapsed, rfl⟩
      rw [exec_fire, hjob]
      simp only [exec_due, htask]
      rfl
    | resume generation =>
      have hwoken : d.SameRun (d.elapsed j).woken := ⟨rfl, rfl, helapsed.agenda⟩
      have hstop : (d.elapsed j).engine.running = false := hrunning
      refine ⟨.ok (some j.handle), (d.elapsed j).woken, fun notify => ?_, hwoken, rfl⟩
      rw [exec_fire, hjob]
      simp only [exec_due, htask, exec_resume, hstop, Bool.not_false, Bool.or_true, Bool.true_or,
        if_true]
      rfl

end Control

namespace Desk

open Control

variable {σ : Type} {d : Desk σ} {timed : Bool}

/-- The run has ended where its verdict is justified, and only a reset or another automaton moves
it. -/
structure Concluded (d : Desk σ) : Prop where
  running : d.engine.running = false
  ends : d.engine.config.Ends d.engine.automaton d.engine.status
  step : Inert d Control.step
  run : ∀ allowance, Inert d fun notify => Control.run notify allowance
  pause : Inert d fun _ => Control.pause
  acknowledge : ∀ allowance generation,
    Inert d fun notify => Control.acknowledge notify allowance generation
  decide : Inert d fun _ => Control.decide
  load : ∀ a input, a.validate ≠ .ok () → Inert d fun _ => Control.load a input
  fire : ∀ handle, Inert d fun notify => Control.fire notify handle

/-- A recorded desk with a verdict has concluded. -/
theorem Recorded.concluded (h : d.Recorded timed) (hs : d.engine.status.isTerminal = true)
    (hrunning : d.engine.running = false) : d.Concluded where
  running := hrunning
  ends := h.records.computation.ends hs
  step := inert_step hs
  run := inert_run hs
  pause := inert_pause d
  acknowledge := inert_acknowledge hrunning
  decide := inert_decide hs
  load _ input ha := inert_load input ha d
  fire := inert_fire hrunning

/-- An automatic run does not go on after the end. -/
def Stopped (d : Desk σ) : Prop :=
  d.engine.status.isTerminal = true → d.engine.running = false

/-- A verdict that is decided stops the run. -/
theorem stopped_decide (h : d.Stopped) : d.decide.2.Stopped := by
  rcases d.decide_cases with ⟨-, hdecide⟩ | ⟨-, fault, hdecide⟩ | ⟨-, decision, log, -, hdecide⟩
  · rwa [hdecide]
  · rw [hdecide]
    exact fun hs => nomatch hs
  · rw [hdecide]
    intro hs
    have hs' : decision.status.isTerminal = true := hs
    simp [Engine.moved, hs']

/-- Apart from a decision, a call changes the status only to one that is not the end. -/
theorem routine_stopped : Routine fun d d' : Desk σ => d.Stopped → d'.Stopped where
  refl _ := id
  trans h h' := h' ∘ h
  outside _ _ := id
  note _ _ := id
  decide _ := stopped_decide
  launch d ev h := by
    unfold Desk.launch
    split <;> exact h
  observeLimit d h := by
    unfold Desk.observeLimit
    split
    · exact fun _ => rfl
    · exact h
  askTimer _ _ := id
  begun _ _ hs := nomatch hs
  drains h := h
  confirmed _ := id
  pause _ _ _ := rfl
  reset _ _ _ _ := rfl
  load _ _ _ := rfl
  resumed _ _ := id
  settled _ _ := id

/-- A new desk does not run. -/
theorem stopped_start {a : Automaton} {w : Text} {delay : Int} {manualAck : Bool}
    {maxSteps : Option Int} {agenda : Option Agenda} {owner : Nat} {outside : σ}
    (hd : Desk.start a w delay manualAck maxSteps agenda owner outside = .ok d) : d.Stopped := by
  obtain ⟨-, rfl⟩ := Desk.start_ok hd
  exact fun _ => rfl

/-- A decision that is made where the condition for a status holds ends the run with that status,
and leaves all else as it is. -/
theorem Recorded.exists_decide_ends (h : d.Recorded timed)
    (hs : d.engine.status.isTerminal = false) {v : Status}
    (hends : d.engine.config.Ends d.engine.automaton v) :
    ∃ ev d', exec Control.decide d = (.ok ev, d') ∧ ev.transition = none ∧
      d'.engine.status = v ∧ d'.engine.config = d.engine.config ∧
      d'.engine.steps = d.engine.steps ∧ d'.engine.consumed = d.engine.consumed := by
  obtain ⟨t, c', s', log, hstep, hdecide⟩ := exists_decide h.records hs
  have hc := h.records.computation.cursor_nonneg
  obtain ⟨rfl, rfl, rfl⟩ := hstep.unique h.records.typed hc (hends.step hc)
  exact ⟨_, _, hdecide, rfl, rfl, rfl, rfl, rfl⟩

end Desk

open Control in
/-- However an engine was driven : once its run has ended, it has ended where its verdict is
justified, and nothing but a reset or another automaton moves it. As long as the run has not ended,
a decision that is made where a verdict is justified gives that verdict and moves nothing. -/
theorem concluded_of_play {σ α : Type} {a : Automaton} {w : Text} {delay : Int} {manualAck : Bool}
    {maxSteps : Option Int} {agenda : Option Agenda} {owner : Nat} {outside : σ} {d : Desk σ}
    {raising : Bool} {call : Control σ α} (ha : a.Typed)
    (hd : Desk.start a w delay manualAck maxSteps agenda owner outside = .ok d)
    (hplay : Play raising call) :
    let d' := (exec call d).2
    (d'.engine.status.isTerminal = true → d'.Concluded) ∧
    (d'.engine.status.isTerminal = false →
      ∀ v, d'.engine.config.Ends d'.engine.automaton v →
        ∃ ev d'', exec Control.decide d' = (.ok ev, d'') ∧ ev.transition = none ∧
          d''.engine.status = v ∧ d''.engine.config = d'.engine.config ∧
          d''.engine.steps = d'.engine.steps ∧ d''.engine.consumed = d'.engine.consumed) := by
  intro d'
  have hrecorded := (hplay.keeps d (Desk.recorded_start ha hd)).recorded
  have hstopped : d'.Stopped := hplay.routine Desk.routine_stopped d (Desk.stopped_start hd)
  exact ⟨fun hs => hrecorded.concluded hs (hstopped hs),
    fun hs _ hends => hrecorded.exists_decide_ends hs hends⟩

open Control in
/-- After the only letter a decision rejects, since the state is not final; a run that has ended so
rests, although its step is still in flight. -/
theorem concluded_of_play_evenA :
    let quiet : Notify Unit := fun _ => pure ()
    let call : Control Unit Event := do
      let _ ← run quiet 1
      decide
    Catalog.evenA.automaton.Typed ∧ Play false (step quiet) ∧ Play false call ∧
      ∃ d, Desk.start Catalog.evenA.automaton "a" 200 true none (some (.empty false)) 0 () = .ok d ∧
        (∃ ev d', exec decide (exec (step quiet) d).2 = (.ok ev, d') ∧
          d'.engine.status = .rejected) ∧
        (exec call d).2.engine.status = .rejected ∧ (exec call d).2.engine.inFlight = true ∧
        (exec call d).2.Concluded := by
  intro quiet call
  have hquiet : ∀ ev, Play false (quiet ev) := fun _ => .ret ()
  have ha : Catalog.evenA.automaton.Typed := by decide
  have hstep : Play false (step quiet) := .step hquiet
  have hplay : Play false call := .bind (.run 0 hquiet) fun _ => .decide
  obtain ⟨d, hd⟩ : ∃ d, Desk.start Catalog.evenA.automaton "a" 200 true none
      (some (.empty false)) 0 () = .ok d := ⟨_, rfl⟩
  refine ⟨ha, hstep, hplay, d, hd, ?_⟩
  have hconcluded := (concluded_of_play ha hd hplay).1
  have hdecide := (concluded_of_play ha hd hstep).2
  cases hd
  obtain ⟨ev, d', hdecide, -, hstatus, -⟩ :=
    hdecide rfl .rejected ⟨by decide, Or.inl ⟨rfl, rfl⟩⟩
  exact ⟨⟨ev, d', hdecide, hstatus⟩, rfl, rfl, hconcluded rfl⟩

end AutomatonLab
