import AutomatonLab.Proofs.AutomaticRun

/-!
# How a run finishes

`Finishes a c k d v` says that the automaton `a` takes `k` transitions from the configuration `c`
and then halts in `d` with the verdict `v`. It is built from the end, as a `Computation` is built
from the start : a configuration where a step halts finishes at once, and a step comes before what
finishes. So where a run finishes is proved along what it has still to do, the rest of the input or
the cells ahead of the head.

A computation that has come to `c` goes on as `c` finishes (`Computation.finish`). Hence an
automatic run without a limit returns, and has ended where the start configuration finishes
(`Control.exec_run_finishes`, `history_of_finishes`). It returns if its allowance is greater than
the number of its events, and not otherwise (`history_eq_ok_iff`). So what a run returns, with a
limit or without one, is also returned where another computation ends in the same way
(`history_of_same_end`).
-/

namespace AutomatonLab

/-- From the configuration `c` the automaton takes `k` transitions, and then halts in `d` with the
status `v`. -/
inductive Finishes (a : Automaton) : Configuration → Nat → Configuration → Status → Prop where
  | halt {c : Configuration} {v : Status} : Step a c none c v → Finishes a c 0 c v
  | step {c c' d : Configuration} {u : Transition} {k : Nat} {s v : Status} :
      Step a c (some u) c' s → Finishes a c' k d v → Finishes a c (k + 1) d v

variable {a : Automaton} {c d : Configuration} {k : Nat} {s v : Status} {w : Text} {g : Nat}
  {es : List Event}

/-- What finishes has a verdict. -/
theorem Finishes.isTerminal (h : Finishes a c k d v) : v.isTerminal = true := by
  induction h with
  | halt hstep => exact hstep.halted.1
  | step _ _ ih => exact ih

/-- A computation that has come to a configuration goes on as that finishes. -/
theorem Computation.finish (h : Computation a w g es c s) (hs : s.isTerminal = false)
    (hc : Finishes a c k d v) :
    ∃ es', Computation a w g es' d v ∧ es'.length = es.length + k + 1 := by
  induction hc generalizing es s with
  | halt hstep => exact ⟨_, h.step hs hstep, by simp⟩
  | step hstep _ ih =>
    obtain rfl := hstep.running_of_taken
    obtain ⟨es', hes', hlength⟩ := ih (h.step hs hstep) rfl
    refine ⟨es', hes', ?_⟩
    rw [hlength, List.length_append, List.length_singleton]
    omega

/-- Where the start configuration finishes, the computation halts. -/
theorem Finishes.computation (h : Finishes a (.start a w) k d v) :
    ∃ es, Computation a w 1 es d v ∧ es.length = k + 1 := by
  obtain ⟨es, hes, hlength⟩ := Computation.finish .start rfl h
  exact ⟨es, hes, by simpa using hlength⟩

/-- A run that finishes from the start halts. -/
theorem Finishes.halts (h : Finishes a (.start a w) k d v) : Halts a w k v := by
  obtain ⟨es, hes, hlength⟩ := h.computation
  exact ⟨1, es, d, hes, h.isTerminal, hlength⟩

/-! ## Runs without a limit -/

/-- The run of the engine has ended by itself, after `k` transitions, in the configuration `c` with
the verdict `v`. Each event but the last one has a transition. -/
structure Engine.Ended (e : Engine) (k : Nat) (c : Configuration) (v : Status) : Prop where
  config : e.config = c
  status : e.status = v
  terminal : v.isTerminal = true
  running : e.running = false
  steps : e.steps = k
  history : ∃ init last, e.history.toList = init ++ [last] ∧ init.length = k ∧
    (∀ ev ∈ init, ev.transition.isSome = true) ∧ last.transition = none

/-- An automatic run without a limit ends where its automaton finishes. -/
theorem Engine.Over.ended {p : Engine.Plan} {e : Engine} (h : e.Over p)
    (ha : p.automaton.Typed) (hp : p.maxSteps = none)
    (hfinishes : Finishes p.automaton (.start p.automaton p.input) k c v) : e.Ended k c v := by
  have hcapped := h.capped
  rw [hp] at hcapped
  obtain ⟨hcomputation, hterminal⟩ := hcapped.halted_of_unlimited
  obtain ⟨es, hes, hlength⟩ := hfinishes.computation
  have hes' := hes.retag p.generation
  have hle := hcomputation.length_le_of_terminal ha hterminal hes'
  have hge := hes'.length_le_of_terminal ha hfinishes.isTerminal hcomputation
  obtain ⟨hevents, hconfig, hstatus⟩ := hcomputation.unique ha hes' (by omega)
  have htransitions := hcomputation.transitions_succ_eq_length hterminal
  have hsize : e.history.toList.length = k + 1 := by rw [hevents, List.length_map, hlength]
  obtain ⟨init, s₀, hinit, h₀, hs₀⟩ := hcomputation.last_of_terminal hterminal
  refine ⟨hconfig, hstatus, hstatus ▸ hterminal, h.running, ?_, init, _, hinit, ?_, ?_, rfl⟩
  · rw [h.steps]
    omega
  · rw [hinit, List.length_append, List.length_singleton] at hsize
    omega
  · exact fun ev hev => (h₀.transitions_of_not_terminal hs₀ ev hev).1

/-- An automatic run without timers and without a limit returns, and has ended where the start
configuration finishes. -/
theorem Control.exec_run_finishes {σ : Type} {notify : Notify σ} {delay : Int} {owner : Nat}
    {outside : σ} {x : Desk σ} {allowance : Nat} (ha : a.Typed) (hn : Passive notify)
    (hx : Desk.start a w delay false none none owner outside = .ok x)
    (h : Finishes a (.start a w) k c v) (hroom : k + 2 ≤ allowance) :
    ∃ x', exec (run notify allowance) x = (.ok true, x') ∧ x'.engine.Ended k c v := by
  obtain ⟨-, rfl⟩ := Desk.start_ok hx
  have hfresh : Desk.Fresh false ⟨a, w, 1, none, false⟩
      (.new a w delay false none none owner outside : Desk σ) :=
    Desk.fresh_of_new ha (fun _ hN => nomatch hN) rfl rfl rfl
  obtain ⟨x', hrun, hover, -⟩ := exec_run_over hfresh (Engine.Plan.bounded_of_halts ha h.halts)
    (leads_of_passive hn rfl) hroom
  exact ⟨x', hrun, hover.ended ha rfl h⟩

/-- An automaton that finishes has its history within two steps more than its transitions. -/
theorem history_of_finishes {allowance : Nat} (ha : a.Typed) (hv : a.validate = .ok ())
    (h : Finishes a (.start a w) k c v) (hroom : k + 2 ≤ allowance) :
    ∃ es last, (Run.history allowance a w none).result = .ok (es ++ [last], v) ∧
      es.length = k ∧ last.snapshot = c.snapshot := by
  obtain ⟨es, hes, hlength⟩ := h.computation
  obtain ⟨init, s₀, rfl, h₀, -⟩ := hes.last_of_terminal h.isTerminal
  exact ⟨init, _, history_of_halts ha hv hroom hes h.isTerminal hlength, by simpa using hlength,
    rfl⟩

/-! ## What a run without a limit has used of its allowance -/

namespace Control

variable {σ : Type} {notify : Notify σ} {d d' : Desk σ}

/-- A step of which passive listeners are told adds at most one event. -/
theorem size_le_of_exec_advance (hn : Passive notify) {ev : Event}
    (h : exec (advance notify) d = (.ok ev, d')) :
    d'.engine.history.size ≤ d.engine.history.size + 1 := by
  obtain ⟨d₁, d₂, hdecide, htell, rfl⟩ := exec_ok_of_advance h
  obtain ⟨x, hx⟩ := hn ev (d₁.launch ev)
  obtain rfl : d₂ = { d₁.launch ev with outside := x } := congrArg Prod.snd (htell.symm.trans hx)
  have hstays {e e' : Desk σ} (hsame : Desk.SameRun e e') :
      e'.engine.history.size = e.engine.history.size := by rw [hsame.engine]
  have hsize : d₁.engine.history.size ≤ d.engine.history.size + 1 := by
    rcases d.decide_cases with ⟨-, hd⟩ | ⟨-, fault, hd⟩ | ⟨-, decision, log, -, hd⟩
    · obtain rfl : d₁ = d := congrArg Prod.snd (hdecide.symm.trans hd)
      exact Nat.le_succ _
    · cases hdecide.symm.trans hd
    · obtain rfl := congrArg Prod.snd (hdecide.symm.trans hd)
      simp [Engine.moved]
  have hgoOn := hstays (Desk.sameRun_goOn { d₁.launch ev with outside := x })
  have hlaunch := hstays (Desk.sameRun_launch d₁ ev)
  calc _ = (d₁.launch ev).engine.history.size := hgoOn
    _ = d₁.engine.history.size := hlaunch
    _ ≤ d.engine.history.size + 1 := hsize

/-- The loop of a run without timers returns in a round that adds no event. -/
theorem size_lt_of_exec_drainLoop (hn : Passive notify) {allowance : Nat}
    (h : exec (drainLoop notify allowance) d = (.ok (), d')) :
    d'.engine.history.size < d.engine.history.size + allowance := by
  induction allowance generalizing d with
  | zero => cases h
  | succ allowance ih =>
    rw [exec_drainLoop_succ] at h
    split at h
    case isFalse =>
      obtain rfl : d = d' := congrArg Prod.snd h
      omega
    case isTrue =>
      split at h
      case isTrue =>
        obtain rfl : d.observeLimit = d' := congrArg Prod.snd h
        rw [(Desk.sameRun_observeLimit d).engine]
        show d.engine.history.size < _
        omega
      case isFalse =>
        obtain ⟨ev, d₁, hadvance, hrest⟩ := exec_ok_of_bind h
        have hone := size_le_of_exec_advance hn hadvance
        have hmany := ih hrest
        omega

end Control

/-- A run without a limit that returns has had a round for each of its events, and one more. -/
theorem length_lt_of_history {allowance : Nat} (hv : a.validate = .ok ())
    (h : (Run.history allowance a w none).result = .ok (es, v)) : es.length < allowance := by
  have hquiet : Control.Passive (fun _ => pure () : Control.Notify Unit) :=
    fun _ d => ⟨d.outside, rfl⟩
  rw [Run.history, Desk.start_of_valid hv] at h
  obtain ⟨d, hd⟩ : ∃ d : Desk Unit, d = .new a w Engine.defaultDelay false none none 0 () :=
    ⟨_, rfl⟩
  have hrun : Control.exec (Control.run (fun _ => pure ()) allowance) d =
      ((Control.exec (Control.drain (fun _ => pure ()) allowance) d.begun).1.map fun _ => true,
        (Control.exec (Control.drain (fun _ => pure ()) allowance) d.begun).2) := by
    rw [Control.exec_run, hd]
    rfl
  have hempty : (d.begun.drains true).engine.history.size = 0 := by
    rw [hd]
    rfl
  simp only [Option.elim_none, ← hd, hrun, Control.exec_drain] at h
  rcases hloop : Control.exec (Control.drainLoop (fun _ => pure ()) allowance)
    (d.begun.drains true) with ⟨fault | ⟨⟩, d'⟩
  · rw [hloop] at h
    cases h
  · have hsize := Control.size_lt_of_exec_drainLoop hquiet hloop
    rw [hempty, Nat.zero_add] at hsize
    rw [hloop] at h
    obtain ⟨rfl, -⟩ := Prod.mk.inj (Except.ok.inj h)
    exact hsize

/-- What a run without a limit returns, and when. -/
theorem history_eq_ok_iff {allowance : Nat} (ha : a.Typed) (hv : a.validate = .ok ()) :
    (Run.history allowance a w none).result = .ok (es, v) ↔
      (∃ c, Computation a w 1 es c v) ∧ v.isTerminal = true ∧ es.length < allowance := by
  constructor
  · intro h
    obtain ⟨c, hes, hterminal⟩ := computation_of_history ha hv h
    exact ⟨⟨c, hes⟩, hterminal, length_lt_of_history hv h⟩
  · rintro ⟨⟨c, hes⟩, hterminal, hroom⟩
    have hlength := hes.transitions_succ_eq_length hterminal
    exact history_of_halts ha hv (by omega) hes hterminal hlength.symm

/-- A run returns what another one with the same limit has returned, if the computations end in the
same way. -/
theorem history_of_same_end {b : Automaton} {w' : Text} {limit : Option Int} {allowance : Nat}
    (ha : a.Typed) (hv : a.validate = .ok ()) (hb : b.Typed) (hv' : b.validate = .ok ())
    (hends : ∀ {c}, Capped a w 1 limit es c v → ∃ c', Capped b w' 1 limit es c' v)
    (h : (Run.history allowance a w limit).result = .ok (es, v)) :
    (Run.history allowance b w' limit).result = .ok (es, v) := by
  cases limit with
  | none =>
    rw [history_eq_ok_iff ha hv] at h
    obtain ⟨⟨c, hes⟩, hterminal, hroom⟩ := h
    obtain ⟨c', hc'⟩ := hends (.halted hes hterminal nofun)
    exact (history_eq_ok_iff hb hv').2 ⟨⟨c', hc'.halted_of_unlimited.1⟩, hterminal, hroom⟩
  | some N =>
    rcases Int.lt_or_le 0 N with hN | hN
    · obtain ⟨es', c, v', hcapped, hresult⟩ :=
        history_of_limit allowance w ha hv (Int.add_one_le_of_lt hN)
      obtain ⟨rfl, rfl⟩ := Prod.mk.inj (Except.ok.inj (h.symm.trans hresult))
      obtain ⟨c', hc'⟩ := hends hcapped
      exact history_of_capped hb hv' (Int.add_one_le_of_lt hN) hc'
    · rw [history_of_nonpos hv hN] at h
      rw [history_of_nonpos hv' hN]
      exact h

end AutomatonLab
