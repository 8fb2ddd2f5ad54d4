import AutomatonLab.Proofs.AcceptingPath
import AutomatonLab.Proofs.Finish

/-!
# Runs by stages

What a finite or a pushdown automaton does next depends on the stage at which it stands, and on
nothing else : on its state, on what is left of the input, and on the top of its stack
(`Stage.taken?`). So a run can be followed from stage to stage. `Stage.EndsIn a s k s' v` says that
a run of `a` that stands at `s` takes `k` transitions and then halts at `s'` with the verdict `v`.
It is built from the end : where nothing is left to read the state decides
(`Stage.endsIn_of_rest_nil`), where no transition is taken the run rejects
(`Stage.endsIn_of_taken?_eq_none`), and a transition that is taken leads on to the stage that it
joins (`Stage.EndsIn.take`).

At the end stands a whole run without a limit, from the stage of the initial state with all of the
input and an empty stack (`Stage.EndsIn.history`).
-/

namespace AutomatonLab

namespace Stage

/-- The transition that is taken at a stage, if something is left to read and a transition
applies. -/
def taken? (a : Automaton) (s : Stage) : Option Transition :=
  s.rest.head?.bind fun x =>
    ((Choice.applicable? a.formalism a.transitions s.state (some [x]) s.stack.head?).getD []).head?

/-- A run of `a` that stands at the stage `s` takes `k` transitions, and then halts at the stage
`s'` with the status `v`. -/
def EndsIn (a : Automaton) (s : Stage) (k : Nat) (s' : Stage) (v : Status) : Prop :=
  ∀ c : Configuration, 0 ≤ c.cursor → c.At s → ∃ d, Finishes a c k d v ∧ d.At s'

end Stage

variable {a : Automaton} {c : Configuration} {s s' s'' : Stage} {t : Transition} {v : Status}
  {k : Nat}

theorem Configuration.At.top?_eq (hc : c.At s) : c.stack.top? = s.stack.head? := by
  rw [← hc.stack, List.head?_reverse, Stack.top?]

/-- The first eligible transition is the one that is taken at the stage. -/
theorem Configuration.At.firstEligible?_eq (ha : a.Typed) (hc : c.At s) {x : CodePoint} {r : Text}
    (hs : s.rest = x :: r) : c.firstEligible? a [x] = s.taken? a := by
  rw [← Configuration.head?_applicable ha hc.state, hc.top?_eq, Stage.taken?, hs]
  rfl

/-- What the stage where a run finishes says about what it returns. -/
theorem Configuration.At.history {w : Text} {d : Configuration} {allowance : Nat} (hs : d.At s)
    (ha : a.Typed) (hv : a.validate = .ok ()) (hd : Finishes a (.start a w) k d v)
    (hroom : k + 2 ≤ allowance) :
    ∃ es last, (Run.history allowance a w none).result = .ok (es ++ [last], v) ∧
      es.length = k ∧ last.snapshot.state = some s.state ∧
      last.snapshot.stack.reverse = s.stack ∧
      last.snapshot.cursor + (s.rest.length : Int) = w.length := by
  obtain ⟨es, last, hresult, hlength, hlast⟩ := history_of_finishes ha hv hd hroom
  obtain ⟨events, hevents, -⟩ := hd.computation
  have hcursor : d.cursor + (s.rest.length : Int) = w.length := by
    have hnonneg := hevents.cursor_nonneg
    have hwithin := hevents.within
    rw [← hs.rest, hevents.input_eq, List.length_drop]
    omega
  exact ⟨es, last, hresult, hlength, by rw [hlast]; exact hs.state,
    by rw [hlast]; exact hs.stack, by rw [hlast]; exact hcursor⟩

namespace Stage

/-- Without input left the verdict is given at once. -/
theorem endsIn_of_rest_nil (hf : a.formalism = .fa ∨ a.formalism = .pda) (hs : s.rest = []) :
    s.EndsIn a 0 s (if a.isFinal s.state then .accepted else .rejected) := by
  intro c _ hc
  have hn : c.next? = none := by
    rw [hc.next?_eq, hs]
    rfl
  have hstep := Step.endOfInput (a := a) (Automaton.ne_tm hf) hn
  rw [Configuration.isFinal, hc.state, Option.any_some] at hstep
  exact ⟨c, .halt hstep, hc⟩

/-- A symbol that no transition takes is rejected at once. -/
theorem endsIn_of_taken?_eq_none (ha : a.Typed) (hf : a.formalism = .fa ∨ a.formalism = .pda)
    {x : CodePoint} {r : Text} (hs : s.rest = x :: r) (ht : s.taken? a = none) :
    s.EndsIn a 0 s .rejected := by
  intro c _ hc
  have hn : c.next? = some [x] := by
    rw [hc.next?_eq, hs]
    rfl
  have hblocked := (hc.firstEligible?_eq ha hs).trans ht
  exact ⟨c, .halt (.blocked (Automaton.ne_tm hf) hn hblocked), hc⟩

/-- A transition that is taken leads one move closer to the end. -/
theorem EndsIn.take (h : s'.EndsIn a k s'' v) (ha : a.Typed)
    (hf : a.formalism = .fa ∨ a.formalism = .pda) (ht : s.taken? a = some t)
    (hjoins : t.Joins s s') : s.EndsIn a (k + 1) s'' v := by
  intro c hcursor hc
  obtain ⟨x, r, hs⟩ : ∃ x r, s.rest = x :: r := by
    cases hs : s.rest with
    | nil => simp [taken?, hs] at ht
    | cons x r => exact ⟨x, r, rfl⟩
  have hn : c.next? = some [x] := by
    rw [hc.next?_eq, hs]
    rfl
  have hstep := step_take ha (Automaton.ne_tm hf) hn ((hc.firstEligible?_eq ha hs).trans ht)
  obtain ⟨s₁, hmove, hs₁⟩ := hstep.move hf hcursor hc
  obtain rfl := hjoins.unique hmove
  obtain ⟨d, hd, hs''⟩ := h _ (Int.le_trans hcursor hstep.cursor_le) hs₁
  exact ⟨d, .step hstep hd, hs''⟩

/-- What the end of the start stage says about a whole run. -/
theorem EndsIn.history {q w : Text} {allowance : Nat} (h : EndsIn a ⟨q, w, []⟩ k s v)
    (ha : a.Typed) (hv : a.validate = .ok ()) (hq : a.start? = some q)
    (hroom : k + 2 ≤ allowance) :
    ∃ es last, (Run.history allowance a w none).result = .ok (es ++ [last], v) ∧
      es.length = k ∧ last.snapshot.state = some s.state ∧
      last.snapshot.cursor + (s.rest.length : Int) = w.length := by
  obtain ⟨d, hd, hs⟩ := h (.start a w) (Int.le_refl 0) ⟨hq, rfl, rfl⟩
  obtain ⟨es, last, hresult, hlength, hstate, -, hcursor⟩ := hs.history ha hv hd hroom
  exact ⟨es, last, hresult, hlength, hstate, hcursor⟩

end Stage

end AutomatonLab
