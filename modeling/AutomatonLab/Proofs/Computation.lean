import AutomatonLab.Engine.Basic
import AutomatonLab.Proofs.Step

/-!
# Computations

`Computation a w g es c s` says that `es` are the first events of the computation of the automaton
`a` on the input `w`, made by steps from the start until one of them halts, and that they lead to
the configuration `c` with the status `s`. The events carry the generation `g`, on which nothing
else depends (`Computation.retag`).

A computation is determined by its number of events (`Computation.unique`), and each beginning of
it is one (`Computation.take`). So the events of all computations of `a` on `w` form one sequence,
which is finite if the automaton halts (`Halts`) and infinite otherwise.
-/

namespace AutomatonLab

/-- The first events of the computation of `a` on `w`, and where they lead. -/
inductive Computation (a : Automaton) (w : Text) (g : Nat) :
    List Event → Configuration → Status → Prop where
  | start : Computation a w g [] (.start a w) .ready
  | step {es : List Event} {c c' : Configuration} {s s' : Status} {t : Option Transition} :
      Computation a w g es c s → s.isTerminal = false → Step a c t c' s' →
      Computation a w g (es ++ [⟨t, c'.snapshot, s', g⟩]) c' s'

/-- The computation of `a` on `w` halts with the status `v` after exactly `k` transitions. -/
def Halts (a : Automaton) (w : Text) (k : Nat) (v : Status) : Prop :=
  ∃ g es c, Computation a w g es c v ∧ v.isTerminal = true ∧ es.length = k + 1

theorem Status.eq_of_not_terminal {s : Status} (h : s.isTerminal = false) :
    s = .ready ∨ s = .running := by
  cases s <;> simp_all [Status.isTerminal]

namespace Computation

variable {a : Automaton} {w : Text} {g : Nat} {es es' : List Event} {c c' : Configuration}
  {s s' : Status}

/-- The input stays the same all along. -/
theorem input_eq (h : Computation a w g es c s) : c.input = w := by
  induction h with
  | start => rfl
  | step _ _ hstep ih => rw [hstep.input_eq, ih]

/-- A run never stands before its input. -/
theorem cursor_nonneg (h : Computation a w g es c s) : 0 ≤ c.cursor := by
  induction h with
  | start => exact Int.le_refl 0
  | step _ _ hstep ih => exact Int.le_trans ih hstep.cursor_le

/-- The generation of the events does not matter. -/
theorem retag (h : Computation a w g es c s) (g' : Nat) :
    Computation a w g' (es.map fun ev => { ev with generation := g' }) c s := by
  induction h with
  | start => exact .start
  | step _ hs hstep ih =>
    rw [List.map_append]
    exact ih.step hs hstep

/-! ## The events -/

/-- A run is ready as long as it has no event. -/
theorem ready_iff (h : Computation a w g es c s) : s = .ready ↔ es = [] := by
  cases h with
  | start => simp
  | step _ _ hstep =>
    rcases hstep.status_cases with ⟨-, rfl⟩ | ⟨-, hterminal, -⟩
    · simp
    · constructor
      · rintro rfl
        exact absurd hterminal (by decide)
      · simp

/-- The last event tells the status. -/
theorem status_eq_of_getLast? (h : Computation a w g es c s) {ev : Event}
    (hev : es.getLast? = some ev) : ev.status = s := by
  cases h with
  | start => simp at hev
  | step => simp only [List.getLast?_append, List.getLast?_singleton, Option.some_or] at hev; grind

theorem generation_eq (h : Computation a w g es c s) : ∀ ev ∈ es, ev.generation = g := by
  induction h with
  | start => simp
  | step _ _ _ ih =>
    intro ev hev
    rcases List.mem_append.1 hev with hev | hev
    · exact ih ev hev
    · rw [List.mem_singleton.1 hev]

/-- A computation that has not halted has taken a transition at each step. -/
theorem transitions_of_not_terminal (h : Computation a w g es c s) (hs : s.isTerminal = false) :
    ∀ ev ∈ es, ev.transition.isSome = true ∧ ev.status = .running := by
  induction h with
  | start => simp
  | step _ hs' hstep ih =>
    intro ev hev
    rcases List.mem_append.1 hev with hev | hev
    · exact ih hs' ev hev
    · rw [List.mem_singleton.1 hev]
      rcases hstep.status_cases with ⟨⟨u, rfl⟩, rfl⟩ | ⟨-, hterminal, -⟩
      · exact ⟨rfl, rfl⟩
      · exact absurd hterminal (by simp [hs])

/-- A computation that has halted has done so in its last step, where it stood. -/
theorem last_of_terminal (h : Computation a w g es c s) (hs : s.isTerminal = true) :
    ∃ init s₀, es = init ++ [⟨none, c.snapshot, s, g⟩] ∧ Computation a w g init c s₀ ∧
      s₀.isTerminal = false := by
  cases h with
  | start => exact absurd hs (by decide)
  | @step init c₀ _ s₀ _ _ h₀ hs₀ hstep =>
    rcases hstep.status_cases with ⟨-, rfl⟩ | ⟨rfl, -, rfl⟩
    · exact absurd hs (by decide)
    · exact ⟨init, s₀, rfl, h₀, hs₀⟩

/-- The number of transitions, which is one less than that of the events once it has halted. -/
def transitions (es : List Event) : Nat :=
  es.countP fun ev => ev.transition.isSome

@[simp] theorem transitions_nil : transitions [] = 0 :=
  rfl

theorem transitions_snoc (es : List Event) (ev : Event) :
    transitions (es ++ [ev]) = transitions es + if ev.transition.isSome then 1 else 0 := by
  simp [transitions, List.countP_singleton]

/-- On the way, each event is a transition. -/
theorem transitions_eq_length (h : Computation a w g es c s) (hs : s.isTerminal = false) :
    transitions es = es.length :=
  List.countP_eq_length.2 fun ev hev => (h.transitions_of_not_terminal hs ev hev).1

/-- At the end, each event but the last one is a transition. -/
theorem transitions_succ_eq_length (h : Computation a w g es c s) (hs : s.isTerminal = true) :
    transitions es + 1 = es.length := by
  obtain ⟨init, s₀, rfl, h₀, hs₀⟩ := h.last_of_terminal hs
  rw [transitions_snoc, h₀.transitions_eq_length hs₀]
  simp

/-! ## The sequence of all events -/

/-- The number of events determines a computation. -/
theorem unique (ha : a.Typed) (h : Computation a w g es c s) (h' : Computation a w g es' c' s')
    (hlen : es.length = es'.length) : es = es' ∧ c = c' ∧ s = s' := by
  induction h generalizing es' c' s' with
  | start =>
    cases h' with
    | start => exact ⟨rfl, rfl, rfl⟩
    | step => simp at hlen
  | step h₀ hs hstep ih =>
    cases h' with
    | start => simp at hlen
    | step h₀' hs' hstep' =>
      obtain ⟨rfl, rfl, rfl⟩ := ih h₀' (by simpa using hlen)
      obtain ⟨rfl, rfl, rfl⟩ := hstep.unique ha h₀.cursor_nonneg hstep'
      exact ⟨rfl, rfl, rfl⟩

/-- A beginning that leaves out an event has not halted. -/
theorem take (h : Computation a w g es c s) {n : Nat} (hn : n < es.length) :
    ∃ c' s', Computation a w g (es.take n) c' s' ∧ s'.isTerminal = false := by
  induction h with
  | start => simp at hn
  | @step es c₀ _ s₀ _ _ h₀ hs₀ hstep ih =>
    rw [List.length_append, List.length_singleton] at hn
    rw [List.take_append_of_le_length (by omega)]
    rcases Nat.lt_or_ge n es.length with hlt | hge
    · exact ih hlt
    · rw [List.take_of_length_le hge]
      exact ⟨c₀, s₀, h₀, hs₀⟩

/-- Of two computations the shorter one is a beginning of the other one. -/
theorem eq_take (ha : a.Typed) (h : Computation a w g es c s) (h' : Computation a w g es' c' s')
    (hlen : es.length < es'.length) : es = es'.take es.length ∧ s.isTerminal = false := by
  obtain ⟨c₀, s₀, h₀, hs₀⟩ := h'.take hlen
  obtain ⟨hes, -, rfl⟩ := h.unique ha h₀ (by simp; omega)
  exact ⟨hes, hs₀⟩

/-- No computation is longer than one that has halted. -/
theorem length_le_of_terminal (ha : a.Typed) (h : Computation a w g es c s)
    (hs : s.isTerminal = true) (h' : Computation a w g es' c' s') : es'.length ≤ es.length := by
  by_cases hlen : es.length < es'.length
  · exact absurd (h.eq_take ha h' hlen).2 (by simp [hs])
  · omega

end Computation

end AutomatonLab
