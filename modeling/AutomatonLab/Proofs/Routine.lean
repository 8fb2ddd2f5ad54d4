import AutomatonLab.Proofs.Calls

/-!
# What every call has in common

Every call on an engine is made of a few changes of its desk : a decision, a step that is put in
flight, a timer that is asked for, and so on. A relation between desks that holds across each of
these changes, and can be composed, is a `Control.Routine`; it holds across every play, however the
play ends and whatever the listeners do in between (`Control.Play.routine`). So an invariant of the
engine is proved for the changes alone. The changes come with what the calls have made sure of
before : a run begins only if the last one has not ended, and a timer is asked for only if none is
pending.
-/

namespace AutomatonLab.Control

variable {σ α β : Type}

/-- The relation holds across each change that a call makes, and across several of them. -/
structure Routine (R : Desk σ → Desk σ → Prop) : Prop where
  refl : ∀ d, R d d
  trans : ∀ {d d' d''}, R d d' → R d' d'' → R d d''
  outside : ∀ d x, R d { d with outside := x }
  note : ∀ d entries, R d (d.note entries)
  decide : ∀ d, R d d.decide.2
  launch : ∀ d ev, R d (d.launch ev)
  observeLimit : ∀ d, R d d.observeLimit
  askTimer : ∀ {d g}, d.agenda = some g → d.engine.pending = none → R d (d.askTimer g)
  begun : ∀ {d}, d.engine.status.isTerminal = false → R d d.begun
  /-- The loop that makes all steps at once may do anything in between. -/
  drains : ∀ {d d'}, R (d.drains true) d' → R d (d'.drains false)
  confirmed : ∀ d, R d d.confirmed
  pause : ∀ d, R d d.pause
  reset : ∀ d input, R d (d.reset input)
  load : ∀ {d a input}, a.validate = .ok () → R d (d.loaded a input)
  resumed : ∀ {d j generation}, j ∈ d.jobs → j.task = .resume generation → R d (d.elapsed j).woken
  settled : ∀ {d j generation}, j ∈ d.jobs → j.task = .settle generation → R d (d.elapsed j)

/-- The relation holds across the call, however it ends. -/
def Across (R : Desk σ → Desk σ → Prop) (x : Control σ α) : Prop :=
  ∀ d, R d (exec x d).2

namespace Routine

variable {R : Desk σ → Desk σ → Prop} {notify : Notify σ}

theorem scheduleNext (hR : Routine R) (d : Desk σ) : R d d.scheduleNext := by
  unfold Desk.scheduleNext
  split
  · exact hR.refl d
  case h_2 g hg =>
    split
    · exact hR.refl d
    case isFalse hgo =>
      simp only [Bool.or_eq_true, not_or, Bool.not_eq_true, Option.isSome_eq_false_iff,
        Option.isNone_iff_eq_none] at hgo
      split
      · exact hR.observeLimit d
      · exact hR.askTimer hg hgo.1.1

/-- A routine holds across going on. -/
theorem goOn (hR : Routine R) (d : Desk σ) : R d d.goOn := by
  unfold Desk.goOn
  split
  · exact hR.scheduleNext d
  · exact hR.refl d

/-- A routine holds across two calls one after the other. -/
theorem bind (hR : Routine R) {x : Control σ α} {f : α → Control σ β} (hx : Across R x)
    (hf : ∀ a, Across R (f a)) : Across R (x >>= f) :=
  fun d => holds_bind (hx d) fun a d' h => hR.trans h (hf a d')

theorem map (hR : Routine R) {x : Control σ α} (hx : Across R x) (g : α → β) :
    Across R (g <$> x) := by
  rw [map_eq_pure_bind]
  exact hR.bind hx fun _ => hR.refl

/-- A routine holds across a step if it does across what the listeners do. -/
theorem advance (hR : Routine R) (hn : ∀ ev, Across R (notify ev)) :
    Across R (advance notify) := by
  intro d
  have hdecided := hR.decide d
  rw [exec_advance]
  rcases hdecide : d.decide with ⟨fault | ev, d₁⟩
  · rwa [hdecide] at hdecided
  · rw [hdecide] at hdecided
    have htold := hR.trans (hR.trans hdecided (hR.launch d₁ ev)) (hn ev (d₁.launch ev))
    simp only
    rcases htell : exec (notify ev) (d₁.launch ev) with ⟨fault | _, d₂⟩
    · rwa [htell] at htold
    · rw [htell] at htold
      exact hR.trans htold (hR.goOn d₂)

/-- A routine holds across the rounds of the loop, by induction on the allowance. -/
theorem drainLoop (hR : Routine R) (hn : ∀ ev, Across R (notify ev)) :
    ∀ allowance, Across R (drainLoop notify allowance)
  | 0, d => hR.refl d
  | allowance + 1, d => by
    rw [exec_drainLoop_succ]
    split
    · split
      · exact hR.observeLimit d
      · exact hR.bind (hR.advance hn) (fun _ => hR.drainLoop hn allowance) d
    · exact hR.refl d

theorem drain (hR : Routine R) (hn : ∀ ev, Across R (notify ev)) (allowance : Nat) :
    Across R (drain notify allowance) :=
  fun d => hR.drains (hR.drainLoop hn allowance (d.drains true))

/-- A routine holds across a step by hand. -/
theorem step (hR : Routine R) (hn : ∀ ev, Across R (notify ev)) : Across R (step notify) := by
  intro d
  rw [exec_step]
  split
  · exact hR.note d _
  · split
    · exact hR.refl d
    · exact hR.trans (hR.pause d) (hR.advance hn d.pause)

/-- A routine holds across an automatic run, with timers or without. -/
theorem run (hR : Routine R) (hn : ∀ ev, Across R (notify ev)) (allowance : Nat) :
    Across R (run notify allowance) := by
  intro d
  rw [exec_run]
  split
  · exact hR.refl d
  case isFalse hidle =>
    simp only [Bool.or_eq_true, not_or, Bool.not_eq_true] at hidle
    have hbegun := hR.begun hidle.2
    split
    · exact hR.observeLimit d
    · split
      · exact hR.trans hbegun (hR.drain hn allowance d.begun)
      · exact hR.trans hbegun (hR.advance hn d.begun)

/-- A routine holds across a confirmation, whether or not it is accepted. -/
theorem acknowledge (hR : Routine R) (hn : ∀ ev, Across R (notify ev)) (allowance : Nat)
    (generation : Option Int) : Across R (acknowledge notify allowance generation) := by
  intro d
  rw [exec_acknowledge]
  split
  · exact hR.refl d
  · split
    · exact hR.note d _
    · split
      · exact hR.confirmed d
      · split
        · exact hR.trans (hR.confirmed d) (hR.drain hn allowance d.confirmed)
        · exact hR.trans (hR.confirmed d) (hR.scheduleNext d.confirmed)

/-- A routine holds across a timer that is due. -/
theorem fire (hR : Routine R) (hn : ∀ ev, Across R (notify ev)) (handle : Option Nat) :
    Across R (fire notify handle) := by
  intro d
  rw [exec_fire]
  split
  · exact hR.refl d
  case h_2 j hj =>
    obtain ⟨g, hg, hj⟩ := Option.bind_eq_some_iff.1 hj
    have hmem : j ∈ d.jobs := by
      simp only [Desk.jobs, hg, Option.map_some, Option.getD_some]
      cases handle with
      | none => exact List.mem_of_head? hj
      | some n => exact List.mem_of_find?_eq_some hj
    rw [exec_due]
    cases htask : j.task with
    | settle generation => exact hR.settled hmem htask
    | resume generation =>
      simp only
      have hwoken := hR.resumed hmem htask
      rw [exec_resume]
      split
      · exact hwoken
      · exact hR.trans hwoken (hR.advance hn (d.elapsed j).woken)

/-- A routine holds across loading, refused or not. -/
theorem install (hR : Routine R) (a : Automaton) (input : Option Text) :
    Across R (Control.load a input) := by
  intro d
  rw [exec_load]
  rcases hl : d.load a input with fault | d'
  · exact hR.refl d
  · obtain ⟨ha, rfl⟩ := Desk.load_ok hl
    exact hR.load ha

/-- A routine holds across a call and the handling of its fault. -/
theorem tryCatch (hR : Routine R) {x : Control σ α} {handle : Fault → Control σ α}
    (hx : Across R x) (hh : ∀ fault, Across R (handle fault)) :
    Across R (tryCatch x handle) := by
  intro d
  have hfirst := hx d
  rw [exec_tryCatch]
  rcases hr : exec x d with ⟨fault | a, d'⟩
  · rw [hr] at hfirst
    exact hR.trans hfirst (hh fault d')
  · rwa [hr] at hfirst

end Routine

/-- What holds across each change of a desk holds across every play. -/
theorem Play.routine {R : Desk σ → Desk σ → Prop} (hR : Routine R) {raising : Bool}
    {x : Control σ α} (h : Play raising x) : Across R x := by
  induction h with
  | ret => exact hR.refl
  | bind _ _ ihx ihf => exact hR.bind ihx ihf
  | fail => exact hR.refl
  | attempt _ _ _ ihx ihh => exact hR.tryCatch ihx ihh
  | look => exact hR.refl
  | keep f => exact fun d => hR.outside d (f d.outside)
  | log entries => exact fun d => hR.note d entries
  | decide => exact hR.decide
  | step _ ih => exact hR.step ih
  | run allowance _ ih => exact hR.run ih (allowance + 1)
  | pause => exact hR.pause
  | reset input => exact fun d => hR.reset d input
  | acknowledge allowance generation _ ih => exact hR.acknowledge ih allowance generation
  | load input => exact hR.install _ input
  | tryLoad input _ _ ih => exact hR.tryCatch (hR.install _ input) ih
  | fire handle _ ih => exact hR.fire ih handle

end AutomatonLab.Control
