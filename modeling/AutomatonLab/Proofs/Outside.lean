import AutomatonLab.Proofs.Record

/-!
# What an engine does not see

An engine tells the outside of its events, and never looks at it. So if the outside is changed by a
function `h` with which its listeners commute, every call commutes with `h` : it has the same result,
and leaves the changed desk of what it would have left (`Control.Equivariant`).
-/

namespace AutomatonLab

namespace Desk

variable {σ : Type} {h : σ → σ}

/-- The desk with another outside. -/
def mapOutside (h : σ → σ) (d : Desk σ) : Desk σ := { d with outside := h d.outside }

/-- Where two desks are changed alike, it does not matter which one it is. -/
theorem mapOutside_ite (c : Prop) [Decidable c] (d d' : Desk σ) :
    (if c then d.mapOutside h else d'.mapOutside h) = (if c then d else d').mapOutside h :=
  (apply_ite (mapOutside h) c d d').symm

theorem observeLimit_mapOutside (d : Desk σ) :
    (d.mapOutside h).observeLimit = d.observeLimit.mapOutside h := by
  unfold observeLimit
  rw [← mapOutside_ite]
  rfl

theorem scheduleNext_of_timed {d : Desk σ} {g : Agenda} (hg : d.agenda = some g) :
    d.scheduleNext =
      if d.engine.pending.isSome || !d.engine.running || d.engine.status.isTerminal then d
      else if d.engine.atLimit then d.observeLimit
      else d.askTimer g := by
  rw [scheduleNext, hg]

/-- Which timer is asked for does not depend on what lies outside. -/
theorem scheduleNext_mapOutside (d : Desk σ) :
    (d.mapOutside h).scheduleNext = d.scheduleNext.mapOutside h := by
  cases hg : d.agenda with
  | none => simp [scheduleNext, mapOutside, hg]
  | some g =>
    rw [scheduleNext_of_timed hg, scheduleNext_of_timed (d := d.mapOutside h) hg,
      observeLimit_mapOutside, ← mapOutside_ite, ← mapOutside_ite]
    rfl

/-- How a run goes on does not depend on it either. -/
theorem goOn_mapOutside (d : Desk σ) : (d.mapOutside h).goOn = d.goOn.mapOutside h := by
  unfold goOn
  rw [scheduleNext_mapOutside]
  exact mapOutside_ite _ _ _

theorem launch_mapOutside (d : Desk σ) (ev : Event) :
    (d.mapOutside h).launch ev = (d.launch ev).mapOutside h := by
  unfold launch
  rw [← mapOutside_ite]
  rfl

/-- A decision depends on the engine alone. -/
theorem decide_mapOutside (d : Desk σ) :
    (d.mapOutside h).decide = (d.decide.1, d.decide.2.mapOutside h) := by
  cases hs : d.engine.status.isTerminal with
  | true => rw [decide_of_terminal hs, decide_of_terminal (d := d.mapOutside h) hs]; rfl
  | false =>
    cases hdecision : d.engine.config.decision d.engine.automaton with
    | error fault =>
      rw [decide_of_fault hs hdecision, decide_of_fault (d := d.mapOutside h) hs hdecision]
      rfl
    | ok decision =>
      have hs' : (d.mapOutside h).engine.status.isTerminal = false := hs
      have hdecision' : (d.mapOutside h).engine.config.decision
          (d.mapOutside h).engine.automaton = .ok decision := hdecision
      simp only [decide, hs, hs', hdecision, hdecision']
      rfl

end Desk

namespace Control

open Desk

variable {σ α β : Type} {h : σ → σ} {x y : Control σ α} {notify : Notify σ}

/-- The call commutes with `h`. -/
def Equivariant (h : σ → σ) (x : Control σ α) : Prop :=
  ∀ d, exec x (d.mapOutside h) = ((exec x d).1, (exec x d).2.mapOutside h)

theorem equivariant_pure (h : σ → σ) (a : α) : Equivariant h (pure a : Control σ α) :=
  fun _ => rfl

theorem equivariant_throw (h : σ → σ) (fault : Fault) :
    Equivariant h (throw fault : Control σ α) :=
  fun _ => rfl

theorem equivariant_engine (h : σ → σ) : Equivariant h engine :=
  fun _ => rfl

theorem equivariant_updateEngine (h : σ → σ) (f : Engine → Engine) :
    Equivariant h (updateEngine f) :=
  fun _ => rfl

/-- A change of the desk is equivariant if it does not look outside. -/
theorem equivariant_update {f : Desk σ → Desk σ}
    (hf : ∀ d, f (d.mapOutside h) = (f d).mapOutside h) : Equivariant h (update f) :=
  fun d => Prod.ext rfl (hf d)

/-- Two calls in a row are equivariant if each is. -/
theorem equivariant_bind {f : α → Control σ β} (hx : Equivariant h x)
    (hf : ∀ a, Equivariant h (f a)) : Equivariant h (x >>= f) := by
  intro d
  rw [exec_bind, exec_bind, hx d]
  rcases exec x d with ⟨fault | a, d'⟩
  · rfl
  · exact hf a d'

theorem equivariant_map (hx : Equivariant h x) (f : α → β) : Equivariant h (f <$> x) := by
  rw [map_eq_pure_bind]
  exact equivariant_bind hx fun a => equivariant_pure h (f a)

theorem equivariant_ite {c : Prop} [Decidable c] (hx : Equivariant h x) (hy : Equivariant h y) :
    Equivariant h (if c then x else y) := by
  split
  · exact hx
  · exact hy

/-- The desk is looked at, but not its outside. -/
theorem equivariant_get {f : Desk σ → Control σ α} (hf : ∀ d, Equivariant h (f d))
    (hsame : ∀ d, f (d.mapOutside h) = f d) : Equivariant h (get >>= f) := by
  intro d
  rw [exec_bind, exec_bind, exec_get, exec_get]
  simp only [hsame]
  exact hf d d

/-! ## Every call -/

theorem equivariant_decide (h : σ → σ) : Equivariant h decide :=
  decide_mapOutside

/-- A step is equivariant if its listeners are. -/
theorem equivariant_advance (hn : ∀ ev, Equivariant h (notify ev)) :
    Equivariant h (advance notify) :=
  equivariant_bind (equivariant_decide h) fun ev =>
    equivariant_bind (equivariant_update fun d => launch_mapOutside d ev) fun _ =>
      equivariant_bind (hn ev) fun _ =>
        equivariant_bind (equivariant_update goOn_mapOutside) fun _ => equivariant_pure h ev

/-- The loop of a run without timers is equivariant, round by round. -/
theorem equivariant_drainLoop (hn : ∀ ev, Equivariant h (notify ev)) :
    ∀ allowance, Equivariant h (drainLoop notify allowance)
  | 0 => equivariant_throw h .exhausted
  | allowance + 1 =>
    equivariant_bind (equivariant_engine h) fun _ =>
      equivariant_ite
        (equivariant_ite (equivariant_update observeLimit_mapOutside)
          (equivariant_bind (equivariant_advance hn) fun _ => equivariant_drainLoop hn allowance))
        (equivariant_pure h ())

theorem equivariant_drain (hn : ∀ ev, Equivariant h (notify ev)) (allowance : Nat) :
    Equivariant h (drain notify allowance) := by
  intro d
  have hloop := equivariant_drainLoop hn allowance (d.drains true)
  rw [exec_drain, exec_drain]
  exact Prod.ext (congrArg Prod.fst hloop :) (congrArg (fun r => r.2.drains false) hloop :)

theorem equivariant_step (hn : ∀ ev, Equivariant h (notify ev)) : Equivariant h (step notify) :=
  equivariant_bind (equivariant_engine h) fun _ =>
    equivariant_ite
      (equivariant_bind (equivariant_update fun _ => rfl) fun _ => equivariant_pure h none)
      (equivariant_ite (equivariant_pure h none)
        (equivariant_bind (equivariant_update fun _ => rfl) fun _ =>
          equivariant_map (equivariant_advance hn) some))

theorem equivariant_run (hn : ∀ ev, Equivariant h (notify ev)) (allowance : Nat) :
    Equivariant h (run notify allowance) :=
  equivariant_bind (equivariant_engine h) fun _ =>
    equivariant_ite (equivariant_pure h false)
      (equivariant_ite
        (equivariant_bind (equivariant_update observeLimit_mapOutside) fun _ =>
          equivariant_pure h false)
        (equivariant_bind (equivariant_updateEngine h _) fun _ =>
          equivariant_bind (equivariant_update fun _ => rfl) fun _ =>
            equivariant_get
              (fun _ => equivariant_ite
                (equivariant_bind (equivariant_drain hn allowance) fun _ => equivariant_pure h true)
                (equivariant_bind (equivariant_advance hn) fun _ => equivariant_pure h true))
              fun _ => rfl))

theorem equivariant_pause (h : σ → σ) : Equivariant h pause :=
  fun _ => rfl

theorem equivariant_reset (h : σ → σ) (input : Option Text) : Equivariant h (reset input) :=
  fun _ => rfl

theorem equivariant_load (h : σ → σ) (a : Automaton) (input : Option Text) :
    Equivariant h (load a input) := by
  intro d
  rcases ha : a.validate with defect | ⟨⟩
  · rw [exec_load_of_invalid ha, exec_load_of_invalid ha]
  · rw [exec_load_of_valid ha, exec_load_of_valid ha]
    rfl

/-- A confirmation is equivariant if the listeners are. -/
theorem equivariant_acknowledge (hn : ∀ ev, Equivariant h (notify ev)) (allowance : Nat)
    (generation : Option Int) : Equivariant h (acknowledge notify allowance generation) := by
  refine equivariant_bind (equivariant_engine h) fun e => equivariant_ite (equivariant_pure h ()) ?_
  cases generation.filter (· ≠ (e.generation : Int)) with
  | some other => exact equivariant_update fun _ => rfl
  | none =>
    exact equivariant_bind (equivariant_updateEngine h _) fun _ =>
      equivariant_ite (equivariant_pure h ())
        (equivariant_get
          (fun _ => equivariant_ite (equivariant_drain hn allowance)
            (equivariant_update scheduleNext_mapOutside))
          fun _ => rfl)

/-- A timer that is due is equivariant if the listeners are. -/
theorem equivariant_resume (hn : ∀ ev, Equivariant h (notify ev)) (generation : Nat) :
    Equivariant h (resume notify generation) :=
  equivariant_bind (equivariant_updateEngine h _) fun _ =>
    equivariant_bind (equivariant_engine h) fun _ =>
      equivariant_ite (equivariant_pure h ())
        (equivariant_bind (equivariant_advance hn) fun _ => equivariant_pure h ())

end Control

end AutomatonLab
