import AutomatonLab.Proofs.Record
import AutomatonLab.Proofs.Routine

/-!
# Requests

A `Request` is one call on an engine from outside, with what it is given, and `Request.next` is the
desk that it leaves. So a sequence of calls is a list of requests (`Request.nextAll`), and what
holds across every call holds across the list (`Request.across`, `Request.acrossAll`). A reset, or a
well-formed automaton that is loaded, begins another run (`Request.Renews`); the other requests go
on with the present one.

With time the generation of an engine only grows, and no timer is of a later one (`Desk.Ages`). So a
timer that belongs to a past run belongs to it for ever.
-/

namespace AutomatonLab

open Control

/-- A call on an engine from outside. -/
inductive Request where
  | step
  | run (allowance : Nat)
  | pause
  | reset (input : Option Text)
  | load (automaton : Automaton) (input : Option Text)
  | acknowledge (allowance : Nat) (generation : Option Int)
  | fire (handle : Option Nat)

namespace Request

variable {σ : Type} {d : Desk σ} {notify : Notify σ}

/-- The desk after a request, however the call ends. -/
def next (notify : Notify σ) (d : Desk σ) : Request → Desk σ
  | step => (exec (Control.step notify) d).2
  | run allowance => (exec (Control.run notify allowance) d).2
  | pause => (exec Control.pause d).2
  | reset input => (exec (Control.reset input) d).2
  | load a input => (exec (Control.load a input) d).2
  | acknowledge allowance generation => (exec (Control.acknowledge notify allowance generation) d).2
  | fire handle => (exec (Control.fire notify handle) d).2

/-- The desk after several requests, one after the other. -/
def nextAll (notify : Notify σ) (d : Desk σ) (rs : List Request) : Desk σ :=
  rs.foldl (next notify) d

theorem nextAll_cons (notify : Notify σ) (d : Desk σ) (r : Request) (rs : List Request) :
    nextAll notify d (r :: rs) = nextAll notify (r.next notify d) rs :=
  rfl

/-- Requests made in two parts are made one part after the other. -/
theorem nextAll_append (notify : Notify σ) (d : Desk σ) (rs rs' : List Request) :
    nextAll notify d (rs ++ rs') = nextAll notify (nextAll notify d rs) rs' :=
  List.foldl_append

/-- The request begins another run. -/
def Renews : Request → Prop
  | reset _ => True
  | load a _ => a.validate = .ok ()
  | _ => False

/-- A request that begins a new run leaves what loading an automaton does. -/
theorem next_of_renews {r : Request} (h : r.Renews) (notify : Notify σ) (d : Desk σ) :
    ∃ a input, r.next notify d = d.loaded a input := by
  cases r with
  | reset input => exact ⟨d.engine.automaton, input, rfl⟩
  | load a input => exact ⟨a, input, congrArg Prod.snd (exec_load_of_valid h input d)⟩
  | _ => exact absurd h id

/-- An automaton that is refused changes nothing. -/
theorem next_load_of_refused {a : Automaton} {input : Option Text} (h : ¬(load a input).Renews)
    (notify : Notify σ) (d : Desk σ) : (load a input).next notify d = d := by
  rcases hv : a.validate with defect | ⟨⟩
  · exact congrArg Prod.snd (exec_load_of_invalid hv input d)
  · exact absurd hv h

/-- A routine holds across every request. -/
theorem across {R : Desk σ → Desk σ → Prop} (hR : Routine R) (hn : ∀ ev, Across R (notify ev))
    (r : Request) (d : Desk σ) : R d (r.next notify d) := by
  cases r with
  | step => exact hR.step hn d
  | run allowance => exact hR.run hn allowance d
  | pause => exact hR.pause d
  | reset input => exact hR.reset d input
  | load a input => exact hR.install a input d
  | acknowledge allowance generation => exact hR.acknowledge hn allowance generation d
  | fire handle => exact hR.fire hn handle d

/-- A routine holds across a sequence of requests, by induction on it. -/
theorem acrossAll {R : Desk σ → Desk σ → Prop} (hR : Routine R) (hn : ∀ ev, Across R (notify ev))
    (rs : List Request) (d : Desk σ) : R d (nextAll notify d rs) := by
  induction rs generalizing d with
  | nil => exact hR.refl d
  | cons r rs ih => exact hR.trans (r.across hR hn d) (ih _)

end Request

namespace Desk

variable {σ : Type} {d d' : Desk σ}

/-- The timers continue runs that have begun. -/
def Dated (d : Desk σ) : Prop :=
  ∀ j ∈ d.jobs, ∃ generation ≤ d.engine.generation, j.task = .resume generation

/-- What time does to a desk. -/
structure Ages (d d' : Desk σ) : Prop where
  agenda : d'.agenda.isSome = d.agenda.isSome
  generation : d.engine.generation ≤ d'.engine.generation
  dated : d.Dated → d'.Dated

/-- Fewer timers and later runs keep the timers dated. -/
theorem Dated.mono (h : d.Dated) (hjobs : d'.jobs ⊆ d.jobs)
    (hgeneration : d.engine.generation ≤ d'.engine.generation) : d'.Dated := by
  intro j hj
  obtain ⟨generation, hle, htask⟩ := h j (hjobs hj)
  exact ⟨generation, Nat.le_trans hle hgeneration, htask⟩

theorem ages_of_eq (hagenda : d'.agenda = d.agenda)
    (hgeneration : d'.engine.generation = d.engine.generation) : Ages d d' := by
  have hle : d.engine.generation ≤ d'.engine.generation := Nat.le_of_eq hgeneration.symm
  refine ⟨congrArg Option.isSome hagenda, hle, fun h => h.mono ?_ hle⟩
  rw [jobs, jobs, hagenda]
  exact List.Subset.refl _

/-- Giving up a timer leaves some of those there were. -/
theorem jobs_cancelPending_sublist (d : Desk σ) : d.cancelPending.jobs.Sublist d.jobs := by
  unfold cancelPending jobs
  cases d.engine.pending with
  | none => exact List.Sublist.refl _
  | some handle =>
    cases d.agenda with
    | none => exact List.Sublist.refl _
    | some g =>
      simp only [Option.map_some, Option.getD_some, Agenda.cancel]
      split
      · exact List.filter_sublist
      · exact List.Sublist.refl _

/-- The timer whose time has come is taken away, and no other one. -/
theorem jobs_elapsed (d : Desk σ) (j : Job) :
    (d.elapsed j).jobs = d.jobs.filter fun k => k.handle != j.handle := by
  unfold elapsed jobs
  cases d.agenda <;> rfl

/-- A timer that is asked for follows the run of its day. -/
theorem jobs_askTimer {g : Agenda} (hg : d.agenda = some g) :
    (d.askTimer g).jobs = d.jobs ++
      [⟨g.issued + 1, g.clock + d.engine.delay, d.owner, .resume d.engine.generation⟩] := by
  simp [askTimer, jobs, Agenda.add, hg]

theorem jobs_pause_sublist (d : Desk σ) : d.pause.jobs.Sublist d.jobs :=
  jobs_cancelPending_sublist { d with engine := { d.engine with running := false } }

theorem ages_pause (d : Desk σ) : Ages d d.pause :=
  ⟨d.sameRun_pause.agenda, Nat.le_refl _,
    fun h => h.mono d.jobs_pause_sublist.subset (Nat.le_refl _)⟩

/-- The timer that is due next is one of the timers. -/
theorem mem_jobs_of_fire {handle : Option Nat} {j : Job}
    (hj : (d.agenda.bind fun g => handle.elim g.oldest? g.job?) = some j) : j ∈ d.jobs := by
  obtain ⟨g, hg, hj⟩ := Option.bind_eq_some_iff.1 hj
  simp only [jobs, hg, Option.map_some, Option.getD_some]
  cases handle with
  | none => exact List.mem_of_head? hj
  | some n => exact List.mem_of_find?_eq_some hj

theorem ages_loaded (d : Desk σ) (a : Automaton) (input : Option Text) :
    Ages d (d.loaded a input) :=
  ⟨d.isSome_agenda_cancelPending, Nat.le_succ _,
    fun h => h.mono d.jobs_cancelPending_sublist.subset (Nat.le_succ _)⟩

theorem ages_elapsed (d : Desk σ) (j : Job) : Ages d (d.elapsed j) := by
  refine ⟨Option.isSome_map, Nat.le_refl _, fun h => h.mono ?_ (Nat.le_refl _)⟩
  rw [jobs_elapsed]
  exact List.filter_sublist.subset

theorem ages_askTimer {g : Agenda} (hg : d.agenda = some g) : Ages d (d.askTimer g) := by
  refine ⟨(congrArg Option.isSome hg).symm, Nat.le_refl _, fun h j hj => ?_⟩
  rw [jobs_askTimer hg, List.mem_append, List.mem_singleton] at hj
  rcases hj with hold | rfl
  · exact h j hold
  · exact ⟨_, Nat.le_refl _, rfl⟩

/-- Nothing that the engine does makes a run younger. -/
theorem routine_ages : Routine (Ages (σ := σ)) where
  refl _ := ages_of_eq rfl rfl
  trans h h' := ⟨h'.agenda.trans h.agenda, Nat.le_trans h.generation h'.generation,
    h'.dated ∘ h.dated⟩
  outside _ _ := ages_of_eq rfl rfl
  note _ _ := ages_of_eq rfl rfl
  decide d := ages_of_eq d.leaves_decide.agenda d.leaves_decide.generation
  launch d ev := by
    unfold launch
    split <;> exact ages_of_eq rfl rfl
  observeLimit d := by
    unfold observeLimit
    split <;> exact ages_of_eq rfl rfl
  askTimer hg _ := ages_askTimer hg
  begun _ := ages_of_eq rfl rfl
  drains h := ⟨h.agenda, h.generation, h.dated⟩
  confirmed _ := ages_of_eq rfl rfl
  pause d := d.ages_pause
  reset d input := d.ages_loaded d.engine.automaton input
  load _ := ages_loaded _ _ _
  resumed {d j _} _ _ :=
    have h := d.ages_elapsed j
    ⟨h.agenda, h.generation, h.dated⟩
  settled _ _ := ages_elapsed _ _

end Desk

end AutomatonLab
