import AutomatonLab.Proofs.Limit
import AutomatonLab.Proofs.Requests

/-!
# Timers that cannot be cancelled

A timer that is given up is due all the same if the agenda cannot cancel. It does nothing then if its
run is over (`Desk.follows`), or if no automatic run goes on, or a step is in flight
(`Desk.proceeds`). These are all the tests, so a timer that was given up by a pause or by a step
makes a step again in the next automatic run of the same generation (`two_timers_advance_evenA`).

A generation has at most one timer more than it had interruptions, where a pause or a step interrupts
an automatic run that waits for its timer (`Request.interruptions`). The proof counts the timers of
the present generation. While listeners are told of a step, there is at most the pending one beside
those of the interruptions (`Desk.Tied`); between calls the pending timer may have been forgotten,
since every timer that is due forgets it (`Desk.Loose`).
-/

namespace AutomatonLab

open Control

namespace Desk

variable {σ : Type} {d d' : Desk σ} {n : Nat}

/-- The timer continues the present run. -/
def follows (d : Desk σ) (j : Job) : Bool :=
  j.task == .resume d.engine.generation

/-- An automatic run is going on, and no step in flight holds it back. -/
def proceeds (d : Desk σ) : Bool :=
  d.engine.running && !d.engine.inFlight

/-- The engine makes a step if the timer is due next. -/
def advances (d : Desk σ) (j : Job) : Bool :=
  d.follows j && d.proceeds

/-- The number of timers that continue the present run. -/
def timersOfRun (d : Desk σ) : Nat :=
  d.jobs.countP d.follows

/-- There are at most `n` timers of the present run beside the pending one. -/
def Tied (n : Nat) (d : Desk σ) : Prop :=
  d.timersOfRun ≤ n + (d.proceeds && d.engine.pending.isSome).toNat

/-- There are at most `n` timers of the present run, and one more while it proceeds. -/
def Loose (n : Nat) (d : Desk σ) : Prop :=
  d.timersOfRun ≤ n + d.proceeds.toNat

/-! ## The timers of the present run -/

theorem timersOfRun_eq (hagenda : d'.agenda = d.agenda)
    (hgeneration : d'.engine.generation = d.engine.generation) :
    d'.timersOfRun = d.timersOfRun := by
  unfold timersOfRun follows jobs
  rw [hagenda, hgeneration]

/-- Fewer timers are fewer of the run. -/
theorem timersOfRun_le (hjobs : d'.jobs.Sublist d.jobs)
    (hgeneration : d'.engine.generation = d.engine.generation) :
    d'.timersOfRun ≤ d.timersOfRun := by
  unfold timersOfRun follows
  rw [hgeneration]
  exact hjobs.countP_le

theorem timersOfRun_untimed (h : d.agenda = none) : d.timersOfRun = 0 := by
  simp [timersOfRun, jobs, h]

/-- A timer that is asked for is one of the run. -/
theorem timersOfRun_askTimer {g : Agenda} (hg : d.agenda = some g) :
    (d.askTimer g).timersOfRun = d.timersOfRun + 1 := by
  have hlast : d.follows ⟨g.issued + 1, g.clock + d.engine.delay, d.owner,
      .resume d.engine.generation⟩ = true := beq_self_eq_true _
  rw [timersOfRun, jobs_askTimer hg]
  show (d.jobs ++ _).countP d.follows = _
  rw [List.countP_append, List.countP_singleton, if_pos hlast]
  rfl

theorem timersOfRun_elapsed_le (d : Desk σ) (j : Job) :
    (d.elapsed j).timersOfRun ≤ d.timersOfRun := by
  refine timersOfRun_le ?_ rfl
  rw [jobs_elapsed]
  exact List.filter_sublist

/-- A timer of the run is no longer counted when its time has come. -/
theorem timersOfRun_elapsed_lt {j : Job} (hj : j ∈ d.jobs) (hfollows : d.follows j = true) :
    (d.elapsed j).timersOfRun < d.timersOfRun := by
  have hgone : 0 < (d.jobs.filter fun k => !(k.handle != j.handle)).countP d.follows :=
    List.countP_pos_iff.2 ⟨j, List.mem_filter.2 ⟨hj, by simp⟩, hfollows⟩
  have hsplit := List.countP_eq_countP_filter_add d.jobs d.follows fun k => k.handle != j.handle
  rw [timersOfRun, timersOfRun, jobs_elapsed, hsplit]
  exact Nat.lt_add_of_pos_right hgone

/-- The timers of the past do not continue a run that begins. -/
theorem timersOfRun_loaded (h : d.Dated) (a : Automaton) (input : Option Text) :
    (d.loaded a input).timersOfRun = 0 := by
  refine List.countP_eq_zero.2 fun j hj hfollows => ?_
  obtain ⟨generation, hle, htask⟩ := h j (d.jobs_cancelPending_sublist.subset hj)
  have hlater : j.task = .resume (d.engine.generation + 1) := beq_iff_eq.1 hfollows
  rw [htask] at hlater
  exact absurd (Task.resume.inj hlater) (by omega)

/-! ## Beside the pending timer -/

/-- A bound for all timers of the run is one for those beside the pending one. -/
theorem tied_of_le (h : d.timersOfRun ≤ n) : d.Tied n :=
  Nat.le_add_right_of_le h

/-- A run that proceeds has one pending timer at most. -/
theorem Tied.loose (h : d.Tied n) : d.Loose n := by
  unfold Tied at h
  unfold Loose
  cases hp : d.proceeds
  · simpa [hp] using h
  · have hle := Bool.toNat_le (d.proceeds && d.engine.pending.isSome)
    simp only [Bool.toNat_true]
    omega

/-- Without a pending timer the bound is one for all timers of the run. -/
theorem Tied.le_of_pending (h : d.Tied n) (hp : d.engine.pending = none) : d.timersOfRun ≤ n := by
  simpa [Tied, hp] using h

/-- Where the run does not proceed, the bound is one for all its timers. -/
theorem Loose.le_of_held (h : d.Loose n) (hp : d.proceeds = false) : d.timersOfRun ≤ n := by
  simpa [Loose, hp] using h

/-- At most one timer more than those of the interruptions makes a step. -/
theorem Loose.countP_advances_le (h : d.Loose n) : d.jobs.countP d.advances ≤ n + 1 := by
  have hadvances : d.jobs.countP d.advances ≤ d.timersOfRun :=
    List.countP_mono_left fun j _ h => (Bool.and_eq_true_iff.1 h).1
  have hone := Bool.toNat_le d.proceeds
  unfold Loose at h
  omega

/-- A timer is asked for only if none is waited for. -/
theorem Tied.scheduleNext (h : d.Tied n) (hflight : d.engine.inFlight = false) :
    d.scheduleNext.Tied n := by
  unfold Desk.scheduleNext
  split
  · exact h
  case h_2 g hg =>
    split
    · exact h
    case isFalse hgo =>
      simp only [Bool.or_eq_true, not_or, Bool.not_eq_true, Option.isSome_eq_false_iff,
        Option.isNone_iff_eq_none] at hgo
      have hle : d.timersOfRun ≤ n := h.le_of_pending hgo.1.1
      split
      · refine tied_of_le ?_
        unfold observeLimit
        split <;> exact hle
      · have hrunning : d.engine.running = true := by simpa using hgo.1.2
        have hproceeds : (d.askTimer g).proceeds = true := by
          simp [proceeds, askTimer, hrunning, hflight]
        unfold Tied
        rw [timersOfRun_askTimer hg, hproceeds]
        exact Nat.succ_le_succ hle

/-- Going on asks for one timer at most. -/
theorem Tied.goOn (h : d.Tied n) : d.goOn.Tied n := by
  unfold Desk.goOn
  split
  case isTrue hgo => exact h.scheduleNext (by simpa using (Bool.and_eq_true_iff.1 hgo).2)
  case isFalse => exact h

end Desk

/-! ## Listeners that confirm -/

namespace Control

open Desk

variable {σ α β : Type} {d : Desk σ} {n : Nat} {notify : Notify σ}

/-- What a listener does that keeps notes of its own and confirms steps, and may also raise faults
and catch them. An automatic run without timers makes further steps inside such a confirmation, and
their listeners may do anything. -/
inductive Answers : {α : Type} → Control σ α → Prop where
  | ret {α : Type} (a : α) : Answers (pure a)
  | bind {α β : Type} {x : Control σ α} {f : α → Control σ β} :
      Answers x → (∀ a, Answers (f a)) → Answers (x >>= f)
  | fail {α : Type} (fault : Fault) : Answers (throw fault : Control σ α)
  | attempt {α : Type} {x : Control σ α} {handle : Fault → Control σ α} :
      Answers x → (∀ fault, Answers (handle fault)) → Answers (tryCatch x handle)
  | look : Answers (get : Control σ (Desk σ))
  | keep (f : σ → σ) : Answers (update fun d => { d with outside := f d.outside })
  | log (entries : List LogEntry) : Answers (update fun d => d.note entries)
  | acknowledge {notify : Notify σ} (allowance : Nat) (generation : Option Int) :
      (∀ ev, Play true (notify ev)) → Answers (acknowledge notify allowance generation)

/-- Whoever only answers plays by the rules. -/
theorem Answers.play {x : Control σ α} (h : Answers x) : Play true x := by
  induction h with
  | ret a => exact .ret a
  | bind _ _ ihx ihf => exact .bind ihx ihf
  | fail fault => exact .fail fault rfl
  | attempt _ _ ihx ihh => exact .attempt rfl ihx ihh
  | look => exact .look
  | keep f => exact .keep f
  | log entries => exact .log entries
  | acknowledge allowance generation hn => exact .acknowledge allowance generation hn

/-- Without timers there is none, whatever the loop does. -/
theorem tied_drain (hn : ∀ ev, Play true (notify ev)) (allowance : Nat) (h : d.agenda = none)
    (n : Nat) : (exec (drain notify allowance) d).2.Tied n := by
  have hages := routine_ages.drain (fun ev => (hn ev).routine routine_ages) allowance d
  have hnone : (exec (drain notify allowance) d).2.agenda = none := by
    simpa [h] using hages.agenda
  exact tied_of_le (by simp [timersOfRun_untimed hnone])

/-- A confirmation keeps the bound. -/
theorem tied_acknowledge (hn : ∀ ev, Play true (notify ev)) (allowance : Nat)
    (generation : Option Int) (h : d.Tied n) :
    (exec (acknowledge notify allowance generation) d).2.Tied n := by
  rw [exec_acknowledge]
  split
  case isTrue => exact h
  case isFalse hflight =>
    have hproceeds : d.proceeds = false := by simp_all [proceeds]
    have hle : d.timersOfRun ≤ n := h.loose.le_of_held hproceeds
    split
    · exact h
    · split
      · exact tied_of_le hle
      · split
        case isTrue hnone =>
          exact tied_drain hn allowance (d := d.confirmed) (Option.isNone_iff_eq_none.1 hnone) n
        case isFalse => exact (tied_of_le hle : d.confirmed.Tied n).scheduleNext rfl

/-- What is kept by notes and by confirmations. -/
theorem Answers.keeps {P : Desk σ → Prop} {x : Control σ α} (h : Answers x)
    (houtside : ∀ d x, P d → P { d with outside := x })
    (hnote : ∀ d entries, P d → P (d.note entries))
    (hconfirm : ∀ (inner : Notify σ) (allowance : Nat) (generation : Option Int) (d : Desk σ),
      (∀ ev, Play true (inner ev)) → P d →
      P (exec (Control.acknowledge inner allowance generation) d).2)
    (hd : P d) : P (exec x d).2 := by
  induction h generalizing d with
  | ret => exact hd
  | bind _ _ ihx ihf => exact holds_bind (P := P) (ihx hd) fun a _ => ihf a
  | fail => exact hd
  | @attempt _ x handle _ _ ihx ihh =>
    have hfirst := ihx hd
    rw [exec_tryCatch]
    rcases hr : exec x d with ⟨fault | a, d'⟩ <;> rw [hr] at hfirst
    · exact ihh fault hfirst
    · exact hfirst
  | look => exact hd
  | keep f => exact houtside d (f d.outside) hd
  | log entries => exact hnote d entries hd
  | acknowledge allowance generation hn => exact hconfirm _ allowance generation d hn hd

theorem Answers.tied {x : Control σ α} (h : Answers x) (hd : d.Tied n) : (exec x d).2.Tied n :=
  h.keeps (fun _ _ => id) (fun _ _ => id)
    (fun _ allowance generation _ hn => tied_acknowledge hn allowance generation) hd

/-- A step keeps the bound, with listeners that only answer. -/
theorem tied_advance (hn : ∀ ev, Answers (notify ev)) (h : d.timersOfRun ≤ n) :
    (exec (advance notify) d).2.Tied n := by
  have hdecided : d.decide.2.timersOfRun ≤ n := by
    rwa [timersOfRun_eq d.leaves_decide.agenda d.leaves_decide.generation]
  refine holds_advance (P := Desk.Tied n) ?_ ?_ fun d => Tied.goOn
  · intro fault d₁ hdecide
    rw [hdecide] at hdecided
    exact tied_of_le hdecided
  · intro ev d₁ hdecide
    rw [hdecide] at hdecided
    obtain ⟨b, hlaunch⟩ := d₁.exists_launch_eq ev
    rw [hlaunch]
    exact (hn ev).tied (tied_of_le hdecided)

/-! ## No automatic run begins -/

/-- A confirmation does not begin a run. -/
theorem idle_acknowledge (notify : Notify σ) (allowance : Nat) (generation : Option Int)
    (hd : d.engine.running = false) :
    (exec (acknowledge notify allowance generation) d).2.engine.running = false := by
  rw [exec_acknowledge]
  split
  · exact hd
  · split
    · exact hd
    · rw [hd]
      exact hd

theorem Answers.idle {x : Control σ α} (h : Answers x) (hd : d.engine.running = false) :
    (exec x d).2.engine.running = false :=
  h.keeps (P := fun d => d.engine.running = false) (fun _ _ => id) (fun _ _ => id)
    (fun inner allowance generation _ _ => idle_acknowledge inner allowance generation) hd

/-- A step does not begin a run. -/
theorem idle_advance (hn : ∀ ev, Answers (notify ev)) (hd : d.engine.running = false) :
    (exec (advance notify) d).2.engine.running = false := by
  have hdecided : d.decide.2.engine.running = false := by
    rcases d.decide_cases with ⟨-, hdecide⟩ | ⟨-, fault, hdecide⟩ | ⟨-, decision, log, -, hdecide⟩
    all_goals
      rw [hdecide]
      simp [Engine.moved, hd]
  refine holds_advance (P := fun d => d.engine.running = false) ?_ ?_ ?_
  · intro fault d₁ hdecide
    rwa [hdecide] at hdecided
  · intro ev d₁ hdecide
    rw [hdecide] at hdecided
    obtain ⟨b, hlaunch⟩ := d₁.exists_launch_eq ev
    rw [hlaunch]
    exact (hn ev).idle hdecided
  · intro d h
    rw [goOn, h]
    exact h

end Control

/-! ## Requests -/

namespace Request

open Desk

variable {σ : Type} {d : Desk σ} {n : Nat} {notify : Notify σ}

/-- How often the present run has been interrupted after a request, if it was `n` times before. -/
def interruptionsAfter (d : Desk σ) (n : Nat) : Request → Nat
  | step | pause => n + d.proceeds.toNat
  | reset _ => 0
  | load a _ =>
    match a.validate with
    | .ok _ => 0
    | .error _ => n
  | _ => n

/-- How often the present run has been interrupted after a sequence of requests. -/
def interruptions (notify : Notify σ) : Desk σ → Nat → List Request → Nat
  | _, n, [] => n
  | d, n, r :: rs => interruptions notify (r.next notify d) (r.interruptionsAfter d n) rs

/-- The request gives up the automatic run that is going on. -/
def GivesUp (d : Desk σ) : Request → Prop
  | step => d.engine.inFlight = false ∧ d.engine.status.isTerminal = false
  | pause => True
  | _ => False

/-- The request may begin an automatic run. -/
def Begins : Request → Prop
  | run _ => True
  | _ => False

/-- A step by hand leaves one timer more behind, if the run was to proceed. -/
theorem loose_step (hn : ∀ ev, Answers (notify ev)) (h : d.Loose n) :
    (exec (Control.step notify) d).2.Loose (n + d.proceeds.toNat) := by
  have hsame : d.Loose (n + d.proceeds.toNat) := Nat.le_trans h (Nat.le_add_right _ _)
  rw [exec_step]
  split
  · exact hsame
  · split
    · exact hsame
    · have hpaused : d.pause.timersOfRun ≤ n + d.proceeds.toNat :=
        Nat.le_trans (timersOfRun_le d.jobs_pause_sublist rfl) h
      exact (tied_advance hn hpaused).loose

/-- An automatic run leaves no timer behind. -/
theorem loose_run (hn : ∀ ev, Answers (notify ev)) (allowance : Nat) (h : d.Loose n) :
    (exec (Control.run notify allowance) d).2.Loose n := by
  rw [exec_run]
  split
  case isTrue => exact h
  case isFalse hidle =>
    simp only [Bool.or_eq_true, not_or, Bool.not_eq_true] at hidle
    have hle : d.timersOfRun ≤ n := h.le_of_held (by simp [proceeds, hidle])
    split
    · refine (tied_of_le ?_).loose
      unfold observeLimit
      split <;> exact hle
    · split
      case isTrue hnone =>
        have hnone' : d.begun.agenda = none := Option.isNone_iff_eq_none.1 hnone
        exact (tied_drain (fun ev => (hn ev).play) allowance hnone' n).loose
      case isFalse => exact (tied_advance (d := d.begun) hn hle).loose

/-- A confirmation leaves no timer behind. -/
theorem loose_acknowledge (hn : ∀ ev, Answers (notify ev)) (allowance : Nat)
    (generation : Option Int) (h : d.Loose n) :
    (exec (Control.acknowledge notify allowance generation) d).2.Loose n := by
  cases hflight : d.engine.inFlight with
  | false =>
    rw [exec_acknowledge, hflight]
    exact h
  | true =>
    have hle : d.timersOfRun ≤ n := h.le_of_held (by simp [proceeds, hflight])
    exact (tied_acknowledge (fun ev => (hn ev).play) allowance generation (tied_of_le hle)).loose

/-- What happens when a timer of the engine is due. -/
theorem exec_due_of_dated (h : d.Dated) {j : Job} (hj : j ∈ d.jobs) (notify : Notify σ) :
    exec (due notify j) d =
      if d.advances j then
        ((exec (advance notify) (d.elapsed j).woken).1.map fun _ => (),
          (exec (advance notify) (d.elapsed j).woken).2)
      else (.ok (), (d.elapsed j).woken) := by
  obtain ⟨generation, -, htask⟩ := h j hj
  have hadvances : (generation ≠ (d.elapsed j).engine.generation || !(d.elapsed j).engine.running
      || (d.elapsed j).engine.inFlight) = !d.advances j := by
    by_cases hown : generation = d.engine.generation <;>
      simp [advances, follows, proceeds, elapsed, htask, hown]
  rw [exec_due, htask]
  simp only [exec_resume, hadvances]
  cases d.advances j <;> rfl

/-- A timer that is due is used up, and the next one takes its place. -/
theorem loose_due (hn : ∀ ev, Answers (notify ev)) (hdated : d.Dated) {j : Job} (hj : j ∈ d.jobs)
    (h : d.Loose n) : (exec (due notify j) d).2.Loose n := by
  rw [exec_due_of_dated hdated hj]
  split
  case isTrue hadvances =>
    obtain ⟨hfollows, hproceeds⟩ := Bool.and_eq_true_iff.1 hadvances
    have hlt := timersOfRun_elapsed_lt hj hfollows
    have hle : (d.elapsed j).woken.timersOfRun ≤ n := by
      unfold Loose at h
      rw [hproceeds, Bool.toNat_true] at h
      exact Nat.le_of_lt_succ (Nat.lt_of_lt_of_le hlt h)
    exact (tied_advance hn hle).loose
  case isFalse => exact Nat.le_trans (d.timersOfRun_elapsed_le j) h

theorem loose_fire (hn : ∀ ev, Answers (notify ev)) (hdated : d.Dated) (handle : Option Nat)
    (h : d.Loose n) : (exec (Control.fire notify handle) d).2.Loose n := by
  rw [exec_fire]
  split
  case h_1 => exact h
  case h_2 j hj => exact loose_due hn hdated (mem_jobs_of_fire hj) h

/-- A request leaves at most as many timers behind as it interrupts steps. -/
theorem loose_next (hn : ∀ ev, Answers (notify ev)) (hdated : d.Dated) (h : d.Loose n)
    (r : Request) : (r.next notify d).Loose (r.interruptionsAfter d n) := by
  cases r with
  | step => exact loose_step hn h
  | run allowance => exact loose_run hn allowance h
  | pause =>
    have hle := timersOfRun_le d.jobs_pause_sublist rfl
    exact (tied_of_le (d := d.pause) (Nat.le_trans hle h)).loose
  | reset input =>
    exact (tied_of_le (Nat.le_of_eq (timersOfRun_loaded hdated d.engine.automaton input))).loose
  | load a input =>
    rcases hv : a.validate with defect | ⟨⟩
    · have hsame : (load a input).next notify d = d :=
        congrArg Prod.snd (exec_load_of_invalid hv input d)
      simpa [hsame, interruptionsAfter, hv] using h
    · have hloaded : (load a input).next notify d = d.loaded a input :=
        congrArg Prod.snd (exec_load_of_valid hv input d)
      rw [hloaded, interruptionsAfter, hv]
      exact (tied_of_le (Nat.le_of_eq (timersOfRun_loaded hdated a input))).loose
  | acknowledge allowance generation => exact loose_acknowledge hn allowance generation h
  | fire handle => exact loose_fire hn hdated handle h

/-- The timers left behind are at most the interruptions so far. -/
theorem loose_nextAll (hn : ∀ ev, Answers (notify ev)) (rs : List Request) (hdated : d.Dated)
    (h : d.Loose n) : (nextAll notify d rs).Loose (interruptions notify d n rs) := by
  induction rs generalizing d n with
  | nil => exact h
  | cons r rs ih =>
    have hages := r.across routine_ages (fun ev => (hn ev).play.routine routine_ages) d
    exact ih (hages.dated hdated) (loose_next hn hdated h r)

/-- Without a new automatic run none is going on. -/
theorem idle_next (hn : ∀ ev, Answers (notify ev)) {r : Request} (hr : ¬r.Begins)
    (hd : d.engine.running = false) : (r.next notify d).engine.running = false := by
  cases r with
  | step =>
    show (exec (Control.step notify) d).2.engine.running = false
    rw [exec_step]
    split
    · exact hd
    · split
      · exact hd
      · exact idle_advance hn rfl
  | run => exact absurd trivial hr
  | pause => rfl
  | reset => rfl
  | load a input =>
    show (exec (Control.load a input) d).2.engine.running = false
    rw [exec_load]
    rcases hl : d.load a input with fault | d'
    · exact hd
    · obtain ⟨-, rfl⟩ := load_ok hl
      rfl
  | acknowledge allowance generation => exact idle_acknowledge notify allowance generation hd
  | fire handle =>
    show (exec (Control.fire notify handle) d).2.engine.running = false
    rw [exec_fire]
    split
    · exact hd
    · simp only [exec_due]
      split
      · rw [exec_resume, if_pos (by simp [elapsed, hd])]
        exact hd
      · exact hd

/-- Without a request that begins an automatic run none is going on. -/
theorem idle_nextAll (hn : ∀ ev, Answers (notify ev)) {rs : List Request}
    (hrs : ∀ r ∈ rs, ¬r.Begins) (hd : d.engine.running = false) :
    (nextAll notify d rs).engine.running = false := by
  induction rs generalizing d with
  | nil => exact hd
  | cons r rs ih =>
    rw [List.forall_mem_cons] at hrs
    exact ih hrs.2 (idle_next hn hrs.1 hd)

/-- A run that is given up does not go on. -/
theorem idle_of_givesUp (hn : ∀ ev, Answers (notify ev)) {r : Request} (hr : r.GivesUp d) :
    (r.next notify d).engine.running = false := by
  cases r with
  | step =>
    show (exec (Control.step notify) d).2.engine.running = false
    rw [exec_step, hr.1, hr.2]
    exact idle_advance hn rfl
  | pause => rfl
  | _ => exact absurd hr id

/-- A timer of a past run never makes a step again. -/
theorem advances_of_renews (hacross : ∀ ev, Across Desk.Ages (notify ev)) (hdated : d.Dated)
    {r : Request} (hr : r.Renews) {j : Job} (hj : j ∈ d.jobs) (rs : List Request) :
    (nextAll notify d (r :: rs)).advances j = false := by
  obtain ⟨a, input, hrenewed⟩ := next_of_renews hr notify d
  have hages := acrossAll Desk.routine_ages hacross rs (d.loaded a input)
  obtain ⟨generation, hle, htask⟩ := hdated j hj
  have hlater : d.engine.generation + 1 ≤ (nextAll notify d (r :: rs)).engine.generation := by
    rw [nextAll_cons, hrenewed]
    exact hages.generation
  have hpast : generation ≠ (nextAll notify d (r :: rs)).engine.generation := by omega
  simp [advances, follows, htask, hpast]

/-- No timer makes a step after the run has been given up, until another one begins. -/
theorem advances_of_givesUp (hn : ∀ ev, Answers (notify ev)) {r : Request} (hr : r.GivesUp d)
    {rs : List Request} (hrs : ∀ r' ∈ rs, ¬r'.Begins) (j : Job) :
    (nextAll notify d (r :: rs)).advances j = false := by
  have hidle := idle_nextAll hn hrs (idle_of_givesUp hn hr)
  simp [advances, proceeds, nextAll_cons, hidle]

end Request

open Request in
/-- With timers that may be due although they have been given up, and listeners that confirm steps :
at most one timer more than the run had interruptions would make a step. A timer that would not is
without effect, apart from the record of the pending one. Nothing of a past run ever makes a step,
nor anything that a pause or a step has given up, until an automatic run begins. -/
theorem advances_of_requests {σ : Type} {a : Automaton} {w : Text} {delay : Int} {manualAck : Bool}
    {maxSteps : Option Int} {agenda : Option Agenda} {owner : Nat} {outside : σ} {d₀ : Desk σ}
    {notify : Notify σ} (hjobs : ∀ g, agenda = some g → g.jobs = [])
    (hd : Desk.start a w delay manualAck maxSteps agenda owner outside = .ok d₀)
    (hn : ∀ ev, Answers (notify ev)) (rs : List Request) :
    let d := nextAll notify d₀ rs
    d.jobs.countP d.advances ≤ interruptions notify d₀ 0 rs + 1 ∧
    (∀ j ∈ d.jobs, ∀ told : Notify σ, exec (due told j) d =
      if d.advances j then
        ((exec (advance told) (d.elapsed j).woken).1.map fun _ => (),
          (exec (advance told) (d.elapsed j).woken).2)
      else (.ok (), (d.elapsed j).woken)) ∧
    (∀ r : Request, r.Renews → ∀ j ∈ d.jobs, ∀ rs' : List Request,
      (nextAll notify d (r :: rs')).advances j = false) ∧
    (∀ r : Request, r.GivesUp d → ∀ rs' : List Request, (∀ r' ∈ rs', ¬r'.Begins) →
      ∀ j, (nextAll notify d (r :: rs')).advances j = false) := by
  intro d
  have hacross : ∀ ev, Across Desk.Ages (notify ev) := fun ev =>
    (hn ev).play.routine Desk.routine_ages
  have hnew : d₀.jobs = [] := by
    obtain ⟨-, rfl⟩ := Desk.start_ok hd
    cases agenda with
    | none => rfl
    | some g => exact hjobs g rfl
  have hdated₀ : d₀.Dated := by
    intro j hj
    rw [hnew] at hj
    cases hj
  have hloose₀ : d₀.Loose 0 := by simp [Desk.Loose, Desk.timersOfRun, hnew]
  have hdated : d.Dated := (acrossAll Desk.routine_ages hacross rs d₀).dated hdated₀
  have hloose : d.Loose (interruptions notify d₀ 0 rs) := loose_nextAll hn rs hdated₀ hloose₀
  exact ⟨hloose.countP_advances_le, fun j hj told => exec_due_of_dated hdated hj told,
    fun r hr j hj rs' => advances_of_renews hacross hdated hr hj rs',
    fun r hr rs' hrs' j => advances_of_givesUp hn hr hrs' j⟩

open Request in
/-- The timer of the first run is due in the second one, although it was given up; the second run
has been interrupted once, and the timer that is left makes its step. -/
theorem advances_of_requests_evenA :
    let quiet : Notify Unit := fun _ => pure ()
    let rs : List Request := [.run 0, .reset none, .run 0, .fire (some 1), .step, .run 0]
    (∀ g, some (Agenda.empty false) = some g → g.jobs = []) ∧ (∀ ev, Answers (quiet ev)) ∧
      ∃ d₀, Desk.start Catalog.evenA.automaton "bbbb" 200 false none (some (.empty false)) 0 () =
        .ok d₀ ∧
      let d := nextAll quiet d₀ rs
      interruptions quiet d₀ 0 rs = 1 ∧ d.jobs.map Job.handle = [2, 3] ∧
        d.jobs.countP d.advances ≤ 2 := by
  intro quiet rs
  have hquiet : ∀ ev, Answers (quiet ev) := fun _ => .ret ()
  have hjobs : ∀ g, some (Agenda.empty false) = some g → g.jobs = [] := by
    intro g hg
    obtain rfl := Option.some.inj hg
    rfl
  obtain ⟨d₀, hd⟩ : ∃ d₀, Desk.start Catalog.evenA.automaton "bbbb" 200 false none
      (some (.empty false)) 0 () = .ok d₀ := ⟨_, rfl⟩
  refine ⟨hjobs, hquiet, d₀, hd, ?_⟩
  have hbound := (advances_of_requests hjobs hd hquiet rs).1
  cases hd
  exact ⟨by decide +kernel, by decide +kernel, hbound⟩

open Request in
/-- A run that is given up by a pause and begun again has two timers, and both make a step. Besides,
a timer of a past run makes the engine forget the pending one of the present run. -/
theorem two_timers_advance_evenA :
    let quiet : Notify Unit := fun _ => pure ()
    ∃ d₀, Desk.start Catalog.evenA.automaton "bbbb" 200 false none (some (.empty false)) 0 () =
      .ok d₀ ∧
    let twice := nextAll quiet d₀ [.run 0, .pause, .run 0]
    let renewed := nextAll quiet d₀ [.run 0, .reset none, .run 0]
    (twice.jobs.countP twice.advances = 2 ∧
      ((Request.fire (some 1)).next quiet twice).engine.steps = twice.engine.steps + 1) ∧
    renewed.engine.pending = some 2 ∧
      ((Request.fire (some 1)).next quiet renewed).engine.pending = none := by
  intro quiet
  obtain ⟨d₀, hd⟩ : ∃ d₀, Desk.start Catalog.evenA.automaton "bbbb" 200 false none
      (some (.empty false)) 0 () = .ok d₀ := ⟨_, rfl⟩
  refine ⟨d₀, hd, ?_⟩
  cases hd
  decide +kernel

end AutomatonLab
