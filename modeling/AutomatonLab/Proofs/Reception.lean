import AutomatonLab.Proofs.Limit
import AutomatonLab.Proofs.Requests

/-!
# What the listeners receive

An engine tells its listeners of each event one after the other, in the order in which they were
registered. A listener may confirm the step at once (`Reaction.confirm`), before the later listeners
have heard of it. If the confirmation made the next step, these would receive the events in another
order. It does not : an automatic run without timers goes on by its loop, which is active then
already, and with timers it only asks for one (`Desk.Guarded`, `Desk.enters`).

So each listener has received the history, in order, whenever no call is active
(`Desk.Informed`, `received_of_requests`), and the loop is never entered while the listeners are told
of an event. For this reason the proof need not know what would happen inside the loop then : the
audience of such inner steps, and their number, are arbitrary.
-/

namespace AutomatonLab

open Control

/-- What lies outside an engine with several listeners : what each of them has received, the first
event first, how often the loop was entered while the listeners were told of an event, and their own
notes. -/
structure Hall (τ : Type) where
  received : Nat → List Event
  entries : Nat
  notes : τ

/-- What a listener does with an event. It may look at the desk, keep notes, and confirm the step,
for the generation of the event (`own`) or for any. -/
inductive Reaction (τ : Type) where
  | done
  | look (next : Desk (Hall τ) → Reaction τ)
  | keep (f : τ → τ) (next : Reaction τ)
  | confirm (own : Bool) (next : Reaction τ)

namespace Desk

variable {σ : Type}

/-- The confirmation enters the loop that makes all steps at once. -/
def enters (d : Desk σ) (generation : Option Int) : Bool :=
  d.engine.inFlight && (generation.filter (· ≠ (d.engine.generation : Int))).isNone &&
    d.engine.running && !d.engine.draining && d.agenda.isNone

/-- The desk after a confirmation that does not enter the loop. -/
def answered (d : Desk σ) (generation : Option Int) : Desk σ :=
  if !d.engine.inFlight then d
  else match generation.filter (· ≠ (d.engine.generation : Int)) with
    | some other => d.note [staleNote other]
    | none =>
      if !d.engine.running || d.engine.draining then d.confirmed else d.confirmed.scheduleNext

/-- A confirmation that is accepted lets the run go on as far as it has to. -/
theorem exec_acknowledge_eq (notify : Notify σ) (allowance : Nat) (generation : Option Int)
    (d : Desk σ) : exec (acknowledge notify allowance generation) d =
      if d.enters generation then exec (drain notify allowance) d.confirmed
      else (.ok (), d.answered generation) := by
  rw [exec_acknowledge, enters, answered]
  cases d.engine.inFlight with
  | false => rfl
  | true =>
    cases generation.filter (· ≠ (d.engine.generation : Int)) with
    | some other => rfl
    | none => cases d.engine.running <;> cases d.engine.draining <;> cases d.agenda <;> rfl

end Desk

namespace Reaction

variable {τ : Type}

/-- A listener reacts to an event. -/
def perform (again : Notify (Hall τ)) (inner : Nat) (ev : Event) :
    Reaction τ → Control (Hall τ) Unit
  | done => pure ()
  | look next => do
    let d ← get
    perform again inner ev (next d)
  | keep f next => do
    update fun d => { d with outside := { d.outside with notes := f d.outside.notes } }
    perform again inner ev next
  | confirm own next => do
    let generation := if own then some (ev.generation : Int) else none
    update fun d => { d with outside :=
      { d.outside with entries := d.outside.entries + (d.enters generation).toNat } }
    acknowledge again inner generation
    perform again inner ev next

end Reaction

namespace Hall

variable {τ : Type}

/-- Listener number `i` receives an event. -/
def receive (i : Nat) (ev : Event) (u : Hall τ) : Hall τ :=
  { u with received := fun k => if k = i then u.received k ++ [ev] else u.received k }

/-- The listeners are told of an event, one after the other; the first of them has number `i`. -/
def announceFrom (again : Notify (Hall τ)) (inner : Nat) (ev : Event) :
    Nat → List (Event → Reaction τ) → Control (Hall τ) Unit
  | _, [] => pure ()
  | i, l :: ls => do
    update fun d => { d with outside := d.outside.receive i ev }
    (l ev).perform again inner ev
    announceFrom again inner ev (i + 1) ls

/-- All listeners are told of an event. -/
def announce (again : Notify (Hall τ)) (inner : Nat) (listeners : List (Event → Reaction τ)) :
    Notify (Hall τ) :=
  fun ev => announceFrom again inner ev 0 listeners

end Hall

namespace Desk

section

variable {σ : Type} {d d' d'' : Desk σ}

/-- What a confirmation by a listener leaves as it is, if it does not enter the loop. An automatic
run may end by it. -/
structure Undisturbed (d d' : Desk σ) : Prop where
  history : d'.engine.history = d.engine.history
  status : d'.engine.status = d.engine.status
  draining : d'.engine.draining = d.engine.draining
  running : d'.engine.running = true → d.engine.running = true
  agenda : d'.agenda.isSome = d.agenda.isSome

theorem undisturbed_refl (d : Desk σ) : Undisturbed d d :=
  ⟨rfl, rfl, rfl, id, rfl⟩

/-- Two calls that disturb no listener do so together. -/
theorem Undisturbed.trans (h : Undisturbed d d') (h' : Undisturbed d' d'') : Undisturbed d d'' where
  history := h'.history.trans h.history
  status := h'.status.trans h.status
  draining := h'.draining.trans h.draining
  running := h.running ∘ h'.running
  agenda := h'.agenda.trans h.agenda

theorem undisturbed_observeLimit (d : Desk σ) :
    Undisturbed d d.observeLimit ∧ d.observeLimit.outside = d.outside := by
  unfold observeLimit
  split
  · exact ⟨⟨rfl, rfl, rfl, nofun, rfl⟩, rfl⟩
  · exact ⟨undisturbed_refl d, rfl⟩

theorem undisturbed_scheduleNext (d : Desk σ) :
    Undisturbed d d.scheduleNext ∧ d.scheduleNext.outside = d.outside := by
  unfold scheduleNext
  split
  · exact ⟨undisturbed_refl d, rfl⟩
  case h_2 g hg =>
    split
    · exact ⟨undisturbed_refl d, rfl⟩
    · split
      · exact undisturbed_observeLimit d
      · exact ⟨⟨rfl, rfl, rfl, id, (congrArg Option.isSome hg).symm⟩, rfl⟩

theorem undisturbed_goOn (d : Desk σ) : Undisturbed d d.goOn ∧ d.goOn.outside = d.outside := by
  unfold goOn
  split
  · exact undisturbed_scheduleNext d
  · exact ⟨undisturbed_refl d, rfl⟩

theorem undisturbed_answered (d : Desk σ) (generation : Option Int) :
    Undisturbed d (d.answered generation) ∧ (d.answered generation).outside = d.outside := by
  have hconfirmed : Undisturbed d d.confirmed := ⟨rfl, rfl, rfl, id, rfl⟩
  unfold answered
  split
  · exact ⟨undisturbed_refl d, rfl⟩
  · split
    · exact ⟨⟨rfl, rfl, rfl, id, rfl⟩, rfl⟩
    · split
      · exact ⟨hconfirmed, rfl⟩
      · obtain ⟨hscheduled, houtside⟩ := undisturbed_scheduleNext d.confirmed
        exact ⟨hconfirmed.trans hscheduled, houtside⟩

theorem undisturbed_launch (d : Desk σ) (ev : Event) :
    Undisturbed d (d.launch ev) ∧ (d.launch ev).outside = d.outside := by
  obtain ⟨b, hlaunch⟩ := d.exists_launch_eq ev
  rw [hlaunch]
  exact ⟨⟨rfl, rfl, rfl, id, rfl⟩, rfl⟩

/-- An automatic run that goes on without timers does so by its loop. -/
def Guarded (d : Desk σ) : Prop :=
  d.engine.running = true → d.agenda.isSome = true ∨ d.engine.draining = true

/-- A loop that is under way stays so. -/
theorem Guarded.undisturbed (h : d.Guarded) (hd : Undisturbed d d') : d'.Guarded := by
  intro hrunning
  rw [hd.agenda, hd.draining]
  exact h (hd.running hrunning)

/-- While a loop is under way, no confirmation begins another one. -/
theorem Guarded.enters_eq_false (h : d.Guarded) (generation : Option Int) :
    d.enters generation = false := by
  cases hrunning : d.engine.running with
  | false => simp [enters, hrunning]
  | true =>
    rcases h hrunning with hsome | hdraining
    · have hnone : d.agenda.isNone = false := by simpa [Option.isSome_iff_ne_none] using hsome
      simp [enters, hnone]
    · simp [enters, hdraining]

end

variable {τ : Type} {d d' : Desk (Hall τ)}

/-- The reaction of a listener makes no step and tells nobody anything. -/
theorem undisturbed_perform (again : Notify (Hall τ)) (inner : Nat) (ev : Event) (r : Reaction τ)
    (h : d.Guarded) :
    ∃ d', exec (r.perform again inner ev) d = (.ok (), d') ∧ Undisturbed d d' ∧
      d'.outside.received = d.outside.received ∧ d'.outside.entries = d.outside.entries := by
  induction r generalizing d with
  | done => exact ⟨d, rfl, undisturbed_refl d, rfl, rfl⟩
  | look next ih => exact ih d h
  | keep f next ih =>
    obtain ⟨d', hrest, hd', houtside⟩ :=
      @ih { d with outside := { d.outside with notes := f d.outside.notes } } h
    exact ⟨d', hrest, ⟨hd'.history, hd'.status, hd'.draining, hd'.running, hd'.agenda⟩, houtside⟩
  | confirm own next ih =>
    generalize hgen : (if own then some (ev.generation : Int) else none) = generation
    obtain ⟨hanswered, hsame⟩ := undisturbed_answered d generation
    obtain ⟨d', hrest, hd', houtside⟩ := ih (h.undisturbed hanswered)
    rw [hsame] at houtside
    refine ⟨d', ?_, hanswered.trans hd', houtside⟩
    have hcount : ({ d with outside := { d.outside with
        entries := d.outside.entries + (d.enters generation).toNat } } : Desk (Hall τ)) = d := by
      rw [h.enters_eq_false generation]
      rfl
    rw [Reaction.perform, hgen, exec_bind, exec_update]
    simp only [hcount]
    rw [exec_bind, exec_acknowledge_eq, h.enters_eq_false]
    exact hrest

/-- Within the loop the listeners only mark what they have received. -/
theorem undisturbed_announceFrom (again : Notify (Hall τ)) (inner : Nat) (ev : Event)
    (ls : List (Event → Reaction τ)) (i : Nat) (h : d.Guarded) :
    ∃ d', exec (Hall.announceFrom again inner ev i ls) d = (.ok (), d') ∧ Undisturbed d d' ∧
      (∀ k, d'.outside.received k =
        d.outside.received k ++ if i ≤ k ∧ k < i + ls.length then [ev] else []) ∧
      d'.outside.entries = d.outside.entries := by
  induction ls generalizing i d with
  | nil => exact ⟨d, rfl, undisturbed_refl d, fun k => by simp, rfl⟩
  | cons l ls ih =>
    obtain ⟨d₁, hfirst, hd₁, hreceived₁, hentries₁⟩ := undisturbed_perform again inner ev (l ev)
      (d := { d with outside := d.outside.receive i ev }) h
    have hd₁' : Undisturbed d d₁ :=
      ⟨hd₁.history, hd₁.status, hd₁.draining, hd₁.running, hd₁.agenda⟩
    obtain ⟨d', hrest, hd', hreceived, hentries⟩ := ih (i + 1) (h.undisturbed hd₁')
    refine ⟨d', ?_, hd₁'.trans hd', fun k => ?_, hentries.trans hentries₁⟩
    · rw [Hall.announceFrom]
      simp only [exec_bind, exec_update, hfirst]
      exact hrest
    · rw [hreceived k, hreceived₁]
      simp only [Hall.receive, List.length_cons]
      by_cases hk : k = i
      · subst hk
        have hnow : k ≤ k ∧ k < k + (ls.length + 1) := by omega
        have hlater : ¬(k + 1 ≤ k ∧ k < k + 1 + ls.length) := by omega
        rw [if_pos rfl, if_neg hlater, if_pos hnow, List.append_nil]
      · have hiff : (i + 1 ≤ k ∧ k < i + 1 + ls.length) ↔ i ≤ k ∧ k < i + (ls.length + 1) := by
          omega
        simp only [hk, hiff, if_false]

/-- Since the run began, each of `n` listeners has received its history, and what it had received
before is `past`. Besides, the loop was never entered from inside, it is active if `looping` says so,
and no automatic run goes on after the end. -/
structure Informed (past : Nat → List Event) (n : Nat) (looping : Bool) (d : Desk (Hall τ)) :
    Prop where
  received : ∀ i < n, d.outside.received i = past i ++ d.engine.history.toList
  entries : d.outside.entries = 0
  draining : d.engine.draining = looping
  stopped : d.Stopped

variable {past : Nat → List Event} {n : Nat} {looping : Bool}

/-- The listeners stay informed where nobody is disturbed. -/
theorem Informed.undisturbed (h : d.Informed past n looping) (hd : Undisturbed d d')
    (houtside : d'.outside = d.outside) : d'.Informed past n looping where
  received i hi := by rw [houtside, hd.history, h.received i hi]
  entries := by rw [houtside, h.entries]
  draining := hd.draining.trans h.draining
  stopped hs := Bool.eq_false_iff.2 fun hrunning =>
    Bool.eq_false_iff.1 (h.stopped (hd.status ▸ hs)) (hd.running hrunning)

/-- What the listeners had received before another run begins is the past of that run. -/
theorem Informed.loaded (h : d.Informed past n looping) (a : Automaton) (input : Option Text) :
    (d.loaded a input).Informed d.outside.received n looping where
  received _ _ := (List.append_nil _).symm
  entries := h.entries
  draining := h.draining
  stopped _ := rfl

/-- A decision of a run that has not ended adds its event to the history. -/
theorem history_of_decide (hs : d.engine.status.isTerminal = false) {ev : Event}
    (hdecide : d.decide = (.ok ev, d')) :
    d'.engine.history.toList = d.engine.history.toList ++ [ev] ∧
      (d'.engine.running = true → d.engine.running = true) := by
  obtain ⟨decision, log, -, rfl, rfl⟩ := decide_ok hs hdecide
  exact ⟨Array.toList_push, fun hrunning => (Bool.and_eq_true_iff.1 hrunning).1⟩

end Desk

/-! ## Every call -/

namespace Hall

open Desk

variable {τ : Type} {d d' : Desk (Hall τ)} {past : Nat → List Event} {looping : Bool}
  (again : Notify (Hall τ)) (inner : Nat) (listeners : List (Event → Reaction τ))

/-- A step adds its event to the history, and then all listeners are told. -/
theorem informed_advance (h : d.Informed past listeners.length looping) (hguarded : d.Guarded)
    (hs : d.engine.status.isTerminal = false) :
    (exec (advance (announce again inner listeners)) d).2.Informed past listeners.length
      looping := by
  refine holds_advance (P := Desk.Informed past listeners.length looping) ?_ ?_ ?_
  · intro fault d₁ hdecide
    rw [decide_error hdecide]
    exact ⟨h.received, h.entries, h.draining, nofun⟩
  · intro ev d₁ hdecide
    have hstopped := stopped_decide h.stopped
    have hleaves := d.leaves_decide
    rw [hdecide] at hstopped hleaves
    obtain ⟨hhistory, hrunning⟩ := history_of_decide hs hdecide
    have hguarded₁ : d₁.Guarded := by
      unfold Guarded
      rw [hleaves.agenda, hleaves.draining]
      exact hguarded ∘ hrunning
    obtain ⟨hlaunched, houtside⟩ := d₁.undisturbed_launch ev
    obtain ⟨d₂, htell, hd₂, hreceived, hentries⟩ :=
      undisturbed_announceFrom again inner ev listeners 0 (hguarded₁.undisturbed hlaunched)
    have htold : exec (announce again inner listeners ev) (d₁.launch ev) = (.ok (), d₂) := htell
    have hsofar := hlaunched.trans hd₂
    rw [houtside, hleaves.outside] at hreceived hentries
    rw [htold]
    refine ⟨fun i hi => ?_, hentries.trans h.entries,
      (hsofar.draining.trans hleaves.draining).trans h.draining, fun hterminal => ?_⟩
    · have hhere : 0 ≤ i ∧ i < 0 + listeners.length := by omega
      rw [hreceived i, if_pos hhere, hsofar.history, hhistory, ← List.append_assoc,
        ← h.received i hi]
    · exact Bool.eq_false_iff.2 fun hgoes =>
        Bool.eq_false_iff.1 (hstopped (hsofar.status ▸ hterminal)) (hsofar.running hgoes)
  · intro d₂ hd₂
    obtain ⟨hgone, houtside⟩ := d₂.undisturbed_goOn
    exact hd₂.undisturbed hgone houtside

/-- The loop is active while it makes its steps. -/
theorem informed_drainLoop : ∀ (allowance : Nat) (d : Desk (Hall τ)),
    d.Informed past listeners.length true →
      (exec (drainLoop (announce again inner listeners) allowance) d).2.Informed past
        listeners.length true
  | 0, _, h => h
  | allowance + 1, d, h => by
    rw [exec_drainLoop_succ]
    split
    case isFalse => exact h
    case isTrue hgo =>
      simp only [Bool.and_eq_true, Bool.not_eq_true'] at hgo
      split
      · obtain ⟨hobserved, houtside⟩ := d.undisturbed_observeLimit
        exact h.undisturbed hobserved houtside
      · have hfirst := informed_advance again inner listeners h (fun _ => Or.inr h.draining) hgo.2
        exact holds_bind (P := Desk.Informed past listeners.length true) hfirst
          fun _ => informed_drainLoop allowance

/-- The loop leaves every listener informed of the whole history. -/
theorem informed_drain (allowance : Nat) (h : d.Informed past listeners.length false) :
    (exec (drain (announce again inner listeners) allowance) d).2.Informed past listeners.length
      false := by
  have hbegin : (d.drains true).Informed past listeners.length true :=
    ⟨h.received, h.entries, rfl, h.stopped⟩
  have hloop := informed_drainLoop again inner listeners allowance _ hbegin
  rw [exec_drain]
  exact ⟨hloop.received, hloop.entries, rfl, hloop.stopped⟩

/-- A step by hand leaves every listener informed. -/
theorem informed_step (h : d.Informed past listeners.length false) :
    (exec (step (announce again inner listeners)) d).2.Informed past listeners.length false := by
  rw [exec_step]
  split
  · exact ⟨h.received, h.entries, h.draining, h.stopped⟩
  · split
    · exact h
    case isFalse hs =>
      have hpaused : d.pause.Informed past listeners.length false :=
        ⟨h.received, h.entries, h.draining, fun _ => rfl⟩
      exact informed_advance again inner listeners hpaused nofun (Bool.eq_false_iff.2 hs)

/-- An automatic run leaves every listener informed. -/
theorem informed_run (allowance : Nat) (h : d.Informed past listeners.length false) :
    (exec (run (announce again inner listeners) allowance) d).2.Informed past listeners.length
      false := by
  rw [exec_run]
  split
  · exact h
  · split
    · obtain ⟨hobserved, houtside⟩ := d.undisturbed_observeLimit
      exact h.undisturbed hobserved houtside
    · have hbegun : d.begun.Informed past listeners.length false :=
        ⟨h.received, h.entries, h.draining, nofun⟩
      split
      · exact informed_drain again inner listeners allowance hbegun
      case isFalse hsome =>
        have htimed : d.agenda.isSome = true := by
          simpa [Option.isSome_iff_ne_none] using hsome
        exact informed_advance again inner listeners hbegun (fun _ => Or.inl htimed) rfl

/-- A confirmation leaves every listener informed, in the loop and outside of it. -/
theorem informed_acknowledge (allowance : Nat) (generation : Option Int)
    (h : d.Informed past listeners.length false) :
    (exec (acknowledge (announce again inner listeners) allowance generation) d).2.Informed past
      listeners.length false := by
  rw [exec_acknowledge_eq]
  split
  · have hconfirmed : d.confirmed.Informed past listeners.length false :=
      ⟨h.received, h.entries, h.draining, h.stopped⟩
    exact informed_drain again inner listeners allowance hconfirmed
  · obtain ⟨hanswered, houtside⟩ := d.undisturbed_answered generation
    exact h.undisturbed hanswered houtside

/-- A timer that is due leaves every listener informed. -/
theorem informed_fire (handle : Option Nat) (h : d.Informed past listeners.length false) :
    (exec (fire (announce again inner listeners) handle) d).2.Informed past listeners.length
      false := by
  rw [exec_fire]
  split
  case h_1 => exact h
  case h_2 j hj =>
    have hwoken : (d.elapsed j).woken.Informed past listeners.length false :=
      ⟨h.received, h.entries, h.draining, h.stopped⟩
    simp only [exec_due]
    split
    case h_1 generation _ =>
      rw [exec_resume]
      split
      · exact hwoken
      case isFalse hgo =>
        simp only [Bool.or_eq_true, not_or, Bool.not_eq_true, Bool.not_eq_false'] at hgo
        have hrunning : d.engine.running = true := hgo.1.2
        have hs : d.engine.status.isTerminal = false :=
          Bool.eq_false_iff.2 fun hs => by simp [h.stopped hs] at hrunning
        have htimed : (d.elapsed j).woken.Guarded := by
          obtain ⟨g, hg, -⟩ := Option.bind_eq_some_iff.1 hj
          exact fun _ => Or.inl (by simp [elapsed, woken, hg])
        exact informed_advance again inner listeners hwoken htimed hs
    case h_2 => exact ⟨h.received, h.entries, h.draining, h.stopped⟩

/-- A request that does not begin another run leaves the listeners informed. -/
theorem informed_next {r : Request} (hr : ¬r.Renews)
    (h : d.Informed past listeners.length false) :
    (r.next (announce again inner listeners) d).Informed past listeners.length false := by
  cases r with
  | step => exact informed_step again inner listeners h
  | run allowance => exact informed_run again inner listeners allowance h
  | pause => exact ⟨h.received, h.entries, h.draining, fun _ => rfl⟩
  | reset => exact absurd trivial hr
  | load a input =>
    rw [Request.next_load_of_refused hr]
    exact h
  | acknowledge allowance generation =>
    exact informed_acknowledge again inner listeners allowance generation h
  | fire handle => exact informed_fire again inner listeners handle h

/-- Requests that begin no new run leave every listener informed, by induction on them. -/
theorem informed_nextAll {rs : List Request} (hrs : ∀ r ∈ rs, ¬r.Renews)
    (h : d.Informed past listeners.length false) :
    (Request.nextAll (announce again inner listeners) d rs).Informed past listeners.length
      false := by
  induction rs generalizing d with
  | nil => exact h
  | cons r rs ih =>
    rw [List.forall_mem_cons] at hrs
    exact ih hrs.2 (informed_next again inner listeners hrs.1 h)

/-- Whatever the past of the present run is, there is one. -/
theorem exists_informed_nextAll (rs : List Request)
    (h : d.Informed past listeners.length false) :
    ∃ past', (Request.nextAll (announce again inner listeners) d rs).Informed past'
      listeners.length false := by
  induction rs generalizing d past with
  | nil => exact ⟨past, h⟩
  | cons r rs ih =>
    by_cases hr : r.Renews
    · obtain ⟨a, input, hrenewed⟩ :=
        Request.next_of_renews hr (announce again inner listeners) d
      rw [Request.nextAll_cons, hrenewed]
      exact ih (h.loaded a input)
    · exact ih (informed_next again inner listeners hr h)

end Hall

open Hall Request in
/-- Whatever is called, and however the listeners confirm steps : between two calls each listener has
received the history of the present run, in order, after what it had received before the run. The
loop that makes all steps at once was never entered while listeners were told of an event, and is
not active. -/
theorem received_of_requests {τ : Type} {a : Automaton} {w : Text} {delay : Int} {manualAck : Bool}
    {maxSteps : Option Int} {agenda : Option Agenda} {owner : Nat} {notes : τ}
    {d₀ : Desk (Hall τ)} (again : Notify (Hall τ)) (inner : Nat)
    (listeners : List (Event → Reaction τ))
    (hd : Desk.start a w delay manualAck maxSteps agenda owner ⟨fun _ => [], 0, notes⟩ = .ok d₀) :
    let after := nextAll (announce again inner listeners) d₀
    (∀ rs, (after rs).outside.entries = 0 ∧ (after rs).engine.draining = false) ∧
    (∀ rs, (∀ r ∈ rs, ¬r.Renews) → ∀ i < listeners.length,
      (after rs).outside.received i = (after rs).engine.history.toList) ∧
    (∀ rs r rs', r.Renews → (∀ r' ∈ rs', ¬r'.Renews) → ∀ i < listeners.length,
      (after (rs ++ r :: rs')).outside.received i =
        (after rs).outside.received i ++ (after (rs ++ r :: rs')).engine.history.toList) := by
  intro after
  have h₀ : d₀.Informed (fun _ => []) listeners.length false := by
    obtain ⟨-, rfl⟩ := Desk.start_ok hd
    exact ⟨fun _ _ => rfl, rfl, rfl, fun _ => rfl⟩
  refine ⟨fun rs => ?_, fun rs hrs i hi => ?_, fun rs r rs' hr hrs' i hi => ?_⟩
  · obtain ⟨past, h⟩ := exists_informed_nextAll again inner listeners rs h₀
    exact ⟨h.entries, h.draining⟩
  · exact (informed_nextAll again inner listeners hrs h₀).received i hi
  · obtain ⟨past, h⟩ := exists_informed_nextAll again inner listeners rs h₀
    obtain ⟨b, input, hrenewed⟩ := next_of_renews hr (announce again inner listeners) (after rs)
    have hafter : after (rs ++ r :: rs') =
        nextAll (announce again inner listeners) ((after rs).loaded b input) rs' := by
      rw [← hrenewed]
      exact nextAll_append _ _ _ _
    rw [hafter]
    exact (informed_nextAll again inner listeners hrs' (h.loaded b input)).received i hi

open Hall Request in
/-- The first listener confirms each step before the second one hears of it; the run without timers
goes to its end at once, and another step is made after a reset. -/
theorem received_of_requests_evenA :
    let again : Notify (Hall Unit) := fun _ => throw .exhausted
    let listeners : List (Event → Reaction Unit) := [fun _ => .confirm true .done, fun _ => .done]
    ∃ d₀, Desk.start Catalog.evenA.automaton "ab" 200 true none none 0 ⟨fun _ => [], 0, ()⟩ =
      .ok d₀ ∧
    let after := nextAll (announce again 0 listeners) d₀
    (after [.run 9]).engine.history.size = 3 ∧
      (after [.run 9]).outside.received 1 = (after [.run 9]).engine.history.toList ∧
      (after [.run 9, .reset none, .step]).outside.received 1 =
        (after [.run 9]).outside.received 1 ++
          (after [.run 9, .reset none, .step]).engine.history.toList := by
  intro again listeners
  obtain ⟨d₀, hd⟩ : ∃ d₀ : Desk (Hall Unit), Desk.start Catalog.evenA.automaton "ab" 200 true none
      none 0 ⟨fun _ => [], 0, ()⟩ = .ok d₀ := ⟨_, rfl⟩
  refine ⟨d₀, hd, ?_⟩
  intro after
  obtain ⟨-, hfirst, hrenewed⟩ := received_of_requests again 0 listeners hd
  have hrun : ∀ r ∈ [Request.run 9], ¬r.Renews := by simp [Renews]
  have hstep : ∀ r ∈ [Request.step], ¬r.Renews := by simp [Renews]
  refine ⟨?_, hfirst [.run 9] hrun 1 (by decide),
    hrenewed [.run 9] (.reset none) [.step] trivial hstep 1 (by decide)⟩
  cases hd
  decide +kernel

end AutomatonLab
