import AutomatonLab.Proofs.Record

/-!
# Engines that differ in their numbers only

An engine numbers its runs, and its agenda numbers the timers; both count on for ever. An `Origin`
says where the counting stood at some time. A desk is a copy of another one, seen from an origin, if
it differs from that by the numbers given before, and perhaps in its log (`Desk.Copies`). An engine
never does anything with its numbers but compare them, so every call on the copy has the result of
the same call on the other desk, in the numbers of the origin, and leaves a copy of what that leaves
(`Control.Alike`).
-/

namespace AutomatonLab

/-- The numbers that were given before : to runs and to timers; and the time that has passed, with
the delays that were asked for. -/
structure Origin where
  generation : Nat
  handle : Nat
  clock : Int
  delays : List Int

namespace Origin

/-- Nothing was before. -/
def zero : Origin := ⟨0, 0, 0, []⟩

variable (o : Origin)

/-- The event with its run counted from the offset. -/
def event (ev : Event) : Event :=
  { ev with generation := o.generation + ev.generation }

/-- A continuation follows the run that is counted from the offset. -/
def task : Task → Task
  | .resume generation => .resume (o.generation + generation)
  | .settle generation => .settle (o.generation + generation)

/-- The generation that is given with a confirmation, if one is. -/
def stated (generation : Option Int) : Option Int :=
  generation.map fun n => (o.generation : Int) + n

/-- The job with its number and its time counted from the offset. -/
def job (j : Job) : Job :=
  { j with handle := o.handle + j.handle, due := o.clock + j.due, task := o.task j.task }

/-- The timers with their numbers and times counted from the offset, after the delays asked for
before. -/
def agenda (g : Agenda) : Agenda where
  cancels := g.cancels
  clock := o.clock + g.clock
  issued := o.handle + g.issued
  jobs := g.jobs.map o.job
  delays := o.delays ++ g.delays

/-- The engine with its run and its timer counted from the offset. -/
def engine (e : Engine) : Engine :=
  { e with
    pending := e.pending.map (o.handle + ·)
    generation := o.generation + e.generation
    history := e.history.map o.event }

/-- The copy of a desk that is seen from the origin, with a log of its own. -/
def desk {σ : Type} (e : Desk σ) (log : List LogEntry) : Desk σ where
  engine := o.engine e.engine
  agenda := e.agenda.map o.agenda
  owner := e.owner
  log := log
  outside := e.outside

/-! ## Timers -/

variable {o}

/-- A timer asked for gets the next number on both sides. -/
theorem add_agenda (g : Agenda) (delay : Int) (owner : Nat) (t : Task) :
    (o.agenda g).add delay owner (o.task t) = o.agenda (g.add delay owner t) := by
  simp [Agenda.add, agenda, job, Nat.add_assoc, Int.add_assoc]

/-- Two jobs have the same number exactly if their copies do. -/
theorem handle_beq (j : Job) (handle : Nat) :
    ((o.job j).handle == o.handle + handle) = (j.handle == handle) := by
  rw [Bool.eq_iff_iff, beq_iff_eq, beq_iff_eq]
  exact Nat.add_left_cancel_iff

/-- A job is taken from a copy under its number there. -/
theorem remove_agenda (g : Agenda) (handle : Nat) :
    (o.agenda g).remove (o.handle + handle) = o.agenda (g.remove handle) := by
  simp only [Agenda.remove, agenda, List.filter_map, Function.comp_def, bne, handle_beq]

theorem cancel_agenda (g : Agenda) (handle : Nat) :
    (o.agenda g).cancel (o.handle + handle) = o.agenda (g.cancel handle) := by
  unfold Agenda.cancel
  rw [remove_agenda]
  exact (apply_ite o.agenda _ _ _).symm

theorem elapse_agenda (g : Agenda) (j : Job) :
    (o.agenda g).elapse (o.job j) = o.agenda (g.elapse j) := by
  have hclock : max (o.clock + g.clock) (o.clock + j.due) = o.clock + max g.clock j.due := by
    omega
  show { (o.agenda g).remove (o.handle + j.handle) with
    clock := max (o.clock + g.clock) (o.clock + j.due) } = _
  rw [remove_agenda, hclock]
  rfl

/-- The oldest timer, or the one with the given handle, is that of the copy. -/
theorem find_agenda (g : Agenda) (handle : Option Nat) :
    (handle.map (o.handle + ·)).elim (o.agenda g).oldest? (o.agenda g).job? =
      (handle.elim g.oldest? g.job?).map o.job := by
  cases handle with
  | none => exact List.head?_map
  | some handle =>
    simp only [Option.map_some, Option.elim_some, Agenda.job?, agenda, List.find?_map,
      Function.comp_def, handle_beq]

/-! ## Engines -/

theorem engine_restarted (e : Engine) (input : Option Text) :
    (o.engine e).restarted input = o.engine (e.restarted input) := by
  simp [engine, Engine.restarted, Engine.input, Nat.add_assoc]

theorem engine_moved (e : Engine) (t : Option Transition) (c : Configuration) (s : Status) :
    (o.engine e).moved t c s = o.engine (e.moved t c s) := by
  simp only [engine, Engine.moved, Array.map_push]
  rfl

/-- A confirmation is of another run whenever it is so for the copy. -/
theorem filter_stated (e : Engine) (generation : Option Int) :
    (o.stated generation).filter (· ≠ ((o.engine e).generation : Int)) =
      o.stated (generation.filter (· ≠ (e.generation : Int))) := by
  cases generation with
  | none => rfl
  | some n =>
    have hsame : ((o.generation : Int) + n ≠ ((o.generation + e.generation : Nat) : Int)) =
        (n ≠ (e.generation : Int)) := by
      rw [Int.natCast_add]
      exact propext (not_congr (by omega))
    simp only [stated, engine, Option.map_some, Option.filter_some, hsame]
    split <;> rfl

end Origin

/-! ## Changes of a desk -/

namespace Desk

variable {σ : Type} {o : Origin} {d d' e e' : Desk σ}

/-- Seen from the origin, the desk `d` is that of `e`, except for its log. -/
def Copies (o : Origin) (d e : Desk σ) : Prop :=
  ∃ log, d = o.desk e log

/-- The copy does what the other desk does, since no condition depends on the numbers. -/
theorem copies_ite {c : Prop} [Decidable c] (h : Copies o d e) (h' : Copies o d' e') :
    Copies o (if c then d else d') (if c then e else e') := by
  split
  · exact h
  · exact h'

theorem copies_note (h : Copies o d e) (entries entries' : List LogEntry) :
    Copies o (d.note entries) (e.note entries') := by
  obtain ⟨log, rfl⟩ := h
  exact ⟨_, rfl⟩

/-- Both sides give up the same timer. -/
theorem copies_cancelPending (h : Copies o d e) : Copies o d.cancelPending e.cancelPending := by
  obtain ⟨log, rfl⟩ := h
  refine ⟨log, ?_⟩
  cases hp : e.engine.pending with
  | none => simp [cancelPending, Origin.desk, Origin.engine, hp]
  | some handle =>
    simp [cancelPending, Origin.desk, Origin.engine, hp, Function.comp_def, Origin.cancel_agenda]

/-- A pause keeps the copy. -/
theorem copies_pause (h : Copies o d e) : Copies o d.pause e.pause := by
  obtain ⟨log, rfl⟩ := h
  exact copies_cancelPending ⟨log, rfl⟩

/-- A new run begins on both sides, one number further. -/
theorem copies_reset (h : Copies o d e) (input : Option Text) :
    Copies o (d.reset input) (e.reset input) := by
  obtain ⟨log, hlog⟩ := copies_cancelPending h
  refine copies_note ⟨log, ?_⟩ _ _
  rw [hlog]
  show { o.desk e.cancelPending log with
    engine := (o.engine e.cancelPending.engine).restarted input } = _
  rw [Origin.engine_restarted]
  rfl

/-- A loaded automaton keeps the copy. -/
theorem copies_loaded (h : Copies o d e) (a : Automaton) (input : Option Text) :
    Copies o (d.loaded a input) (e.loaded a input) := by
  obtain ⟨log, rfl⟩ := h
  exact copies_reset (e := { e with engine := { e.engine with automaton := a } }) ⟨log, rfl⟩ input

/-- Both sides are at their limit, or none. -/
theorem copies_observeLimit (h : Copies o d e) : Copies o d.observeLimit e.observeLimit := by
  obtain ⟨log, rfl⟩ := h
  exact copies_ite (copies_note (e := { e with engine := { e.engine with running := false } })
    ⟨log, rfl⟩ _ _) ⟨log, rfl⟩

/-- Both sides ask for a timer of the same delay. -/
theorem copies_askTimer (h : Copies o d e) (g : Agenda) :
    Copies o (d.askTimer (o.agenda g)) (e.askTimer g) := by
  obtain ⟨log, rfl⟩ := h
  refine ⟨log, ?_⟩
  show { o.desk e log with
    agenda := some ((o.agenda g).add e.engine.delay e.owner (o.task (.resume e.engine.generation)))
    engine := { o.engine e.engine with pending := some (o.handle + (g.issued + 1)) } } = _
  rw [Origin.add_agenda]
  rfl

/-- The next step is due on both sides, or on none. -/
theorem copies_scheduleNext (h : Copies o d e) : Copies o d.scheduleNext e.scheduleNext := by
  have hagenda : d.agenda = e.agenda.map o.agenda := by
    obtain ⟨log, rfl⟩ := h
    rfl
  have hstop : (d.engine.pending.isSome || !d.engine.running || d.engine.status.isTerminal) =
      (e.engine.pending.isSome || !e.engine.running || e.engine.status.isTerminal) := by
    obtain ⟨log, rfl⟩ := h
    simp [Origin.desk, Origin.engine]
  have hlimit : d.engine.atLimit = e.engine.atLimit := by
    obtain ⟨log, rfl⟩ := h
    rfl
  unfold scheduleNext
  rw [hagenda, hstop, hlimit]
  cases e.agenda with
  | none => exact h
  | some g => exact copies_ite h (copies_ite (copies_observeLimit h) (copies_askTimer h g))

/-- An event and its copy are entered in the histories. -/
theorem copies_launch (h : Copies o d e) (ev : Event) :
    Copies o (d.launch (o.event ev)) (e.launch ev) := by
  obtain ⟨log, rfl⟩ := h
  exact copies_ite (e := { e with engine := { e.engine with inFlight := true } }) ⟨log, rfl⟩
    ⟨log, rfl⟩

/-- Both sides go on, or none. -/
theorem copies_goOn (h : Copies o d e) : Copies o d.goOn e.goOn := by
  have hscheduled := copies_scheduleNext h
  obtain ⟨log, rfl⟩ := h
  exact copies_ite hscheduled ⟨log, rfl⟩

/-- The time of a job comes on both sides. -/
theorem copies_elapsed (h : Copies o d e) (j : Job) :
    Copies o (d.elapsed (o.job j)) (e.elapsed j) := by
  obtain ⟨log, rfl⟩ := h
  refine ⟨log, ?_⟩
  simp [elapsed, Origin.desk, Function.comp_def, Origin.elapse_agenda]

/-- A decision does not depend on the numbers. -/
theorem copies_decide (h : Copies o d e) :
    d.decide.1 = e.decide.1.map o.event ∧ Copies o d.decide.2 e.decide.2 := by
  obtain ⟨log, rfl⟩ := h
  cases hs : e.engine.status.isTerminal with
  | true =>
    rw [decide_of_terminal hs, decide_of_terminal (d := o.desk e log) hs]
    exact ⟨rfl, log, rfl⟩
  | false =>
    cases hdecision : e.engine.config.decision e.engine.automaton with
    | error fault =>
      rw [decide_of_fault hs hdecision, decide_of_fault (d := o.desk e log) hs hdecision]
      exact ⟨rfl, log, rfl⟩
    | ok decision =>
      obtain ⟨_, hmade⟩ := decide_of_decision hs hdecision
      obtain ⟨log', hmade'⟩ := decide_of_decision (d := o.desk e log) hs hdecision
      rw [hmade, hmade']
      refine ⟨rfl, log', ?_⟩
      show { o.desk e log' with
        engine := (o.engine e.engine).moved decision.transition? (decision.after e.engine.config)
          decision.status } = _
      rw [Origin.engine_moved]
      rfl

end Desk

namespace Control

open Desk

variable {σ α β γ δ : Type} {o : Origin} {d e : Desk σ} {f : β → α} {x : Control σ α}
  {y : Control σ β}

/-- On a copy, the first computation has the result of the second one, seen through `f`, and leaves
a copy. -/
def Alike (o : Origin) (f : β → α) (x : Control σ α) (y : Control σ β) : Prop :=
  ∀ d e, Copies o d e → (exec x d).1 = (exec y e).1.map f ∧ Copies o (exec x d).2 (exec y e).2

/-- What is alike leaves a copy and gives results that match. -/
theorem Alike.exec (hx : Alike o f x y) (h : Copies o d e) :
    ∃ r d' e', exec y e = (r, e') ∧ exec x d = (r.map f, d') ∧ Copies o d' e' :=
  ⟨_, _, _, rfl, Prod.ext (hx d e h).1 rfl, (hx d e h).2⟩

theorem alike_pure (f : β → α) (b : β) :
    Alike o f (pure (f b) : Control σ α) (pure b) :=
  fun _ _ h => ⟨rfl, h⟩

theorem alike_throw (f : β → α) (fault : Fault) :
    Alike o f (throw fault : Control σ α) (throw fault) :=
  fun _ _ h => ⟨rfl, h⟩

theorem alike_update {g g' : Desk σ → Desk σ} (h : ∀ d e, Copies o d e → Copies o (g d) (g' e)) :
    Alike o id (update g) (update g') :=
  fun d e hde => ⟨rfl, h d e hde⟩

theorem alike_updateEngine {g : Engine → Engine} (h : ∀ e, g (o.engine e) = o.engine (g e)) :
    Alike o id (updateEngine g : Control σ Unit) (updateEngine g) := by
  rintro d e ⟨log, rfl⟩
  refine ⟨rfl, log, ?_⟩
  show { o.desk e log with engine := g (o.engine e.engine) } = _
  rw [h]
  rfl

theorem alike_engine : Alike o o.engine (engine : Control σ Engine) engine := by
  rintro d e ⟨log, rfl⟩
  exact ⟨rfl, log, rfl⟩

/-- Calls that are alike, one after the other, are alike. -/
theorem alike_bind {g : δ → γ} {k : α → Control σ γ} {l : β → Control σ δ} (hx : Alike o f x y)
    (hk : ∀ b, Alike o g (k (f b)) (l b)) : Alike o g (x >>= k) (y >>= l) := by
  intro d e h
  obtain ⟨r, d', e', hy, hx, hcopies⟩ := hx.exec h
  rw [exec_bind, exec_bind, hy, hx]
  cases r with
  | error fault => exact ⟨rfl, hcopies⟩
  | ok b => exact hk b d' e' hcopies

theorem alike_map {g : δ → γ} {k : α → γ} {l : β → δ} (hx : Alike o f x y)
    (hk : ∀ b, k (f b) = g (l b)) : Alike o g (k <$> x) (l <$> y) := by
  rw [map_eq_pure_bind, map_eq_pure_bind]
  refine alike_bind hx fun b => ?_
  rw [hk]
  exact alike_pure g (l b)

/-- A fault is the same on both sides, and handled by calls that are alike. -/
theorem alike_tryCatch {handle : Fault → Control σ α} {handle' : Fault → Control σ β}
    (hx : Alike o f x y) (hh : ∀ fault, Alike o f (handle fault) (handle' fault)) :
    Alike o f (tryCatch x handle) (tryCatch y handle') := by
  intro d e h
  obtain ⟨r, d', e', hy, hx, hcopies⟩ := hx.exec h
  rw [exec_tryCatch, exec_tryCatch, hy, hx]
  cases r with
  | error fault => exact hh fault d' e' hcopies
  | ok b => exact ⟨rfl, hcopies⟩

/-- No condition depends on the numbers. -/
theorem alike_ite {c : Prop} [Decidable c] {x' : Control σ α} {y' : Control σ β}
    (h : Alike o f x y) (h' : Alike o f x' y') :
    Alike o f (if c then x else x') (if c then y else y') := by
  split
  · exact h
  · exact h'

/-- Engines without timers have copies without timers. -/
theorem alike_untimed {x' : Control σ α} {y' : Control σ β} (h : Alike o f x y)
    (h' : Alike o f x' y') :
    Alike o f (get >>= fun d => if d.agenda.isNone then x else x')
      (get >>= fun e => if e.agenda.isNone then y else y') := by
  rintro d e ⟨log, rfl⟩
  have hnone : (o.desk e log).agenda.isNone = e.agenda.isNone := Option.isNone_map
  rw [exec_bind, exec_bind, exec_get, exec_get]
  simp only [hnone]
  exact alike_ite h h' _ _ ⟨log, rfl⟩

/-! ## Every call -/

variable {notify notify' : Notify σ}

/-- The listeners do the same when they are told of the same event. -/
def AlikeTold (o : Origin) (notify notify' : Notify σ) : Prop :=
  ∀ ev, Alike o id (notify (o.event ev)) (notify' ev)

/-- Both sides decide on the same transition. -/
theorem alike_decide : Alike o o.event (decide : Control σ Event) decide :=
  fun _ _ h => copies_decide h

/-- A step is alike if the listeners are. -/
theorem alike_advance (hn : AlikeTold o notify notify') :
    Alike o o.event (advance notify) (advance notify') :=
  alike_bind alike_decide fun ev =>
    alike_bind (alike_update fun _ _ h => copies_launch h ev) fun _ =>
      alike_bind (hn ev) fun _ =>
        alike_bind (alike_update fun _ _ => copies_goOn) fun _ => alike_pure o.event ev

/-- The loop makes the same number of rounds on both sides. -/
theorem alike_drainLoop (hn : AlikeTold o notify notify') :
    ∀ allowance, Alike o id (drainLoop notify allowance) (drainLoop notify' allowance)
  | 0 => alike_throw id .exhausted
  | allowance + 1 =>
    alike_bind alike_engine fun _ =>
      alike_ite
        (alike_ite (alike_update fun _ _ => copies_observeLimit)
          (alike_bind (alike_advance hn) fun _ => alike_drainLoop hn allowance))
        (alike_pure id ())

theorem alike_drain (hn : AlikeTold o notify notify') (allowance : Nat) :
    Alike o id (drain notify allowance) (drain notify' allowance) := by
  rintro d e ⟨log, rfl⟩
  obtain ⟨hresult, log', hdesk⟩ :=
    alike_drainLoop hn allowance ((o.desk e log).drains true) (e.drains true) ⟨log, rfl⟩
  rw [exec_drain, exec_drain]
  refine ⟨hresult, log', ?_⟩
  rw [hdesk]
  rfl

/-- A step by hand is alike. -/
theorem alike_step (hn : AlikeTold o notify notify') :
    Alike o (Option.map o.event) (step notify) (step notify') :=
  alike_bind alike_engine fun _ =>
    alike_ite
      (alike_bind (alike_update fun _ _ h => copies_note h _ _) fun _ => alike_pure _ none)
      (alike_ite (alike_pure _ none)
        (alike_bind (alike_update fun _ _ => copies_pause) fun _ =>
          alike_map (alike_advance hn) fun _ => rfl))

theorem alike_pause : Alike o id (pause : Control σ Unit) pause :=
  alike_update fun _ _ => copies_pause

theorem alike_reset (input : Option Text) :
    Alike o id (reset input : Control σ Unit) (reset input) :=
  alike_update fun _ _ h => copies_reset h input

/-- An automatic run is alike. -/
theorem alike_run (hn : AlikeTold o notify notify') (allowance : Nat) :
    Alike o id (run notify allowance) (run notify' allowance) :=
  alike_bind alike_engine fun _ =>
    alike_ite (alike_pure id false)
      (alike_ite
        (alike_bind (alike_update fun _ _ => copies_observeLimit) fun _ => alike_pure id false)
        (alike_bind (alike_updateEngine fun _ => rfl) fun _ =>
          alike_bind (alike_update fun _ _ h => copies_note h _ _) fun _ =>
            alike_untimed
              (alike_bind (alike_drain hn allowance) fun _ => alike_pure id true)
              (alike_bind (alike_advance hn) fun _ => alike_pure id true)))

/-- The generation that is given with a confirmation is one of the copy. -/
theorem alike_acknowledge (hn : AlikeTold o notify notify') (allowance : Nat)
    (generation : Option Int) :
    Alike o id (acknowledge notify allowance (o.stated generation))
      (acknowledge notify' allowance generation) := by
  refine alike_bind alike_engine fun e => alike_ite (alike_pure id ()) ?_
  rw [Origin.filter_stated]
  cases generation.filter (· ≠ (e.generation : Int)) with
  | some other => exact alike_update fun _ _ h => copies_note h _ _
  | none =>
    exact alike_bind (alike_updateEngine fun _ => rfl) fun _ =>
      alike_ite (alike_pure id ())
        (alike_untimed (alike_drain hn allowance) (alike_update fun _ _ => copies_scheduleNext))

/-- An automaton is refused on both sides, or on none. -/
theorem alike_load (a : Automaton) (input : Option Text) :
    Alike o id (load a input : Control σ Unit) (load a input) := by
  intro d e h
  rcases ha : a.validate with defect | ⟨⟩
  · rw [exec_load_of_invalid ha, exec_load_of_invalid ha]
    exact ⟨rfl, h⟩
  · rw [exec_load_of_valid ha, exec_load_of_valid ha]
    exact ⟨rfl, copies_loaded h a input⟩

/-- A continuation of a past run is stale on both sides, or on none. -/
theorem alike_resume (hn : AlikeTold o notify notify') (generation : Nat) :
    Alike o id (resume notify (o.generation + generation)) (resume notify' generation) := by
  refine alike_bind (alike_updateEngine fun _ => rfl) fun _ => alike_bind alike_engine fun e => ?_
  have hsame : (o.generation + generation ≠ (o.engine e).generation) =
      (generation ≠ e.generation) :=
    propext (not_congr Nat.add_left_cancel_iff)
  simp only [hsame]
  exact alike_ite (alike_pure id ()) (alike_bind (alike_advance hn) fun _ => alike_pure id ())

/-- A timer whose time has come is alike. -/
theorem alike_due (hn : AlikeTold o notify notify') (j : Job) :
    Alike o id (due notify (o.job j)) (due notify' j) := by
  refine alike_bind (alike_update fun _ _ h => copies_elapsed h j) fun _ => ?_
  rcases j with ⟨_, _, _, generation | generation⟩
  · exact alike_resume hn generation
  · exact alike_pure id ()

/-- The handle that is asked for is one of the copy. -/
theorem alike_fire (hn : AlikeTold o notify notify') (handle : Option Nat) :
    Alike o (Option.map (o.handle + ·)) (fire notify (handle.map (o.handle + ·)))
      (fire notify' handle) := by
  rintro d e ⟨log, rfl⟩
  have hjob : ((o.desk e log).agenda.bind fun g =>
      (handle.map (o.handle + ·)).elim g.oldest? g.job?) =
        (e.agenda.bind fun g => handle.elim g.oldest? g.job?).map o.job := by
    show (e.agenda.map o.agenda).bind _ = _
    rw [Option.bind_map, Option.map_bind]
    exact congrArg _ (funext fun g => Origin.find_agenda g handle)
  rw [exec_fire, exec_fire, hjob]
  cases (e.agenda.bind fun g => handle.elim g.oldest? g.job?) with
  | none => exact ⟨rfl, log, rfl⟩
  | some j =>
    obtain ⟨r, d', e', hdue, hdue', hcopies⟩ :=
      (alike_due hn j).exec (d := o.desk e log) (e := e) ⟨log, rfl⟩
    simp only [Option.map_some, hdue, hdue']
    exact ⟨by cases r <;> rfl, hcopies⟩

end Control

end AutomatonLab
