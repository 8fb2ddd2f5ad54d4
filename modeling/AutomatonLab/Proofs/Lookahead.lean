import AutomatonLab.Catalog
import AutomatonLab.Proofs.Finish
import AutomatonLab.Proofs.OneWayTape
import AutomatonLab.Proofs.Verdict

/-!
# Runs over an input do not look ahead

A finite or a pushdown automaton sees of its input the symbol at the cursor and no more. So while
such a symbol is left, a step is the same on any input that goes on (`Step.extended`); and a
computation is the same as long as nothing has been decided at the end of the input
(`Computation.extended`). The end is seen in the last decision at most : the events that were
decided before it (`Event.isWithin`) are the first ones on every input that goes on
(`Computation.isWithin_prefix`).

`decided_without_lookahead` says so of engines, decision by decision, and of whole runs.
-/

namespace AutomatonLab

variable {a : Automaton} {c c' : Configuration} {t : Option Transition} {s s' : Status}
  {u v symbol : Text} {g : Nat} {es es' : List Event}

/-! ## Steps before the end of the input -/

namespace Configuration

/-- The configuration on an input that goes on with `v`. -/
def extended (c : Configuration) (v : Text) : Configuration := { c with input := c.input ++ v }

/-- A symbol that is there is the same on a longer input. -/
theorem next?_extended (h : c.next? = some symbol) (v : Text) :
    (c.extended v).next? = some symbol := by
  obtain ⟨x, hx, hsymbol⟩ := Option.map_eq_some_iff.1 h
  obtain ⟨hlt, -⟩ := List.getElem?_eq_some_iff.1 hx
  rw [next?, extended, List.getElem?_append_left hlt, hx, Option.map_some, hsymbol]

/-- A run on a longer input starts alike, since it sees the end of its input only when it comes to
it. -/
theorem extended_start (hf : a.formalism ≠ .tm) (u v : Text) :
    (start a u).extended v = start a (u ++ v) := by
  simp only [start, extended, if_neg hf]

theorem next?_isSome_iff (hc : 0 ≤ c.cursor) :
    c.next?.isSome = true ↔ c.cursor < c.input.length := by
  rw [← not_iff_not, Bool.not_eq_true, Option.isSome_eq_false_iff, Option.isNone_iff_eq_none,
    next?_eq_none_iff hc, Int.not_lt]

end Configuration

/-- A transition is taken before the end of the input. -/
theorem Step.next?_isSome {x : Transition} (hf : a.formalism ≠ .tm)
    (h : Step a c (some x) c' s) : c.next?.isSome = true := by
  cases h with
  | readFa _ hn => rw [hn]; rfl
  | readPda _ hn => rw [hn]; rfl
  | readTm htm => exact absurd htm hf

/-- A step before the end of the input is the same on every input that goes on. -/
theorem Step.extended (hf : a.formalism ≠ .tm) (h : Step a c t c' s)
    (hc : c.next?.isSome = true) (v : Text) : Step a (c.extended v) t (c'.extended v) s := by
  -- what is eligible for a symbol depends on the state and the stack, and not on the input
  cases h with
  | endOfInput _ hn =>
    rw [hn] at hc
    cases hc
  | blocked _ hn hu => exact .blocked hf (Configuration.next?_extended hn v) hu
  | readFa hfa hn hu hl => exact .readFa hfa (Configuration.next?_extended hn v) hu hl
  | readPda hpda hn hu hl hp => exact .readPda hpda (Configuration.next?_extended hn v) hu hl hp
  | final htm => exact absurd htm hf
  | stuck htm => exact absurd htm hf
  | readTm htm => exact absurd htm hf

/-! ## Computations before the end of the input -/

/-- The event was decided before the end of the input `u` : it takes a transition, or it stands
where there is a symbol left to read. -/
def Event.isWithin (u : Text) (ev : Event) : Bool :=
  ev.transition.isSome || decide (ev.snapshot.cursor < u.length)

namespace Computation

/-- A computation of which nothing was decided at the end of the input is the same on every input
that goes on. -/
theorem extended (hf : a.formalism ≠ .tm) (h : Computation a u g es c s)
    (hin : s.isTerminal = false ∨ c.cursor < u.length) (v : Text) :
    Computation a (u ++ v) g es (c.extended v) s := by
  -- all steps but the last one have taken a transition, so they were before the end anyway
  induction h with
  | start =>
    rw [Configuration.extended_start hf]
    exact .start
  | @step es c c' s s' t h₀ hs hstep ih =>
    have hnext : c.next?.isSome = true := by
      rcases hstep.status_cases with ⟨⟨x, rfl⟩, -⟩ | ⟨-, hterminal, rfl⟩
      · exact hstep.next?_isSome hf
      · rw [Configuration.next?_isSome_iff h₀.cursor_nonneg, h₀.input_eq]
        exact hin.resolve_left (by simp [hterminal])
    exact (ih (.inl hs)).step hs (hstep.extended hf hnext v)

/-- A run that has not seen the end of its input has all its events within it. -/
theorem filter_isWithin (h : Computation a u g es c s)
    (hin : s.isTerminal = false ∨ c.cursor < u.length) : es.filter (Event.isWithin u) = es := by
  rw [List.filter_eq_self]
  intro ev hev
  rcases hin with hs | hc
  · simp [Event.isWithin, (h.transitions_of_not_terminal hs ev hev).1]
  · cases hs : s.isTerminal with
    | false => simp [Event.isWithin, (h.transitions_of_not_terminal hs ev hev).1]
    | true =>
      obtain ⟨init, s₀, rfl, h₀, hs₀⟩ := h.last_of_terminal hs
      rcases List.mem_append.1 hev with hev | hev
      · simp [Event.isWithin, (h₀.transitions_of_not_terminal hs₀ ev hev).1]
      · rw [List.mem_singleton.1 hev]
        exact decide_eq_true hc

/-- Of two computations on one input, the shorter one is the beginning of the other. -/
theorem prefix_of_length_le (ha : a.Typed) (h : Computation a u g es c s)
    (h' : Computation a u g es' c' s') (hle : es.length ≤ es'.length) : es <+: es' := by
  rcases Nat.lt_or_eq_of_le hle with hlt | heq
  · rw [(h.eq_take ha h' hlt).1]
    exact List.take_prefix _ _
  · exact (h.unique ha h' heq).1 ▸ List.prefix_refl es

/-- The events that were decided before the end of the input are the first ones on every input that
goes on. -/
theorem isWithin_prefix (ha : a.Typed) (hf : a.formalism ≠ .tm) (h : Computation a u g es c s)
    (h' : Computation a (u ++ v) g es' c' s')
    (hends : es.length ≤ es'.length ∨ s'.isTerminal = true) :
    es.filter (Event.isWithin u) <+: es' := by
  have hmeets {es₁ c₁ s₁} (h₁ : Computation a (u ++ v) g es₁ c₁ s₁)
      (hle : es₁.length ≤ es.length) : es₁ <+: es' :=
    h₁.prefix_of_length_le ha h' (hends.elim (Nat.le_trans hle) fun hs' =>
      h'.length_le_of_terminal ha hs' h₁)
  by_cases hin : s.isTerminal = false ∨ c.cursor < u.length
  · rw [h.filter_isWithin hin]
    exact hmeets (h.extended hf hin v) (Nat.le_refl _)
  · obtain ⟨hs, hc⟩ := not_or.1 hin
    obtain ⟨init, s₀, rfl, h₀, hs₀⟩ := h.last_of_terminal (Bool.not_eq_false _ ▸ hs)
    have hlast : Event.isWithin u ⟨none, c.snapshot, s, g⟩ = false :=
      decide_eq_false hc
    rw [List.filter_append, h₀.filter_isWithin (.inl hs₀), List.filter_singleton, hlast]
    simpa using hmeets (h₀.extended hf (.inl hs₀) v) (by simp)

end Computation

/-! ## Engines after some decisions -/

section Decisions

open Control

variable {σ : Type} {d e : Desk σ} {w : Text} {n : Nat}

/-- The engine has made `n` decisions of a run of `a` on `w`, or has ended it before. -/
structure Desk.Decided (a : Automaton) (w : Text) (n : Nat) (d : Desk σ) : Prop where
  records : d.engine.Records d.engine.status
  automaton : d.engine.automaton = a
  input : d.engine.input = w
  generation : d.engine.generation = 1
  length_le : d.engine.history.toList.length ≤ n
  length_eq : d.engine.status.isTerminal = false → d.engine.history.toList.length = n

namespace Desk.Decided

/-- The history of the decisions is the computation. -/
theorem computation (h : d.Decided a w n) :
    Computation a w 1 d.engine.history.toList d.engine.config d.engine.status := by
  have hcomputation := h.records.computation
  rwa [h.automaton, h.input, h.generation] at hcomputation

/-- One more decision can always be made. -/
theorem exists_decide (h : d.Decided a w n) :
    ∃ ev d', d.decide = (.ok ev, d') ∧ d'.Decided a w (n + 1) := by
  cases hs : d.engine.status.isTerminal with
  | true =>
    exact ⟨_, d, Desk.decide_of_terminal hs, h.records, h.automaton, h.input, h.generation,
      Nat.le_succ_of_le h.length_le, fun hs' => absurd hs (by simp [hs'])⟩
  | false =>
    obtain ⟨t, c', s', log, hstep, hdecide⟩ := Desk.exists_decide h.records hs
    have hlength : (d.engine.moved t c' s').history.toList.length = n + 1 := by
      simpa [Engine.moved] using h.length_eq hs
    exact ⟨_, _, hdecide, h.records.moved hs hstep, h.automaton, hstep.input_eq.trans h.input,
      h.generation, Nat.le_of_eq hlength, fun _ => hlength⟩

/-- Any number of decisions can be made, one after the other. -/
theorem exists_decisions (h : d.Decided a w 0) (n : Nat) :
    ∃ evs d', exec (decisions n) d = (.ok evs, d') ∧ d'.Decided a w n := by
  induction n with
  | zero => exact ⟨[], d, rfl, h⟩
  | succ n ih =>
    obtain ⟨evs, d₁, hfirst, hd₁⟩ := ih
    obtain ⟨ev, d₂, hlast, hd₂⟩ := hd₁.exists_decide
    exact ⟨_, d₂, exec_decisions_succ hfirst hlast, hd₂⟩

/-- Before the end of the input the next event is the same on an input that goes on. -/
theorem decide_eq (ha : a.Typed) (hf : a.formalism ≠ .tm) (hd : d.Decided a u n)
    (he : e.Decided a (u ++ v) n) (hs : d.engine.status.isTerminal = false)
    (hc : d.engine.config.cursor < u.length) :
    ∃ ev d' e', d.decide = (.ok ev, d') ∧ e.decide = (.ok ev, e') := by
  have hextended := hd.computation.extended hf (.inl hs) v
  have hlength := hd.length_eq hs
  have hlength' : e.engine.history.toList.length = n := by
    cases hs' : e.engine.status.isTerminal with
    | false => exact he.length_eq hs'
    | true =>
      have hle := he.computation.length_le_of_terminal ha hs' hextended
      have hge := he.length_le
      omega
  obtain ⟨-, hconfig, hstatus⟩ :=
    hextended.unique ha he.computation (hlength.trans hlength'.symm)
  obtain ⟨t, c', s', log, hstep, hdecide⟩ := Desk.exists_decide hd.records hs
  obtain ⟨t', c'', s'', log', hstep', hdecide'⟩ :=
    Desk.exists_decide he.records (hstatus ▸ hs)
  have hnext : d.engine.config.next?.isSome = true := by
    rwa [Configuration.next?_isSome_iff hd.computation.cursor_nonneg, hd.computation.input_eq]
  rw [hd.automaton] at hstep
  rw [he.automaton, ← hconfig] at hstep'
  obtain ⟨rfl, rfl, rfl⟩ :=
    (hstep.extended hf hnext v).unique ha hextended.cursor_nonneg hstep'
  rw [hd.generation] at hdecide
  rw [he.generation] at hdecide'
  exact ⟨_, _, _, hdecide, hdecide'⟩

end Desk.Decided

/-- A new engine has decided nothing. -/
theorem Desk.decided_new (ha : a.Typed) (w : Text) (delay : Int) (manualAck : Bool)
    (maxSteps : Option Int) (agenda : Option Agenda) (owner : Nat) (outside : σ) :
    (Desk.new a w delay manualAck maxSteps agenda owner outside).Decided a w 0 :=
  ⟨Engine.records_start ha rfl rfl rfl rfl, rfl, rfl, rfl, Nat.le_refl 0, fun _ => rfl⟩

/-- A finite or a pushdown automaton does not look ahead. Two engines run it on `u` and on `u ++ v`.
After any number of decisions, if the first one has not halted and its cursor is before the end of
`u`, they decide the same next event; and but for one that was decided at the end of `u`, the events
of the first one are the first events of the second one. So a run that rejects before the end of `u`
does the same on `u ++ v`, and of two whole runs the second one begins with the events of the first
one that were decided before the end of `u`. -/
theorem decided_without_lookahead (ha : a.Typed) (hv : a.validate = .ok ())
    (hf : a.formalism ≠ .tm) (u v : Text) (delay : Int) (manualAck : Bool) (maxSteps : Option Int)
    (agenda : Option Agenda) (owner : Nat) (outside : σ) :
    (∃ d e, Desk.start a u delay manualAck maxSteps agenda owner outside = .ok d ∧
      Desk.start a (u ++ v) delay manualAck maxSteps agenda owner outside = .ok e ∧
      ∀ n, ∃ evs d₁ evs' e₁, exec (decisions n) d = (.ok evs, d₁) ∧
        exec (decisions n) e = (.ok evs', e₁) ∧
        (d₁.engine.status.isTerminal = false → d₁.engine.config.cursor < u.length →
          ∃ ev d₂ e₂, d₁.decide = (.ok ev, d₂) ∧ e₁.decide = (.ok ev, e₂)) ∧
        d₁.engine.history.toList.filter (Event.isWithin u) <+: e₁.engine.history.toList) ∧
    (∀ allowance limit es (last : Event),
      (Run.history allowance a u limit).result = .ok (es ++ [last], .rejected) →
      last.snapshot.cursor < u.length →
      (Run.history allowance a (u ++ v) limit).result = .ok (es ++ [last], .rejected)) ∧
    ∀ allowance allowance' es s es' s',
      (Run.history allowance a u none).result = .ok (es, s) →
      (Run.history allowance' a (u ++ v) none).result = .ok (es', s') →
      es.filter (Event.isWithin u) <+: es' := by
  refine ⟨⟨_, _, Desk.start_of_valid hv u delay manualAck maxSteps agenda owner outside,
    Desk.start_of_valid hv (u ++ v) delay manualAck maxSteps agenda owner outside, fun n => ?_⟩,
    fun allowance limit es last h hlast => ?_, fun allowance allowance' es s es' s' h h' => ?_⟩
  · obtain ⟨evs, d₁, hd, hd₁⟩ := (Desk.decided_new ha u delay manualAck maxSteps agenda owner
      outside).exists_decisions n
    obtain ⟨evs', e₁, he, he₁⟩ := (Desk.decided_new ha (u ++ v) delay manualAck maxSteps agenda
      owner outside).exists_decisions n
    refine ⟨evs, d₁, evs', e₁, hd, he, fun hs hc => hd₁.decide_eq ha hf he₁ hs hc,
      hd₁.computation.isWithin_prefix ha hf he₁.computation ?_⟩
    cases hs : e₁.engine.status.isTerminal with
    | false => exact .inl ((he₁.length_eq hs).symm ▸ hd₁.length_le)
    | true => exact .inr rfl
  · refine history_of_same_end ha hv ha hv (fun {c} hcapped => ?_) h
    cases hcapped with
    | halted hes hterminal hlimit =>
      have hlast' : c.cursor < u.length := by
        obtain ⟨init, -, hinit, -, -⟩ := hes.last_of_terminal hterminal
        obtain ⟨-, heq⟩ := List.append_inj' hinit rfl
        rwa [List.singleton_inj.1 heq] at hlast
      exact ⟨_, .halted (hes.extended hf (.inr hlast') v) hterminal hlimit⟩
  · obtain ⟨⟨c, hes⟩, -, -⟩ := (history_eq_ok_iff ha hv).1 h
    obtain ⟨⟨c', hes'⟩, hterminal, -⟩ := (history_eq_ok_iff ha hv).1 h'
    exact hes.isWithin_prefix ha hf hes' (.inr hterminal)

/-- The word `aaba` is rejected before its last letter, whatever follows. The event that accepts
`ab` is decided at the end, so it does not come first on `aba`. -/
theorem decided_without_lookahead_anbn :
    Catalog.anbn.automaton.Typed ∧ Catalog.anbn.automaton.validate = .ok () ∧
    Catalog.anbn.automaton.formalism ≠ .tm ∧
    (∃ es, ∃ last : Event, last.snapshot.cursor < ("aaba" : Text).length ∧
      (Run.history 5 Catalog.anbn.automaton "aaba" none).result =
        .ok (es ++ [last], .rejected) ∧
      ∀ v : Text, (Run.history 5 Catalog.anbn.automaton ("aaba" ++ v) none).result =
        .ok (es ++ [last], .rejected)) ∧
    ∃ es es', (Run.history 5 Catalog.anbn.automaton "ab" none).result = .ok (es, .accepted) ∧
      (Run.history 5 Catalog.anbn.automaton ("ab" ++ "a") none).result = .ok (es', .rejected) ∧
      es.filter (Event.isWithin "ab") <+: es' ∧ es.length = 3 ∧
      (es.filter (Event.isWithin "ab")).length = 2 := by
  have ha : Catalog.anbn.automaton.Typed := by decide
  have hv : Catalog.anbn.automaton.validate = .ok () := rfl
  have hf : Catalog.anbn.automaton.formalism ≠ .tm := by decide
  refine ⟨ha, hv, hf, ?_, _, _, rfl, rfl, ?_, rfl, by decide⟩
  · obtain ⟨es, last, hrun, hlast⟩ : ∃ es, ∃ last : Event,
        (Run.history 5 Catalog.anbn.automaton "aaba" none).result = .ok (es ++ [last], .rejected) ∧
          last.snapshot.cursor < ("aaba" : Text).length :=
      ⟨[_, _, _], _, rfl, by decide⟩
    refine ⟨es, last, hlast, hrun, fun v => ?_⟩
    obtain ⟨-, hrejects, -⟩ :=
      decided_without_lookahead ha hv hf "aaba" v 200 false none none 0 ()
    exact hrejects 5 none es last hrun hlast
  · obtain ⟨-, -, hprefix⟩ :=
      decided_without_lookahead ha hv hf "ab" "a" 200 false none none 0 ()
    exact hprefix 5 5 _ _ _ _ rfl rfl

end Decisions

end AutomatonLab
