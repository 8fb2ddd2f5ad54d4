import AutomatonLab.Proofs.Bounds

/-!
# The transitions that apply and the one that is taken

`Configuration.applicable` lists the transitions that apply where a run stands, and a window shows
this list before a step. The decision looks at other things first : a pushdown automaton stops at
the end of the input even where it could go on without reading, and a Turing machine stops in a
final state. In both cases transitions may be listed of which none is taken; everywhere else the
first one of the list is taken, and none only if the list is empty (`Configuration.Foretells`). A
finite automaton at the end of the input has nothing to list.

So the list of a configuration and the decision made there agree (`exists_foretells`), and with them
the list that an engine shows and its next step, however it was driven there
(`foretells_of_play`).
-/

namespace AutomatonLab

/-- What the list `ts` of the applicable transitions says about the transition `t` of the next
decision, if that takes one. -/
structure Configuration.Foretells (a : Automaton) (c : Configuration) (ts : List Transition)
    (t : Option Transition) : Prop where
  none_iff : t = none ↔ ts = [] ∨ a.formalism = .pda ∧ c.atEnd = true ∨
    a.formalism = .tm ∧ c.isFinal a = true
  first : ∀ u, t = some u → ts.head? = some u
  unread : a.formalism = .fa → c.atEnd = true → ts = []

namespace Configuration

open Decision

variable {a : Automaton} {c : Configuration} {ts : List Transition}

/-- No transition of a finite automaton reads the end of the input. -/
theorem applicable_at_end (ha : a.Typed) (hc : 0 ≤ c.cursor) (hf : a.formalism = .fa)
    (hend : c.atEnd = true) : c.applicable a = .ok [] := by
  cases hs : c.state with
  | none => exact applicable_of_state ha hc hs
  | some state =>
    have hv : c.visible? a.formalism = .ok none := by
      rw [atEnd_eq_isNone hc, Option.isNone_iff_eq_none] at hend
      rw [hf, visible?, symbol?_eq_next? hc, hend]
    have hnone : Choice.applicableFa a.transitions state none = [] := by
      refine List.filter_eq_nil_iff.2 fun t _ => ?_
      cases t.label <;> simp
    rw [applicable_of_visible ha hs hv, hf, Choice.applicable?, hnone]
    rfl

/-- The run stops before any transition is asked for. -/
theorem decision_of_completion (ha : a.Typed) (h : isCompletion a c = true) :
    ∃ v, c.decision a = .ok (.halt v) := by
  rcases ha.cases with hf | hf | hf <;> simp only [isCompletion, hf, reduceCtorEq, if_true,
    if_false] at h
  · exact ⟨_, by rw [decision, hf]; simp only [decisionOnInput, h, if_true]; rfl⟩
  · exact ⟨_, by rw [decision, hf]; simp only [decisionOnInput, h, if_true]; rfl⟩
  · exact ⟨_, by rw [decision, hf]; simp only [decisionOnTape, h, if_true]; rfl⟩

/-- Where the run does not stop before, the first transition of the list is taken. -/
theorem decision_of_applicable (ha : a.Typed) (hts : c.applicable a = .ok ts)
    (h : isCompletion a c = false) :
    ∃ decision, c.decision a = .ok decision ∧ decision.transition? = ts.head? := by
  have hchosen : c.chosen? a = .ok ts.head? := by
    rw [chosen?, hts]
    rfl
  rcases ha.cases with hf | hf | hf <;> simp only [isCompletion, hf, reduceCtorEq, if_true,
    if_false] at h
  all_goals
    rw [decision, hf]
    simp only [decisionOnInput, decisionOnTape, h, hchosen, Bool.false_eq_true, if_false]
    cases ts with
    | nil => exact ⟨_, rfl, rfl⟩
    | cons t rest => exact ⟨_, rfl, rfl⟩

/-- The list of a configuration foretells the decision that is made there. -/
theorem exists_foretells (ha : a.Typed) (hc : 0 ≤ c.cursor) :
    ∃ ts decision, c.applicable a = .ok ts ∧ c.decision a = .ok decision ∧
      c.Foretells a ts decision.transition? := by
  obtain ⟨ts, hts⟩ := exists_applicable ha hc
  have hunread : a.formalism = .fa → c.atEnd = true → ts = [] := fun hf hend =>
    Except.ok.inj (hts.symm.trans (applicable_at_end ha hc hf hend))
  cases hcompletion : isCompletion a c with
  | true =>
    obtain ⟨v, hdecision⟩ := decision_of_completion ha hcompletion
    refine ⟨ts, _, hts, hdecision, ⟨fun _ => ?_, fun _ => rfl⟩, nofun, hunread⟩
    rcases ha.cases with hf | hf | hf <;> simp only [isCompletion, hf, reduceCtorEq, if_true,
      if_false] at hcompletion
    · exact Or.inl (hunread hf hcompletion)
    · exact Or.inr (Or.inl ⟨hf, hcompletion⟩)
    · exact Or.inr (Or.inr ⟨hf, hcompletion⟩)
  | false =>
    obtain ⟨decision, hdecision, htaken⟩ := decision_of_applicable ha hts hcompletion
    refine ⟨ts, decision, hts, hdecision, ?_, fun u hu => htaken ▸ hu, hunread⟩
    rw [htaken, List.head?_eq_none_iff]
    refine ⟨Or.inl, ?_⟩
    rintro (hnil | ⟨hf, hend⟩ | ⟨hf, hfinal⟩)
    · exact hnil
    · simp [isCompletion, hf, hend] at hcompletion
    · simp [isCompletion, hf, hfinal] at hcompletion

end Configuration

open Control in
/-- However an engine was driven, as long as its run has not ended : the next decision takes the
first of the transitions that the engine lists as applicable. It takes none exactly if the list is
empty, or at the end of the input of a pushdown automaton, or in a final state of a Turing
machine. -/
theorem foretells_of_play {σ α : Type} {a : Automaton} {w : Text} {delay : Int} {manualAck : Bool}
    {maxSteps : Option Int} {agenda : Option Agenda} {owner : Nat} {outside : σ} {d : Desk σ}
    {raising : Bool} {call : Control σ α} (ha : a.Typed)
    (hd : Desk.start a w delay manualAck maxSteps agenda owner outside = .ok d)
    (hplay : Play raising call) (hs : (exec call d).2.engine.status.isTerminal = false) :
    let d' := (exec call d).2
    let c := d'.engine.config
    ∃ ts ev d'', d'.engine.applicable = .ok ts ∧
      c.chosen? d'.engine.automaton = .ok ts.head? ∧
      exec decide d' = (.ok ev, d'') ∧
      c.Foretells d'.engine.automaton ts ev.transition ∧
      d''.engine.config = ev.transition.elim c c.apply := by
  intro d' c
  have hrecorded := (hplay.keeps d (Desk.recorded_start ha hd)).recorded
  obtain ⟨ts, decision, hts, hdecision, hforetells⟩ := Configuration.exists_foretells
    hrecorded.records.typed hrecorded.records.computation.cursor_nonneg
  obtain ⟨log, hdecide⟩ := Desk.decide_of_decision hs hdecision
  refine ⟨ts, _, _, hts, ?_, hdecide, hforetells, ?_⟩
  · rw [Configuration.chosen?, hts]
    rfl
  · cases decision <;> rfl

open Control in
/-- Where nothing is left to read, the pushdown automaton could still go on without reading; the
transition is listed, and none is taken. -/
theorem foretells_of_play_palindrome :
    let quiet : Notify Unit := fun _ => pure ()
    let a := Catalog.palindrome.automaton
    a.Typed ∧ Play false (step quiet) ∧
      ∃ d, Desk.start a "a" 200 false none none 0 () = .ok d ∧
        (exec (step quiet) d).2.engine.status.isTerminal = false ∧
        ∃ ts ev d'', (exec (step quiet) d).2.engine.applicable = .ok ts ∧
          ts = [⟨"q0", "q1", .pda "ε" "ε" "ε"⟩] ∧
          exec decide (exec (step quiet) d).2 = (.ok ev, d'') ∧ ev.transition = none := by
  intro quiet a
  have ha : a.Typed := by decide
  have hplay : Play false (step quiet) := .step fun _ => .ret ()
  obtain ⟨d, hd⟩ : ∃ d, Desk.start a "a" 200 false none none 0 () = .ok d := ⟨_, rfl⟩
  have hs : (exec (step quiet) d).2.engine.status.isTerminal = false := by
    cases hd
    rfl
  obtain ⟨ts, ev, d'', hts, -, hdecide, hforetells, -⟩ := foretells_of_play ha hd hplay hs
  have hlist : (exec (step quiet) d).2.engine.applicable =
      .ok [⟨"q0", "q1", .pda "ε" "ε" "ε"⟩] := by
    cases hd
    rfl
  have hend : (exec (step quiet) d).2.engine.config.atEnd = true := by
    cases hd
    rfl
  have hpda : (exec (step quiet) d).2.engine.automaton.formalism = .pda := by
    cases hd
    rfl
  exact ⟨ha, hplay, d, hd, hs, ts, ev, d'', hts, Except.ok.inj (hts.symm.trans hlist), hdecide,
    hforetells.none_iff.2 (Or.inr (Or.inl ⟨hpda, hend⟩))⟩

end AutomatonLab
